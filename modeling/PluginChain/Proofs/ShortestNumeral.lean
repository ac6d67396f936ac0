import PluginChain.Proofs.NearestNumber
set_option autoImplicit false

/-!
# The shortest numeral reads back

`Decimal.shortest` looks through ever finer grids of decimal points.  What it takes from a
grid rounds to the number (`roundsTo_of_onGrid?`), and the last grid it comes to is finer
than the number's last place, so that the point next above the number is near enough
(`exists_onGrid?`).  Hence the shortest numeral of a finite number, and any other numeral for
the same value, is read as that number (`value_of_toRat_eq`).
-/

namespace PluginChain

namespace Binary64

/-- The magnitude of a number is the quotient of naturals that stands for it. -/
theorem ratio_eq (m : Nat) (e : Int) : ((ratio m e).1 : ℚ) / (ratio m e).2 = m * 2 ^ e := by
  unfold ratio
  split_ifs with h
  · obtain ⟨n, rfl⟩ := Int.eq_ofNat_of_zero_le h
    simp
  · obtain ⟨n, rfl⟩ : ∃ n : Nat, e = -n := ⟨(-e).toNat, by omega⟩
    simp [div_eq_mul_inv]

theorem ratio_pos (m : Nat) (e : Int) : 0 < (ratio m e).2 := by
  unfold ratio
  split_ifs
  · exact Nat.one_pos
  · exact Nat.pow_pos two_pos

/-- The power of ten with which the search for an order of magnitude begins is not too high:
the common logarithm of two lies between 3 / 10 and 28 / 93. -/
theorem ten_zpow_le {f : Int} (hlo : -1074 ≤ f) (hhi : f ≤ 1023) :
    (10 : ℚ) ^ (f * 30103 / 100000 - 1 - 1) ≤ 2 ^ f := by
  rcases le_or_gt 0 f with hf | hf
  · refine (pow_le_pow_iff_left₀ (by positivity) (by positivity) (show 10 ≠ 0 by decide)).mp ?_
    calc ((10 : ℚ) ^ (f * 30103 / 100000 - 1 - 1)) ^ 10
        = 10 ^ ((f * 30103 / 100000 - 1 - 1) * 10) := by rw [zpow_mul, zpow_ofNat]
      _ ≤ 10 ^ (3 * f) := zpow_le_zpow_right₀ (by norm_num) (by omega)
      _ = (10 ^ 3) ^ f := by rw [zpow_mul, zpow_ofNat]
      _ ≤ (2 ^ 10) ^ f := zpow_le_zpow_left₀ hf (by norm_num) (by norm_num)
      _ = (2 ^ f) ^ 10 := by rw [← zpow_natCast, ← zpow_natCast, ← zpow_mul, ← zpow_mul, mul_comm]
  · refine (pow_le_pow_iff_left₀ (by positivity) (by positivity) (show 93 ≠ 0 by decide)).mp ?_
    calc ((10 : ℚ) ^ (f * 30103 / 100000 - 1 - 1)) ^ 93
        = 10 ^ ((f * 30103 / 100000 - 1 - 1) * 93) := by rw [zpow_mul, zpow_ofNat]
      _ ≤ 10 ^ (28 * f) := zpow_le_zpow_right₀ (by norm_num) (by omega)
      _ = (10 ^ 28) ^ f := by rw [zpow_mul, zpow_ofNat]
      _ ≤ (2 ^ 93) ^ f := by
        obtain ⟨n, rfl⟩ : ∃ n : Nat, f = -n := ⟨(-f).toNat, by omega⟩
        rw [zpow_neg, zpow_neg, zpow_natCast, zpow_natCast]
        exact inv_anti₀ (by positivity) (pow_le_pow_left₀ (by positivity) (by norm_num) n)
      _ = (2 ^ f) ^ 93 := by rw [← zpow_natCast, ← zpow_natCast, ← zpow_mul, ← zpow_mul, mul_comm]

end Binary64

namespace Decimal

/-! ## Values -/

/-- The number that a numeral stands for. -/
def toRat (d : Decimal) : ℚ := d.digits * 10 ^ d.exponent

theorem ratio_eq (d : Decimal) : (d.ratio.1 : ℚ) / d.ratio.2 = d.toRat := by
  unfold ratio toRat
  split_ifs with h
  · obtain ⟨n, hn⟩ := Int.eq_ofNat_of_zero_le h
    simp [hn]
  · obtain ⟨n, hn⟩ : ∃ n : Nat, d.exponent = -n := ⟨(-d.exponent).toNat, by omega⟩
    simp [hn, div_eq_mul_inv]

theorem ratio_pos (d : Decimal) : 0 < d.ratio.2 := by
  unfold ratio
  split_ifs
  · exact Nat.one_pos
  · exact Nat.pow_pos (by decide)

/-- Zeros at the end are left out together with their places. -/
theorem toRat_trim (d : Decimal) (fuel : Nat) : (trim d fuel).toRat = d.toRat := by
  induction fuel generalizing d with
  | zero => rfl
  | succ fuel ih =>
    unfold trim
    split_ifs with h
    · rw [ih]
      have hdigits : d.digits = d.digits / 10 * 10 :=
        (Nat.div_mul_cancel (Nat.dvd_of_mod_eq_zero h.2)).symm
      unfold toRat
      dsimp only
      rw [zpow_add_one₀ (by norm_num)]
      conv_rhs => rw [hdigits]
      push_cast
      ring
    · rfl

/-- A search for the order of magnitude that begins low enough ends low enough. -/
theorem magnitude_le {num den : Nat} (hden : 0 < den) (fuel : Nat) {k : Int}
    (h : (10 : ℚ) ^ (k - 1) ≤ num / den) :
    (10 : ℚ) ^ (magnitude num den fuel k - 1) ≤ num / den := by
  induction fuel generalizing k with
  | zero => exact h
  | succ fuel ih =>
    have hreached := Binary64.zpow_le_div_iff num (by decide : 0 < 10) hden k
    unfold magnitude
    dsimp only
    split_ifs at hreached ⊢ with hk hbelow hbelow
    · exact h
    · apply ih
      rw [add_sub_cancel_right]
      exact hreached.mpr (not_lt.mp fun hlt => hbelow (decide_eq_true hlt))
    · exact h
    · apply ih
      rw [add_sub_cancel_right]
      exact hreached.mpr (not_lt.mp fun hlt => hbelow (decide_eq_true hlt))

/-! ## One grid -/

/-- The two units stand in the proportion of their powers. -/
theorem units_eq (e k : Int) :
    ∃ scale : ℚ, 0 < scale ∧ (units e k).1 = 2 ^ (e - 2) * scale ∧
      (units e k).2 = 10 ^ k * scale := by
  have hunit := Binary64.ratio_eq 1 (e - 2)
  have hgrid := ratio_eq ⟨1, k⟩
  have hunitDen : (0 : ℚ) < (Binary64.ratio 1 (e - 2)).2 := by
    exact_mod_cast Binary64.ratio_pos 1 (e - 2)
  have hgridDen : (0 : ℚ) < (ratio ⟨1, k⟩).2 := by exact_mod_cast ratio_pos ⟨1, k⟩
  rw [div_eq_iff hunitDen.ne'] at hunit
  rw [div_eq_iff hgridDen.ne'] at hgrid
  refine ⟨(Binary64.ratio 1 (e - 2)).2 * (ratio ⟨1, k⟩).2, mul_pos hunitDen hgridDen, ?_, ?_⟩
  · rw [units, Nat.cast_mul, hunit, Nat.cast_one]
    ring
  · rw [units, Nat.cast_mul, hgrid, toRat, Nat.cast_one]
    ring

/-- A bound and a point of a grid are compared as naturals. -/
theorem le_point_iff (e k : Int) (a c : Nat) :
    a * (units e k).1 ≤ c * (units e k).2 ↔ (a : ℚ) * 2 ^ (e - 2) ≤ c * 10 ^ k := by
  obtain ⟨scale, hscale, hunit, hgrid⟩ := units_eq e k
  rw [← Nat.cast_le (α := ℚ), Nat.cast_mul, Nat.cast_mul, hunit, hgrid, ← mul_assoc, ← mul_assoc,
    mul_le_mul_iff_left₀ hscale]

/-- A point of a grid and a bound are compared as naturals. -/
theorem point_le_iff (e k : Int) (a c : Nat) :
    c * (units e k).2 ≤ a * (units e k).1 ↔ (c : ℚ) * 10 ^ k ≤ a * 2 ^ (e - 2) := by
  obtain ⟨scale, hscale, hunit, hgrid⟩ := units_eq e k
  rw [← Nat.cast_le (α := ℚ), Nat.cast_mul, Nat.cast_mul, hunit, hgrid, ← mul_assoc, ← mul_assoc,
    mul_le_mul_iff_left₀ hscale]

/-- The test for a point of a grid says whether it rounds to the number. -/
theorem inside_iff (m : Nat) (e k : Int) (c : Nat) :
    inside m e k c = true ↔ Binary64.RoundsTo m e (toRat ⟨c, k⟩) := by
  unfold inside Binary64.RoundsTo toRat
  dsimp only
  split_ifs
  · rw [Bool.and_eq_true, decide_eq_true_iff, decide_eq_true_iff, le_point_iff, point_le_iff]
  · rw [Bool.and_eq_true, decide_eq_true_iff, decide_eq_true_iff, ← not_le, point_le_iff, ← not_le,
      le_point_iff, not_le, not_le]

/-- A numeral that is found on a grid rounds to the number. -/
theorem roundsTo_of_onGrid? {m : Nat} {e k : Int} {d : Decimal} (h : onGrid? m e k = some d) :
    Binary64.RoundsTo m e d.toRat := by
  unfold onGrid? at h
  dsimp only at h
  split_ifs at h with hbelow habove
  · cases h
    exact (inside_iff ..).mp (Bool.and_eq_true_iff.mp hbelow).1
  · cases h
    exact (inside_iff ..).mp habove

/-- On a grid finer than half the last place of a number, the point next above the number
rounds to it. -/
theorem inside_above {m : Nat} {e k : Int} (hm : m ≠ 0) (h : (10 : ℚ) ^ k < 2 * 2 ^ (e - 2)) :
    inside m e k (4 * m * (units e k).1 / (units e k).2 + 1) = true := by
  have hfine : (units e k).2 < 2 * (units e k).1 := by
    have hiff := le_point_iff e k 2 1
    rw [Nat.one_mul, Nat.cast_one, one_mul, Nat.cast_two] at hiff
    exact not_le.mp (mt hiff.mp (not_le.mpr h))
  have hbounds : (bounds m e).1 < 4 * m ∧ (bounds m e).2 = 4 * m + 2 := by
    unfold bounds
    split_ifs
    · exact ⟨by dsimp only; omega, rfl⟩
    · exact ⟨by dsimp only; omega, rfl⟩
  unfold inside
  dsimp only
  generalize (units e k).1 = unit at *
  generalize hgrid : (units e k).2 = grid at *
  have hpos : 0 < grid := by
    obtain ⟨scale, hscale, -, heq⟩ := units_eq e k
    have : (0 : ℚ) < grid := by
      rw [← hgrid, heq]
      positivity
    exact_mod_cast this
  have hbelow : 4 * m * unit / grid * grid ≤ 4 * m * unit := Nat.div_mul_le_self _ _
  have habove : 4 * m * unit < (4 * m * unit / grid + 1) * grid := by
    rw [Nat.mul_comm _ grid]
    exact Nat.lt_mul_div_succ _ hpos
  have hlo : (bounds m e).1 * unit ≤ 4 * m * unit := Nat.mul_le_mul_right _ hbounds.1.le
  have hhi : (4 * m * unit / grid + 1) * grid < (bounds m e).2 * unit := by
    rw [hbounds.2, Nat.add_mul, Nat.add_mul]
    omega
  split_ifs
  · rw [Bool.and_eq_true, decide_eq_true_iff, decide_eq_true_iff]
    exact ⟨(hlo.trans_lt habove).le, hhi.le⟩
  · rw [Bool.and_eq_true, decide_eq_true_iff, decide_eq_true_iff]
    exact ⟨hlo.trans_lt habove, hhi⟩

/-- A grid finer than half the last place of a number has a numeral for it. -/
theorem exists_onGrid? {m : Nat} {e k : Int} (hm : m ≠ 0) (h : (10 : ℚ) ^ k < 2 * 2 ^ (e - 2)) :
    ∃ d, onGrid? m e k = some d := by
  unfold onGrid?
  dsimp only
  split_ifs with hbelow habove
  · exact ⟨_, rfl⟩
  · exact ⟨_, rfl⟩
  · exact absurd (inside_above hm h) habove

/-! ## The search -/

/-- A search that comes to a fine grid finds a numeral that rounds to the number. -/
theorem roundsTo_search {m : Nat} {e top : Int} (hm : m ≠ 0) (fuel n : Nat)
    (h : (10 : ℚ) ^ (top - (n + fuel : Nat)) < 2 * 2 ^ (e - 2)) :
    Binary64.RoundsTo m e (search m e top fuel n).toRat := by
  induction fuel generalizing n with
  | zero =>
    obtain ⟨d, hd⟩ := exists_onGrid? hm h
    have hd' : onGrid? m e (top - n) = some d := hd
    rw [search, hd', Option.getD_some]
    exact roundsTo_of_onGrid? hd
  | succ fuel ih =>
    unfold search
    split
    · next d hd => exact roundsTo_of_onGrid? hd
    · exact ih (n + 1) (by rwa [show n + 1 + fuel = n + (fuel + 1) by omega])

/-- The range of the finite numbers. -/
theorem magnitude_bounds {m : Nat} {e : Int} (h : Binary64.Canonical m e) (hm : m ≠ 0) :
    (2 : ℚ) ^ (-1074 : Int) ≤ m * 2 ^ e ∧ (m : ℚ) * 2 ^ e < 2 ^ (1024 : Int) := by
  obtain ⟨hsmall, hmin, hmax, -⟩ := h
  have hone : (1 : ℚ) ≤ m := by exact_mod_cast Nat.one_le_iff_ne_zero.mpr hm
  have hlt : (m : ℚ) < 2 ^ (53 : Int) := by
    have : m < 2 ^ 53 := hsmall
    exact_mod_cast this
  constructor
  · calc (2 : ℚ) ^ (-1074 : Int) ≤ 2 ^ e := zpow_le_zpow_right₀ (by norm_num) hmin
      _ ≤ m * 2 ^ e := le_mul_of_one_le_left (by positivity) hone
  · calc (m : ℚ) * 2 ^ e < 2 ^ (53 : Int) * 2 ^ e := by gcongr
      _ = 2 ^ (53 + e) := (zpow_add₀ two_ne_zero _ _).symm
      _ ≤ 2 ^ (1024 : Int) := by
        refine zpow_le_zpow_right₀ (by norm_num) ?_
        have : e ≤ 971 := hmax
        omega

/-- The shortest numeral of a number rounds to it. -/
theorem roundsTo_shortest {m : Nat} {e : Int} (h : Binary64.Canonical m e) (hm : m ≠ 0) :
    Binary64.RoundsTo m e (shortest m e).toRat := by
  have hden := Binary64.ratio_pos m e
  have hratio := Binary64.ratio_eq m e
  obtain ⟨hlo, hhi⟩ := magnitude_bounds h hm
  rw [← hratio] at hlo hhi
  have hnum : 0 < (Binary64.ratio m e).1 := by
    have hpos := (zpow_pos (two_pos (α := ℚ)) _).trans_le hlo
    rw [div_pos_iff_of_pos_right (by exact_mod_cast hden)] at hpos
    exact_mod_cast hpos
  obtain ⟨hreached, hnext⟩ := Binary64.floorLog2_spec hnum hden
  have hleast := (zpow_lt_zpow_iff_right₀ (one_lt_two (α := ℚ))).mp (hlo.trans_lt hnext)
  have hgreatest := Binary64.floorLog2_lt hnum hden hhi
  have hguess := (Binary64.ten_zpow_le (by omega) (by omega)).trans hreached
  have htop := magnitude_le hden 8 hguess
  unfold shortest
  rw [if_neg hm]
  dsimp only
  rw [toRat_trim]
  apply roundsTo_search hm
  -- Seventeen places below the first one, the grid is finer than the last place.
  generalize magnitude _ _ 8 _ = top at htop ⊢
  rw [hratio] at htop
  have hlt : (m : ℚ) < 2 ^ 53 := by
    have : m < 2 ^ 53 := h.1
    exact_mod_cast this
  calc (10 : ℚ) ^ (top - (1 + 17 : Nat)) = 10 ^ (top - 1) / 10 ^ 17 := by
        rw [eq_div_iff (by positivity), ← zpow_natCast, ← zpow_add₀ (by norm_num)]
        congr 1
        push_cast
        ring
    _ ≤ m * 2 ^ e / 10 ^ 17 := by gcongr
    _ = m / 10 ^ 17 * 4 * 2 ^ (e - 2) := by
        rw [zpow_sub₀ two_ne_zero]
        norm_num
        ring
    _ < 2 * 2 ^ (e - 2) := by
        gcongr
        linarith

/-! ## Reading a numeral back -/

/-- The number of the digits of a number gives its order of magnitude. -/
theorem digitCount_bounds {n : Nat} (h : n ≠ 0) :
    10 ^ (digitCount n - 1) ≤ n ∧ n < 10 ^ digitCount n := by
  have hiff {k : Nat} (hk : 0 < k) : digitCount n ≤ k ↔ n < 10 ^ k :=
    Nat.length_toDigits_le_iff (by decide) hk
  have hpos : 0 < digitCount n := List.length_pos_iff.mpr Nat.toDigits_ne_nil
  refine ⟨?_, (hiff hpos).mp le_rfl⟩
  rcases Nat.eq_zero_or_pos (digitCount n - 1) with hzero | hmore
  · rw [hzero, Nat.pow_zero]
    omega
  · exact not_lt.mp fun hlt => absurd ((hiff hmore).mpr hlt) (by omega)

/-- The order of magnitude of a numeral that is not zero. -/
theorem toRat_bounds {d : Decimal} (h : d.digits ≠ 0) :
    (10 : ℚ) ^ (d.exponent + digitCount d.digits - 1) ≤ d.toRat ∧
      d.toRat < 10 ^ (d.exponent + digitCount d.digits) := by
  obtain ⟨hlo, hhi⟩ := digitCount_bounds h
  have hpos : 0 < digitCount d.digits := List.length_pos_iff.mpr Nat.toDigits_ne_nil
  have hlo' : (10 : ℚ) ^ (digitCount d.digits - 1 : Nat) ≤ d.digits := by exact_mod_cast hlo
  have hhi' : (d.digits : ℚ) < 10 ^ digitCount d.digits := by exact_mod_cast hhi
  unfold toRat
  constructor
  · rw [show d.exponent + digitCount d.digits - 1 = (digitCount d.digits - 1 : Nat) + d.exponent by
      omega, zpow_add₀ (by norm_num), zpow_natCast]
    gcongr
  · rw [add_comm, zpow_add₀ (by norm_num), zpow_natCast]
    gcongr

/-- What rounds to a number lies in the range of the numbers. -/
theorem range_of_roundsTo {m : Nat} {e : Int} {v : ℚ} (h : Binary64.Canonical m e)
    (hv : Binary64.RoundsTo m e v) (hm : m ≠ 0) :
    (2 : ℚ) ^ (-1075 : Int) ≤ v ∧ v ≤ 2 ^ (1024 : Int) := by
  obtain ⟨hlo, hhi⟩ := hv.bounds
  obtain ⟨hsmall, hmin, hmax, -⟩ := h
  have hbounds : 2 ≤ (bounds m e).1 ∧ (bounds m e).2 ≤ 2 ^ 55 := by
    have : m < 2 ^ 53 := hsmall
    unfold bounds
    split_ifs
    · exact ⟨by dsimp only; omega, by dsimp only; omega⟩
    · exact ⟨by dsimp only; omega, by dsimp only; omega⟩
  have hbelow : (2 : ℚ) ^ (1 : Int) ≤ (bounds m e).1 := by exact_mod_cast hbounds.1
  have habove : ((bounds m e).2 : ℚ) ≤ 2 ^ (55 : Int) := by exact_mod_cast hbounds.2
  constructor
  · calc (2 : ℚ) ^ (-1075 : Int) ≤ 2 ^ (1 + (e - 2)) := by
          refine zpow_le_zpow_right₀ (by norm_num) ?_
          have : -1074 ≤ e := hmin
          omega
      _ = 2 ^ (1 : Int) * 2 ^ (e - 2) := zpow_add₀ two_ne_zero _ _
      _ ≤ (bounds m e).1 * 2 ^ (e - 2) := by gcongr
      _ ≤ v := hlo
  · calc v ≤ (bounds m e).2 * 2 ^ (e - 2) := hhi
      _ ≤ 2 ^ (55 : Int) * 2 ^ (e - 2) := by gcongr
      _ = 2 ^ (55 + (e - 2)) := (zpow_add₀ two_ne_zero _ _).symm
      _ ≤ 2 ^ (1024 : Int) := by
          refine zpow_le_zpow_right₀ (by norm_num) ?_
          have : e ≤ 971 := hmax
          omega

/-- The range of the numbers in powers of ten. -/
theorem ten_zpow_range :
    (10 : ℚ) ^ (-331 : Int) < 2 ^ (-1075 : Int) ∧ (2 : ℚ) ^ (1024 : Int) < 10 ^ (310 : Int) := by
  have hsmall : 2 ^ 1075 < 10 ^ 331 := by decide +kernel
  have hlarge : 2 ^ 1024 < 10 ^ 310 := by decide +kernel
  constructor
  · rw [zpow_neg, zpow_neg, inv_lt_inv₀ (by positivity) (by positivity)]
    exact_mod_cast hsmall
  · exact_mod_cast hlarge

/-- A numeral that rounds to a number is read as that number. -/
theorem value_of_roundsTo {m : Nat} {e : Int} {d : Decimal} (negative : Bool)
    (h : Binary64.Canonical m e) (hm : m ≠ 0) (hd : Binary64.RoundsTo m e d.toRat) :
    d.value negative = .finite negative m e h := by
  have hpos := hd.pos hm
  have hdigits : d.digits ≠ 0 := by
    intro hzero
    rw [toRat, hzero, Nat.cast_zero, zero_mul] at hpos
    exact lt_irrefl _ hpos
  obtain ⟨hleast, hgreatest⟩ := toRat_bounds hdigits
  obtain ⟨hlo, hhi⟩ := range_of_roundsTo h hd hm
  obtain ⟨htiny, hhuge⟩ := ten_zpow_range
  have hbelow := (zpow_lt_zpow_iff_right₀ (show (1 : ℚ) < 10 by norm_num)).mp
    (hleast.trans_lt (hhi.trans_lt hhuge))
  have habove := (zpow_lt_zpow_iff_right₀ (show (1 : ℚ) < 10 by norm_num)).mp
    ((htiny.trans_le hlo).trans hgreatest)
  unfold value
  dsimp only
  rw [if_neg hdigits, if_neg (by omega), if_neg (by omega)]
  apply Binary64.round_of_roundsTo negative h hm d.ratio_pos
  rw [ratio_eq]
  exact hd

/-- A numeral for the same number as the shortest one of a finite number is read as that
number. -/
theorem value_of_toRat_eq {m : Nat} {e : Int} {d : Decimal} (negative : Bool)
    (h : Binary64.Canonical m e) (hd : d.toRat = (shortest m e).toRat) :
    d.value negative = .finite negative m e h := by
  by_cases hm : m = 0
  · subst hm
    have hdigits : d.digits = 0 := by
      have hzero : d.toRat = 0 := by
        rw [hd, shortest, if_pos rfl, toRat, Nat.cast_zero, zero_mul]
      rw [toRat, mul_eq_zero] at hzero
      exact_mod_cast hzero.resolve_right (zpow_pos (by norm_num) _).ne'
    obtain rfl : e = Binary64.minExponent := h.2.2.2.resolve_left (by decide)
    unfold value
    exact if_pos hdigits
  · exact value_of_roundsTo negative h hm (hd ▸ roundsTo_shortest h hm)

end Decimal
end PluginChain
