import Mathlib.Algebra.Order.Field.Power
import Mathlib.Algebra.Order.Field.Rat
import Mathlib.Tactic.GCongr
import Mathlib.Tactic.Linarith
import Mathlib.Tactic.Positivity
import Mathlib.Tactic.Ring
import PluginChain.Number.Decimal
set_option autoImplicit false

/-!
# Rounding to the nearest number

`Binary64.round` against the rational numbers.  A quotient rounds to a number if it lies
between the number's bounds, and from the bounds themselves only an even significand is
reached (`Binary64.RoundsTo`).  The order of magnitude of such a quotient asks for the
exponent of the number, but for a quotient just below a power of two, which is rounded with
one more place and then carried over.  In both cases the answer is the number
(`Binary64.round_of_roundsTo`).
-/

namespace PluginChain.Binary64

/-! ## Integers -/

/-- The integer next to a quotient, and the even one of two that are equally near, is the
quotient rounded. -/
theorem roundHalfEven_eq {a b n : Nat} (hb : 0 < b) (hlo : 2 * (n * b) ≤ 2 * a + b)
    (hhi : 2 * a ≤ 2 * (n * b) + b)
    (htie : n % 2 = 0 ∨ 2 * (n * b) < 2 * a + b ∧ 2 * a < 2 * (n * b) + b) :
    roundHalfEven a b = n := by
  have hsplit : b * (a / b) + a % b = a := Nat.div_add_mod a b
  have hrest : a % b < b := Nat.mod_lt a hb
  rw [Nat.mul_comm] at hsplit
  unfold roundHalfEven
  dsimp only
  generalize a / b = q at *
  generalize a % b = r at *
  have hcases : n = q ∨ n = q + 1 := by
    rcases Nat.lt_trichotomy n q with h | h | h
    · have := Nat.mul_le_mul_right b (show n + 1 ≤ q from h)
      rw [Nat.add_mul] at this
      omega
    · exact .inl h
    · by_contra hne
      have := Nat.mul_le_mul_right b (show q + 2 ≤ n by omega)
      rw [Nat.add_mul] at this
      omega
  obtain rfl | rfl := hcases
  · split_ifs <;> omega
  · rw [Nat.add_mul] at *
    split_ifs <;> omega

/-! ## Powers -/

/-- A quotient over a power, as a quotient of naturals. -/
theorem div_zpow_eq (base num den : Nat) (q : Int) :
    (num : ℚ) / den / (base : ℚ) ^ q =
      if 0 ≤ q then (num : ℚ) / (den * Nat.pow base q.toNat : Nat)
      else (num * Nat.pow base (-q).toNat : Nat) / (den : ℚ) := by
  split_ifs with h
  · obtain ⟨n, rfl⟩ := Int.eq_ofNat_of_zero_le h
    simp [div_div]
  · obtain ⟨n, rfl⟩ : ∃ n : Nat, q = -n := ⟨(-q).toNat, by omega⟩
    simp
    ring

theorem two_zpow_half (e : Int) : (2 : ℚ) ^ e = 2 * 2 ^ (e - 1) := by
  rw [← zpow_one_add₀ two_ne_zero, add_sub_cancel]

theorem two_zpow_quarter (e : Int) : (2 : ℚ) ^ e = 2 ^ (e - 2) * 4 := by
  rw [show (4 : ℚ) = 2 ^ (2 : ℤ) by norm_num, ← zpow_add₀ two_ne_zero, sub_add_cancel]

/-- Whether a quotient reaches a power, in naturals. -/
theorem zpow_le_div_iff {base den : Nat} (num : Nat) (hbase : 0 < base) (hden : 0 < den) (k : Int) :
    (base : ℚ) ^ k ≤ num / den ↔
      if 0 ≤ k then den * Nat.pow base k.toNat ≤ num else den ≤ num * Nat.pow base (-k).toNat := by
  have hpos : (0 : ℚ) < den := by exact_mod_cast hden
  rw [← one_le_div₀ (zpow_pos (by exact_mod_cast hbase) k), div_zpow_eq]
  split_ifs with h
  · have hscaled : 0 < den * Nat.pow base k.toNat := Nat.mul_pos hden (Nat.pow_pos hbase)
    rw [one_le_div₀ (by exact_mod_cast hscaled), Nat.cast_le]
  · rw [one_le_div₀ hpos, Nat.cast_le]

/-- An integer at most a half away from a quotient, and even where it is exactly a half, is
the quotient rounded. -/
theorem roundHalfEven_of_near {a b n : Nat} (hb : 0 < b) (hlo : (n : ℚ) - 1 / 2 ≤ a / b)
    (hhi : (a : ℚ) / b ≤ n + 1 / 2)
    (htie : n % 2 = 0 ∨ (n : ℚ) - 1 / 2 < a / b ∧ (a : ℚ) / b < n + 1 / 2) :
    roundHalfEven a b = n := by
  have hpos : (0 : ℚ) < b := by exact_mod_cast hb
  rw [le_div_iff₀ hpos] at hlo
  rw [div_le_iff₀ hpos] at hhi
  rw [lt_div_iff₀ hpos, div_lt_iff₀ hpos] at htie
  refine roundHalfEven_eq hb ?_ ?_ (htie.imp_right fun ⟨h, h'⟩ => ⟨?_, ?_⟩)
  · have : (2 * (n * b) : ℚ) ≤ 2 * a + b := by linarith
    exact_mod_cast this
  · have : (2 * a : ℚ) ≤ 2 * (n * b) + b := by linarith
    exact_mod_cast this
  · have : (2 * (n * b) : ℚ) < 2 * a + b := by linarith
    exact_mod_cast this
  · have : (2 * a : ℚ) < 2 * (n * b) + b := by linarith
    exact_mod_cast this

/-- The exponent of the greatest power of two that a quotient reaches. -/
theorem floorLog2_spec {num den : Nat} (hnum : 0 < num) (hden : 0 < den) :
    (2 : ℚ) ^ floorLog2 num den ≤ num / den ∧ (num : ℚ) / den < 2 ^ (floorLog2 num den + 1) := by
  have hposd : (0 : ℚ) < den := by exact_mod_cast hden
  have hnum₀ : ((2 : ℚ) ^ (num.log2 : ℤ)) ≤ num := by
    exact_mod_cast Nat.log2_self_le hnum.ne'
  have hnum₁ : (num : ℚ) < 2 ^ ((num.log2 : ℤ) + 1) := by
    exact_mod_cast Nat.lt_log2_self
  have hden₀ : ((2 : ℚ) ^ (den.log2 : ℤ)) ≤ den := by
    exact_mod_cast Nat.log2_self_le hden.ne'
  have hden₁ : (den : ℚ) < 2 ^ ((den.log2 : ℤ) + 1) := by
    exact_mod_cast Nat.lt_log2_self
  set k : ℤ := (num.log2 : ℤ) - den.log2 with hk
  have hbelow : (2 : ℚ) ^ (k - 1) ≤ num / den := by
    rw [le_div_iff₀ hposd]
    calc (2 : ℚ) ^ (k - 1) * den ≤ 2 ^ (k - 1) * 2 ^ ((den.log2 : ℤ) + 1) := by gcongr
      _ = 2 ^ (num.log2 : ℤ) := by rw [← zpow_add₀ two_ne_zero]; congr 1; omega
      _ ≤ num := hnum₀
  have habove : (num : ℚ) / den < 2 ^ (k + 1) := by
    rw [div_lt_iff₀ hposd]
    calc (num : ℚ) < 2 ^ ((num.log2 : ℤ) + 1) := hnum₁
      _ = 2 ^ (k + 1) * 2 ^ (den.log2 : ℤ) := by rw [← zpow_add₀ two_ne_zero]; congr 1; omega
      _ ≤ 2 ^ (k + 1) * den := by gcongr
  have hreached := zpow_le_div_iff num two_pos hden k
  rw [Nat.cast_two] at hreached
  unfold floorLog2
  simp only [← hk]
  by_cases h : (2 : ℚ) ^ k ≤ num / den
  · rw [if_pos (by simpa using hreached.mp h)]
    exact ⟨h, habove⟩
  · rw [if_neg (by simpa using mt hreached.mpr h), sub_add_cancel]
    exact ⟨hbelow, not_le.mp h⟩

/-- A quotient over a power of two, rounded. -/
theorem roundHalfEven_scaled {den n : Nat} (num : Nat) {q : Int} (hden : 0 < den)
    (hlo : (n : ℚ) - 1 / 2 ≤ num / den / 2 ^ q) (hhi : (num : ℚ) / den / 2 ^ q ≤ n + 1 / 2)
    (htie : n % 2 = 0 ∨
      (n : ℚ) - 1 / 2 < num / den / 2 ^ q ∧ (num : ℚ) / den / 2 ^ q < n + 1 / 2) :
    (if 0 ≤ q then roundHalfEven num (den * Nat.pow 2 q.toNat)
      else roundHalfEven (num * Nat.pow 2 (-q).toNat) den) = n := by
  have hscaled := div_zpow_eq 2 num den q
  rw [Nat.cast_two] at hscaled
  rw [hscaled] at hlo hhi htie
  split_ifs at * with h
  · exact roundHalfEven_of_near (Nat.mul_pos hden (Nat.pow_pos two_pos)) hlo hhi htie
  · exact roundHalfEven_of_near hden hlo hhi htie

/-! ## What rounds to a number -/

/-- The numbers that round to `m * 2 ^ e`: those between the bounds, and the bounds
themselves where the significand is even. -/
def RoundsTo (m : Nat) (e : Int) (v : ℚ) : Prop :=
  let (lo, hi) := Decimal.bounds m e
  if m % 2 = 0 then lo * 2 ^ (e - 2) ≤ v ∧ v ≤ hi * 2 ^ (e - 2)
  else lo * 2 ^ (e - 2) < v ∧ v < hi * 2 ^ (e - 2)

variable {m : Nat} {e : Int} {v : ℚ}

theorem RoundsTo.bounds (h : RoundsTo m e v) :
    (Decimal.bounds m e).1 * (2 : ℚ) ^ (e - 2) ≤ v ∧ v ≤ (Decimal.bounds m e).2 * 2 ^ (e - 2) := by
  unfold RoundsTo at h
  dsimp only at h
  split_ifs at h
  · exact h
  · exact ⟨h.1.le, h.2.le⟩

/-- The bounds in units of the number's own last place. -/
theorem bounds_eq (hm : m ≠ 0) (hnarrow : ¬ (m = leastNormal ∧ minExponent < e)) :
    (Decimal.bounds m e).1 * (2 : ℚ) ^ (e - 2) = (m - 1 / 2) * 2 ^ e ∧
      (Decimal.bounds m e).2 * (2 : ℚ) ^ (e - 2) = (m + 1 / 2) * 2 ^ e := by
  rw [Decimal.bounds, if_neg hnarrow, two_zpow_quarter e]
  constructor
  · rw [Nat.cast_sub (by omega)]
    push_cast
    ring
  · push_cast
    ring

/-- The bounds of a power of two, in units of its last place. -/
theorem bounds_leastNormal (h : minExponent < e) :
    (Decimal.bounds leastNormal e).1 * (2 : ℚ) ^ (e - 2) = (leastNormal - 1 / 4) * 2 ^ e ∧
      (Decimal.bounds leastNormal e).2 * (2 : ℚ) ^ (e - 2) = (leastNormal + 1 / 2) * 2 ^ e := by
  rw [Decimal.bounds, if_pos ⟨rfl, h⟩, two_zpow_quarter e]
  constructor
  · rw [Nat.cast_sub (by decide)]
    push_cast
    ring
  · push_cast
    ring

/-- The least normal significand at an exponent, as a power of two. -/
theorem leastNormal_mul_zpow (e : Int) : (leastNormal : ℚ) * 2 ^ e = 2 ^ (e + 52) := by
  rw [zpow_add₀ two_ne_zero, mul_comm]
  norm_num [leastNormal]

/-! ## Rounding -/

/-- The exponent of a quotient between two neighbouring powers of two. -/
theorem floorLog2_eq {num den : Nat} {k : Int} (hnum : 0 < num) (hden : 0 < den)
    (hlo : (2 : ℚ) ^ k ≤ num / den) (hhi : (num : ℚ) / den < 2 ^ (k + 1)) :
    floorLog2 num den = k := by
  obtain ⟨hreached, hnext⟩ := floorLog2_spec hnum hden
  have habove := (zpow_lt_zpow_iff_right₀ (one_lt_two (α := ℚ))).mp (hreached.trans_lt hhi)
  have hbelow := (zpow_lt_zpow_iff_right₀ (one_lt_two (α := ℚ))).mp (hlo.trans_lt hnext)
  omega

/-- The exponent of a quotient below a power of two. -/
theorem floorLog2_lt {num den : Nat} {k : Int} (hnum : 0 < num) (hden : 0 < den)
    (h : (num : ℚ) / den < 2 ^ k) : floorLog2 num den < k :=
  (zpow_lt_zpow_iff_right₀ (one_lt_two (α := ℚ))).mp ((floorLog2_spec hnum hden).1.trans_lt h)

/-- Where the order of magnitude asks for the exponent of the number, a quotient that rounds
to it is rounded to it. -/
theorem round_of_exponent {num den : Nat} (negative : Bool) (h : Canonical m e)
    (hnum : 0 < num) (hden : 0 < den) (hexp : max (floorLog2 num den - 52) minExponent = e)
    (hlo : (m - 1 / 2 : ℚ) * 2 ^ e ≤ num / den) (hhi : (num : ℚ) / den ≤ (m + 1 / 2) * 2 ^ e)
    (htie : m % 2 = 0 ∨
      (m - 1 / 2 : ℚ) * 2 ^ e < num / den ∧ (num : ℚ) / den < (m + 1 / 2) * 2 ^ e) :
    round negative num den = .finite negative m e h := by
  have hpow : (0 : ℚ) < 2 ^ e := zpow_pos two_pos e
  have hrounded := roundHalfEven_scaled num (n := m) (q := e) hden ((le_div_iff₀ hpow).mpr hlo)
    ((div_le_iff₀ hpow).mpr hhi)
    (htie.imp_right fun ⟨h, h'⟩ => ⟨(lt_div_iff₀ hpow).mpr h, (div_lt_iff₀ hpow).mpr h'⟩)
  have hbelow : m ≠ 2 * leastNormal := h.1.ne
  rw [round, if_neg hnum.ne']
  simp only [hexp, hrounded, if_neg hbelow, dif_pos h]

/-- A quotient just below a power of two is rounded to it. -/
theorem round_of_power {num den : Nat} (negative : Bool) (h : Canonical leastNormal e)
    (hnum : 0 < num) (hden : 0 < den) (hexp : max (floorLog2 num den - 52) minExponent = e - 1)
    (hlo : (leastNormal - 1 / 4 : ℚ) * 2 ^ e ≤ num / den)
    (hhi : (num : ℚ) / den < leastNormal * 2 ^ e) :
    round negative num den = .finite negative leastNormal e h := by
  have hpow : (0 : ℚ) < 2 ^ (e - 1) := zpow_pos two_pos _
  rw [two_zpow_half e] at hlo hhi
  have hrounded := roundHalfEven_scaled num (n := 2 * leastNormal) (q := e - 1) hden
    ((le_div_iff₀ hpow).mpr (by push_cast; linarith))
    ((div_le_iff₀ hpow).mpr (by push_cast; linarith)) (.inl (by decide))
  rw [round, if_neg hnum.ne']
  simp only [hexp, hrounded, if_true, sub_add_cancel, dif_pos h]

/-- A number that rounds to another one that is not zero lies above zero. -/
theorem RoundsTo.pos (h : RoundsTo m e v) (hm : m ≠ 0) : 0 < v := by
  have hpow : (0 : ℚ) < 2 ^ (e - 2) := zpow_pos two_pos _
  have hbound : (0 : ℚ) < (Decimal.bounds m e).1 := by
    have : 0 < (Decimal.bounds m e).1 := by
      unfold Decimal.bounds
      split_ifs <;> dsimp only <;> omega
    exact_mod_cast this
  exact (mul_pos hbound hpow).trans_le h.bounds.1

/-- Only a number with an even significand is rounded to from its bounds. -/
theorem RoundsTo.tie (h : RoundsTo m e v) : m % 2 = 0 ∨
    (Decimal.bounds m e).1 * (2 : ℚ) ^ (e - 2) < v ∧ v < (Decimal.bounds m e).2 * 2 ^ (e - 2) := by
  unfold RoundsTo at h
  dsimp only at h
  split_ifs at h with heven
  · exact .inl heven
  · exact .inr h

/-- The order of magnitude of a quotient between the least normal number of an exponent and
the next power of two asks for that exponent; the least exponent is asked for below, too. -/
theorem max_floorLog2 {num den : Nat} (hnum : 0 < num) (hden : 0 < den) (hmin : minExponent ≤ e)
    (hlo : minExponent < e → (leastNormal : ℚ) * 2 ^ e ≤ num / den)
    (hhi : (num : ℚ) / den < 2 * leastNormal * 2 ^ e) :
    max (floorLog2 num den - 52) minExponent = e := by
  rw [mul_assoc, leastNormal_mul_zpow, ← zpow_one_add₀ two_ne_zero] at hhi
  have hlt := floorLog2_lt hnum hden hhi
  rcases hmin.eq_or_lt with heq | hless
  · omega
  · have hreached := hlo hless
    rw [leastNormal_mul_zpow] at hreached
    have hexp := floorLog2_eq hnum hden hreached
      (by rwa [show e + 52 + 1 = 1 + (e + 52) by omega])
    omega

/-- A quotient that rounds to a number is rounded to it. -/
theorem round_of_roundsTo {num den : Nat} (negative : Bool) (h : Canonical m e) (hm : m ≠ 0)
    (hden : 0 < den) (hv : RoundsTo m e (num / den)) :
    round negative num den = .finite negative m e h := by
  have hposd : (0 : ℚ) < den := by exact_mod_cast hden
  have hnum : 0 < num := by
    have hpos := hv.pos hm
    rw [div_pos_iff_of_pos_right hposd] at hpos
    exact_mod_cast hpos
  have hpow : (0 : ℚ) < 2 ^ e := zpow_pos two_pos e
  obtain ⟨hsmall, hmin, -, hnormal⟩ := id h
  have hbig : (1 : ℚ) ≤ leastNormal := by norm_num [leastNormal]
  obtain ⟨hlo, hhi⟩ := hv.bounds
  by_cases hnarrow : m = leastNormal ∧ minExponent < e
  · obtain ⟨rfl, he⟩ := hnarrow
    obtain ⟨hbelow, habove⟩ := bounds_leastNormal he
    rw [hbelow] at hlo
    rw [habove] at hhi
    rcases lt_or_ge ((num : ℚ) / den) (leastNormal * 2 ^ e) with hlt | hge
    · -- Below the power of two, the order of magnitude is that of the numbers below.
      refine round_of_power negative h hnum hden ?_ hlo hlt
      rw [two_zpow_half e] at hlo hlt
      refine max_floorLog2 hnum hden (by omega) (fun _ => ?_) (by linarith)
      nlinarith [zpow_pos (two_pos (α := ℚ)) (e - 1)]
    · refine round_of_exponent negative h hnum hden ?_ (by nlinarith) hhi (.inl (by decide))
      exact max_floorLog2 hnum hden hmin (fun _ => hge) (by nlinarith)
  · obtain ⟨hbelow, habove⟩ := bounds_eq hm hnarrow
    have htie := hv.tie
    rw [hbelow, habove] at htie
    rw [hbelow] at hlo
    rw [habove] at hhi
    refine round_of_exponent negative h hnum hden ?_ hlo hhi htie
    have hnext : (m : ℚ) + 1 ≤ 2 * leastNormal := by exact_mod_cast hsmall
    refine max_floorLog2 hnum hden hmin (fun he => ?_) (by nlinarith)
    have hover : leastNormal + 1 ≤ m := by
      have := hnormal.resolve_right he.ne'
      have hne : m ≠ leastNormal := fun heq => hnarrow ⟨heq, he⟩
      omega
    have hover' : (leastNormal : ℚ) + 1 ≤ m := by exact_mod_cast hover
    nlinarith

end PluginChain.Binary64
