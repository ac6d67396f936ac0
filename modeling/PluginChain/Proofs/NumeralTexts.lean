import PluginChain.Json.Text
import PluginChain.Number.Numeral
import PluginChain.Proofs.ShortestNumeral
set_option autoImplicit false

/-!
# Numbers written out and read back

The digits of a natural spell it, and so does an integer of 64 bits.  A numeral in plain or in
scientific notation is read with its own digits and exponent, or with zeros added to both
(`Numeral.decimal?_magnitudeChars`), so that it stands for the same number.
-/

namespace PluginChain

/-- Digits have no case. -/
theorem toLower_of_isDigit {c : Char} (h : c.isDigit = true) : c.toLower = c := by
  rw [Char.isDigit, Bool.and_eq_true, decide_eq_true_eq, decide_eq_true_eq] at h
  unfold Char.toLower
  split_ifs with hupper
  · exfalso
    have hle : c.val.toNat ≤ 57 := h.2
    have hge : 65 ≤ c.val.toNat := hupper.1
    omega
  · rfl

namespace Numeral

/-! ## Digits -/

theorem ofDigits_append (xs ys : List Char) :
    ofDigits (xs ++ ys) = 10 ^ ys.length * ofDigits xs + ofDigits ys := by
  have h (l : List Char) : ofDigits l = Nat.ofDigitChars 10 l 0 := Nat.ofDigitChars_eq_foldl.symm
  have hinit : Nat.ofDigitChars 10 ys (ofDigits xs) =
      10 ^ ys.length * ofDigits xs + ofDigits ys := by
    rw [Nat.ofDigitChars_eq_ofDigitChars_zero, h ys]
  unfold ofDigits at hinit ⊢
  rw [List.foldl_append, ← hinit, Nat.ofDigitChars_eq_foldl]
  rfl

/-- A zero in front of digits adds nothing. -/
theorem ofDigits_zero_cons (s : List Char) : ofDigits ('0' :: s) = ofDigits s := rfl

theorem ofDigits_replicate_zero (n : Nat) : ofDigits (List.replicate n '0') = 0 := by
  induction n with
  | zero => rfl
  | succ n ih =>
    rw [List.replicate_succ', ofDigits_append, ih]
    rfl

theorem ofDigits_toDigits (n : Nat) : ofDigits (Nat.toDigits 10 n) = n := by
  have h := Nat.ofDigitChars_toDigits (b := 10) (n := n) (by decide) (by decide)
  rw [Nat.ofDigitChars_eq_foldl] at h
  exact h

/-- Whether a text is made of digits only. -/
def Digits (s : List Char) : Prop := ∀ c ∈ s, c.isDigit = true

theorem digits_toDigits (n : Nat) : Digits (Nat.toDigits 10 n) :=
  fun _ hc => Nat.isDigit_of_mem_toDigits (by decide) (by decide) hc

theorem digits_zeros (n : Nat) : Digits (List.replicate n '0') := by
  intro c hc
  rw [List.eq_of_mem_replicate hc]
  rfl

/-- The digits of a number spell it. -/
theorem natural?_toDigits (n : Nat) : natural? (Nat.toDigits 10 n) = some n := by
  have hdigits : (Nat.toDigits 10 n).all Char.isDigit = true :=
    List.all_eq_true.mpr (digits_toDigits n)
  unfold natural?
  rw [hdigits, ofDigits_toDigits, List.isEmpty_eq_false_iff.mpr Nat.toDigits_ne_nil]
  rfl

/-- An integer in decimal digits is a minus sign, if it is below zero, and the digits of
its size. -/
theorem toList_toString (n : Int) :
    (toString n).toList =
      if n < 0 then '-' :: Nat.toDigits 10 n.natAbs else Nat.toDigits 10 n.natAbs := by
  cases n with
  | ofNat m =>
    have hm : toString (Int.ofNat m) = toString m := rfl
    have hsign : ¬ Int.ofNat m < 0 := Int.not_lt.mpr (Int.natCast_nonneg m)
    rw [hm, Nat.toString_eq_ofList_toDigits, String.toList_ofList, if_neg hsign]
    rfl
  | negSucc m =>
    have hm : toString (Int.negSucc m) = "-" ++ toString (m + 1) := rfl
    rw [hm, String.toList_append, Nat.toString_eq_ofList_toDigits,
      String.toList_ofList (l := Nat.toDigits 10 (m + 1)), if_pos (Int.negSucc_lt_zero m)]
    rfl

/-- Digits begin with no sign. -/
theorem splitSign_toDigits (n : Nat) :
    splitSign (Nat.toDigits 10 n) = (false, Nat.toDigits 10 n) := by
  have hdigits := digits_toDigits n
  unfold splitSign
  split
  · next rest heq =>
    have h := hdigits '-' (by rw [heq]; exact List.mem_cons_self)
    exact absurd h (by decide)
  · next rest heq =>
    have h := hdigits '+' (by rw [heq]; exact List.mem_cons_self)
    exact absurd h (by decide)
  · rfl

/-- An integer of 64 bits in decimal digits spells that integer. -/
theorem int64?_toString {n : Int} (h : minInt64 ≤ n ∧ n ≤ maxInt64) :
    int64? (toString n).toList = some n := by
  unfold int64?
  rw [toList_toString]
  split_ifs with hneg
  · have hsize : -(n.natAbs : Int) = n := by omega
    simp only [splitSign, natural?_toDigits, if_true, hsize, inInt64?, if_pos h]
  · have hsize : (n.natAbs : Int) = n := by omega
    simp only [splitSign_toDigits, natural?_toDigits, Bool.false_eq_true, if_false, hsize, inInt64?,
      if_pos h]

/-! ## Decimal numerals -/

/-- A class of characters ends where a character outside it stands. -/
theorem span_append {p : Char → Bool} {s r : List Char} (hs : ∀ c ∈ s, p c = true)
    (hr : ∀ c ∈ r.head?, p c = false) :
    (s ++ r).takeWhile p = s ∧ (s ++ r).dropWhile p = r := by
  have hnone : r.takeWhile p = [] ∧ r.dropWhile p = r := by
    cases r with
    | nil => exact ⟨rfl, rfl⟩
    | cons c rest =>
      have hc := hr c (by simp)
      simp [hc]
  rw [List.takeWhile_append_of_pos hs, List.dropWhile_append_of_pos hs, hnone.1, hnone.2,
    List.append_nil]
  exact ⟨rfl, rfl⟩

/-- A numeral without a point. -/
theorem decimal?_whole {ds x : List Char} (hds : Digits ds) (hne : ds ≠ [])
    (hx : ∀ c ∈ x.head?, c.isDigit = false ∧ c ≠ '.') :
    decimal? (ds ++ x) = (exponent? x).map fun e => ⟨ofDigits ds, e⟩ := by
  obtain ⟨htake, hdrop⟩ := span_append hds fun c hc => (hx c hc).1
  have hpoint : splitFraction x = ([], x) := by
    unfold splitFraction
    split
    · exact absurd rfl (hx '.' (by simp)).2
    · rfl
  unfold decimal?
  simp [htake, hdrop, hpoint, hne]

/-- A numeral with digits before and behind its point. -/
theorem decimal?_point {w f x : List Char} (hw : Digits w) (hne : w ≠ []) (hf : Digits f)
    (hx : ∀ c ∈ x.head?, c.isDigit = false) :
    decimal? (w ++ '.' :: (f ++ x)) =
      (exponent? x).map fun e => ⟨ofDigits (w ++ f), e - f.length⟩ := by
  obtain ⟨htake, hdrop⟩ := span_append (r := '.' :: (f ++ x)) hw (by simp)
  obtain ⟨htake', hdrop'⟩ := span_append hf hx
  unfold decimal?
  simp [htake, hdrop, splitFraction, htake', hdrop', hne]

/-- An exponent as it is written. -/
theorem exponent?_signed (e : Int) :
    exponent? ('e' :: (if e < 0 then '-' else '+') :: Nat.toDigits 10 e.natAbs) = some e := by
  rw [exponent?, if_pos (show 'e' = 'e' ∨ 'e' = 'E' from .inl rfl)]
  split_ifs with hneg
  · rw [splitSign]
    dsimp only
    rw [natural?_toDigits]
    show some (-(e.natAbs : Int)) = some e
    rw [Option.some.injEq]
    omega
  · rw [splitSign]
    dsimp only
    rw [natural?_toDigits]
    show some (e.natAbs : Int) = some e
    rw [Option.some.injEq]
    omega

end Numeral

namespace Decimal

theorem toRat_eq_of_shift {d d' : Decimal} (n : Nat) (hdigits : d'.digits = d.digits * 10 ^ n)
    (hexponent : d'.exponent = d.exponent - n) : d'.toRat = d.toRat := by
  unfold toRat
  rw [hdigits, hexponent, zpow_sub₀ (by norm_num), zpow_natCast]
  push_cast
  rw [mul_assoc, mul_div_assoc', mul_div_cancel_left₀ _ (by positivity)]

end Decimal

namespace Numeral

/-- Plain notation with a point in front of the last digits. -/
theorem decimal?_positional {d : Decimal} (h : d.exponent < 0) :
    decimal? d.positional = some d := by
  obtain ⟨n, e⟩ := d
  have hds := digits_toDigits n
  have hne : Nat.toDigits 10 n ≠ [] := Nat.toDigits_ne_nil
  have hvalue := ofDigits_toDigits n
  unfold Decimal.positional Decimal.digitText
  dsimp only at h ⊢
  rw [if_neg (not_le.mpr h)]
  generalize Nat.toDigits 10 n = ds at *
  split_ifs with hpoint
  · generalize hplace : (ds.length + e).toNat = place
    have htake : ds.take place ≠ [] := by
      rw [← List.length_pos_iff, List.length_take, ← hplace]
      have := List.length_pos_iff.mpr hne
      omega
    have hread := decimal?_point (w := ds.take place) (f := ds.drop place) (x := [])
      (fun c hc => hds c (List.mem_of_mem_take hc)) htake
      (fun c hc => hds c (List.mem_of_mem_drop hc)) (by simp)
    rw [List.append_nil] at hread
    rw [hread, List.take_append_drop, hvalue, List.length_drop, exponent?, Option.map_some,
      Option.some.injEq, Decimal.mk.injEq]
    exact ⟨rfl, by omega⟩
  · generalize hplaces : (-(ds.length + e)).toNat = places
    have hzeros : Digits (List.replicate places '0' ++ ds) := by
      intro c hc
      exact (List.mem_append.mp hc).elim (digits_zeros _ c) (hds c)
    have hread := decimal?_point (w := ['0']) (x := []) (by simp [Digits]) (by simp) hzeros
      (by simp)
    rw [List.append_nil, List.singleton_append, List.singleton_append] at hread
    rw [hread, ofDigits_zero_cons, ofDigits_append, hvalue, ofDigits_replicate_zero, Nat.mul_zero,
      Nat.zero_add, List.length_append, List.length_replicate, exponent?, Option.map_some,
      Option.some.injEq, Decimal.mk.injEq]
    exact ⟨rfl, by omega⟩

/-- Plain notation of a whole number, with a zero behind the point. -/
theorem decimal?_positional_whole {d : Decimal} (h : 0 ≤ d.exponent) (hd : d.digits ≠ 0) :
    ∃ d', decimal? (d.positional ++ ['.', '0']) = some d' ∧ d'.toRat = d.toRat := by
  obtain ⟨n, e⟩ := d
  obtain ⟨places, rfl⟩ := Int.eq_ofNat_of_zero_le h
  have hdigits : Digits (Nat.toDigits 10 n ++ List.replicate places '0') := by
    intro c hc
    exact (List.mem_append.mp hc).elim (digits_toDigits n c) (digits_zeros _ c)
  have hread := decimal?_point (f := ['0']) (x := []) hdigits
    (by simp [Nat.toDigits_ne_nil]) (by simp [Digits]) (by simp)
  refine ⟨⟨ofDigits (Nat.toDigits 10 n ++ List.replicate places '0' ++ ['0']), 0 - 1⟩, ?_,
    Decimal.toRat_eq_of_shift (places + 1) ?_ ?_⟩
  · unfold Decimal.positional Decimal.digitText
    dsimp only
    rw [if_pos h, if_neg hd]
    exact hread
  · dsimp only
    rw [List.append_assoc, ← List.replicate_succ', ofDigits_append, ofDigits_toDigits,
      ofDigits_replicate_zero, List.length_replicate, Nat.mul_comm, Nat.add_zero]
  · dsimp only
    omega

/-- Scientific notation. -/
theorem decimal?_scientific (d : Decimal) : decimal? d.scientific = some d := by
  obtain ⟨n, e⟩ := d
  have hds := digits_toDigits n
  have hne : Nat.toDigits 10 n ≠ [] := Nat.toDigits_ne_nil
  have hvalue := ofDigits_toDigits n
  unfold Decimal.scientific Decimal.digitText
  dsimp only
  generalize Nat.toDigits 10 n = ds at hds hne hvalue ⊢
  have hmark (x : List Char) : ∀ c ∈ ('e' :: x).head?, c.isDigit = false ∧ c ≠ '.' := by simp
  cases ds with
  | nil => exact absurd rfl hne
  | cons c cs =>
    cases cs with
    | nil =>
      rw [Decimal.pointed, decimal?_whole hds hne (hmark _), exponent?_signed, Option.map_some,
        hvalue, Option.some.injEq, Decimal.mk.injEq]
      exact ⟨rfl, by simp⟩
    | cons c' cs =>
      have hfirst : Digits [c] := by
        intro x hx
        rw [List.mem_singleton.mp hx]
        exact hds c List.mem_cons_self
      have hothers : Digits (c' :: cs) := fun x hx => hds x (List.mem_cons_of_mem c hx)
      have hread (x : List Char) := decimal?_point (x := 'e' :: x) hfirst (by simp) hothers
        fun c hc => (hmark _ c hc).1
      have hlead : Decimal.pointed (c :: c' :: cs) = c :: '.' :: c' :: cs := rfl
      rw [hlead]
      refine (hread _).trans ?_
      rw [exponent?_signed, Option.map_some, List.singleton_append, hvalue, Option.some.injEq,
        Decimal.mk.injEq]
      refine ⟨rfl, ?_⟩
      simp only [List.length_cons]
      omega

open Json in
/-- The digits of a float spell it. -/
theorem decimal?_magnitudeChars (d : Decimal) :
    ∃ d', decimal? (magnitudeChars d) = some d' ∧ d'.toRat = d.toRat := by
  unfold magnitudeChars
  dsimp only
  split_ifs with hzero hwhole hpoint
  · refine ⟨⟨0, -1⟩, rfl, ?_⟩
    simp [Decimal.toRat, hzero]
  · exact decimal?_positional_whole hwhole.1 hzero
  · exact ⟨d, decimal?_positional (by omega), rfl⟩
  · exact ⟨d, decimal?_scientific d, rfl⟩

/-! ## Floats -/

/-- What begins with a digit is the name of no number. -/
theorem ofList_toLower_ne {c : Char} {s : List Char} (hc : c.isDigit = true) {word : String}
    (hword : word.toList.head?.any Char.isDigit = false) :
    String.ofList ((c :: s).map Char.toLower) ≠ word := by
  rintro rfl
  rw [String.toList_ofList, List.map_cons, List.head?_cons, Option.any_some,
    toLower_of_isDigit hc, hc] at hword
  cases hword

/-- A text that begins with a digit is read as a numeral. -/
theorem float?_of_digit {c : Char} {s : List Char} (hc : c.isDigit = true) (negative : Bool) :
    float? ((if negative then ['-'] else []) ++ c :: s) =
      (decimal? (c :: s)).map (Decimal.value negative) := by
  have hsplit : splitSign ((if negative then ['-'] else []) ++ c :: s) = (negative, c :: s) := by
    cases negative with
    | true => rfl
    | false =>
      unfold splitSign
      split
      · next rest heq =>
        cases heq
        cases hc
      · next rest heq =>
        cases heq
        cases hc
      · rfl
  unfold float?
  rw [hsplit]
  dsimp only
  rw [if_neg (not_or.mpr ⟨ofList_toLower_ne hc rfl, ofList_toLower_ne hc rfl⟩),
    if_neg (ofList_toLower_ne hc rfl)]

end Numeral

end PluginChain
