import PluginChain.Json.Spelling
import PluginChain.Proofs.NumeralTexts
set_option autoImplicit false

/-!
# JSON numbers spell what they are written for

Both an integer and a finite float are written by the grammar of JSON: whole digits without
zeros in front of them, and for a float a fraction, an exponent, or both (`Scaled`).  An
integer is told from a float by that, and each is read as it was
(`Json.Spelling.number?_intChars`, `Json.Spelling.number?_floatChars`).
-/

namespace PluginChain

namespace Json.Spelling

open Numeral

/-! ## Numbers -/

/-- The digits of a number that is not zero begin with no zero. -/
theorem head?_toDigits_ne {n : Nat} (h : n ≠ 0) : (Nat.toDigits 10 n).head? ≠ some '0' := by
  induction n using Nat.strongRecOn with
  | ind n ih =>
    rcases Nat.lt_or_ge n 10 with hlt | hge
    · rw [Nat.toDigits_of_lt_base hlt, List.head?_cons, ne_eq, Option.some.injEq]
      intro hzero
      have hvalue := Nat.toNat_digitChar_of_lt_ten hlt
      rw [hzero] at hvalue
      have : '0'.toNat = 48 := rfl
      omega
    · rw [Nat.toDigits_of_base_le (by decide) hge,
        List.head?_append_of_ne_nil _ Nat.toDigits_ne_nil]
      exact ih (n / 10) (by omega) (by omega)

theorem isDigits_iff {s : List Char} : isDigits s = true ↔ s ≠ [] ∧ Digits s := by
  unfold isDigits Digits
  cases s <;> simp

/-- Digits that begin with no zero are those of a whole number. -/
theorem isWhole_of_head? {s : List Char} (hne : s ≠ []) (hs : Digits s) (h : s.head? ≠ some '0') :
    isWhole s = true := by
  unfold isWhole
  rw [isDigits_iff.mpr ⟨hne, hs⟩]
  simp [h]

/-- A fraction, with an exponent behind it or none, makes a float of whole digits. -/
theorem isScale_point {fs x : List Char} (hne : fs ≠ []) (hfs : Digits fs)
    (hx : x = [] ∨ isExponent x = true ∧ ∀ c ∈ x.head?, c.isDigit = false) :
    isScale ('.' :: (fs ++ x)) = true := by
  have hhead : ∀ c ∈ x.head?, c.isDigit = false := by
    rcases hx with rfl | hx
    · simp
    · exact hx.2
  obtain ⟨htake, hdrop⟩ := span_append hfs hhead
  rw [isScale, htake, hdrop, isDigits_iff.mpr ⟨hne, hfs⟩]
  rcases hx with rfl | hx
  · rfl
  · simp [hx.1]

/-- An exponent as it is written. -/
theorem isExponent_signed (e : Int) :
    isExponent ('e' :: (if e < 0 then '-' else '+') :: Nat.toDigits 10 e.natAbs) = true := by
  have hdigits := isDigits_iff.mpr ⟨Nat.toDigits_ne_nil, digits_toDigits e.natAbs⟩
  split_ifs
  · exact hdigits
  · exact hdigits

/-- Whether a text is whole digits and something that makes a float of them. -/
def Scaled (s : List Char) : Prop :=
  ∃ whole scale, s = whole ++ scale ∧ isWhole whole = true ∧ isScale scale = true

/-- What makes a float of digits begins with no digit. -/
theorem head?_of_isScale {s : List Char} (h : isScale s = true) :
    ∀ c ∈ s.head?, c.isDigit = false := by
  unfold isScale at h
  split at h
  · simp
  · unfold isExponent at h
    split at h
    · simp
    · simp
    · simp
    · simp
    · simp
    · simp
    · cases h

theorem scaled_positional {d : Decimal} (h : d.exponent < 0) (hd : d.digits ≠ 0) :
    Scaled d.positional := by
  obtain ⟨n, e⟩ := d
  have hds := digits_toDigits n
  have hne : Nat.toDigits 10 n ≠ [] := Nat.toDigits_ne_nil
  have hhead := head?_toDigits_ne hd
  unfold Decimal.positional Decimal.digitText
  dsimp only at h hhead ⊢
  rw [if_neg (not_le.mpr h)]
  generalize Nat.toDigits 10 n = ds at *
  split_ifs with hpoint
  · generalize hplace : (ds.length + e).toNat = place
    have htake : ds.take place ≠ [] := by
      rw [← List.length_pos_iff, List.length_take]
      omega
    have hdrop : ds.drop place ≠ [] := by
      rw [← List.length_pos_iff, List.length_drop]
      omega
    refine ⟨ds.take place, '.' :: ds.drop place, rfl, isWhole_of_head? htake ?_ ?_, ?_⟩
    · exact fun c hc => hds c (List.mem_of_mem_take hc)
    · rw [List.head?_take, if_neg (by omega)]
      exact hhead
    · rw [← List.append_nil (ds.drop place)]
      exact isScale_point hdrop (fun c hc => hds c (List.mem_of_mem_drop hc)) (.inl rfl)
  · generalize (-(ds.length + e)).toNat = places
    refine ⟨['0'], '.' :: (List.replicate places '0' ++ ds), rfl, rfl, ?_⟩
    rw [← List.append_nil (List.replicate places '0' ++ ds)]
    refine isScale_point (by simp [hne]) ?_ (.inl rfl)
    intro c hc
    exact (List.mem_append.mp hc).elim (digits_zeros _ c) (hds c)

theorem scaled_positional_whole {d : Decimal} (h : 0 ≤ d.exponent) (hd : d.digits ≠ 0) :
    Scaled (d.positional ++ ['.', '0']) := by
  have hne : Nat.toDigits 10 d.digits ≠ [] := Nat.toDigits_ne_nil
  unfold Decimal.positional Decimal.digitText
  dsimp only
  rw [if_pos h, if_neg hd]
  refine ⟨_, _, rfl, isWhole_of_head? (by simp [hne]) ?_ ?_, rfl⟩
  · intro c hc
    exact (List.mem_append.mp hc).elim (digits_toDigits _ c) (digits_zeros _ c)
  · rw [List.head?_append_of_ne_nil _ hne]
    exact head?_toDigits_ne hd

theorem scaled_scientific {d : Decimal} (hd : d.digits ≠ 0) : Scaled d.scientific := by
  have hds := digits_toDigits d.digits
  have hne : Nat.toDigits 10 d.digits ≠ [] := Nat.toDigits_ne_nil
  have hhead := head?_toDigits_ne hd
  unfold Decimal.scientific Decimal.digitText
  dsimp only
  generalize Nat.toDigits 10 d.digits = ds at *
  cases ds with
  | nil => exact absurd rfl hne
  | cons c cs =>
    have hfirst : Digits [c] := by
      intro x hx
      rw [List.mem_singleton.mp hx]
      exact hds c List.mem_cons_self
    have hwhole := isWhole_of_head? (by simp) hfirst hhead
    cases cs with
    | nil => exact ⟨[c], _, rfl, hwhole, isExponent_signed _⟩
    | cons c' cs =>
      refine ⟨[c], '.' :: (c' :: cs ++ 'e' :: _), rfl, hwhole, isScale_point (by simp) ?_ ?_⟩
      · exact fun x hx => hds x (List.mem_cons_of_mem c hx)
      · exact .inr ⟨isExponent_signed _, by simp⟩

theorem scaled_magnitudeChars (d : Decimal) : Scaled (magnitudeChars d) := by
  unfold magnitudeChars
  dsimp only
  split_ifs with hzero hwhole hpoint
  · exact ⟨['0'], ['.', '0'], rfl, rfl, rfl⟩
  · exact scaled_positional_whole hwhole.1 hzero
  · exact scaled_positional (by omega) hzero
  · exact scaled_scientific hzero

/-- A minus sign in front of digits is told from them. -/
theorem splitMinus_digits {s : List Char} (h : ∀ c ∈ s.head?, c.isDigit = true) (negative : Bool) :
    splitMinus ((if negative then ['-'] else []) ++ s) = (negative, s) := by
  cases negative with
  | true => rfl
  | false =>
    unfold splitMinus
    split
    · next rest heq =>
      have heq' : s = '-' :: rest := heq
      have hminus := h '-' (by simp [heq'])
      cases hminus
    · rfl

/-- Whole digits begin with a digit, and are digits. -/
theorem digits_of_isWhole {s : List Char} (h : isWhole s = true) :
    Digits s ∧ ∃ c rest, s = c :: rest ∧ c.isDigit = true := by
  obtain ⟨hne, hdigits⟩ := isDigits_iff.mp (Bool.and_eq_true_iff.mp h).1
  cases s with
  | nil => exact absurd rfl hne
  | cons c rest => exact ⟨hdigits, c, rest, rfl, hdigits c List.mem_cons_self⟩

/-- A finite float as a JSON number is read as that float. -/
theorem float?_floatChars {x : Binary64} (h : x.isFinite = true) :
    float? (floatChars x) = some x := by
  cases x with
  | finite negative m e canonical =>
    obtain ⟨whole, scale, hchars, hwhole, -⟩ := scaled_magnitudeChars (Decimal.shortest m e)
    obtain ⟨-, c, rest, rfl, hc⟩ := digits_of_isWhole hwhole
    obtain ⟨d, hd, hvalue⟩ := decimal?_magnitudeChars (Decimal.shortest m e)
    rw [floatChars, hchars, List.cons_append, float?_of_digit hc, ← List.cons_append, ← hchars, hd,
      Option.map_some, Decimal.value_of_toRat_eq negative canonical hvalue]
  | infinite _ => cases h
  | nan => cases h

/-- A finite float as a JSON number spells that float. -/
theorem number?_floatChars {x : Binary64} (h : x.isFinite = true) :
    number? (floatChars x) = some (.float x) := by
  have hread := float?_floatChars h
  cases x with
  | finite negative m e canonical =>
    obtain ⟨whole, scale, hchars, hwhole, hscale⟩ := scaled_magnitudeChars (Decimal.shortest m e)
    obtain ⟨hdigits, c, rest, hcons, hc⟩ := digits_of_isWhole hwhole
    obtain ⟨htake, hdrop⟩ := span_append hdigits (head?_of_isScale hscale)
    have hne : scale ≠ [] := by
      rintro rfl
      cases hscale
    have hhead : ∀ c ∈ (whole ++ scale).head?, c.isDigit = true := by
      rw [hcons]
      simpa using hc
    unfold number?
    rw [hread, floatChars, hchars, splitMinus_digits hhead]
    simp [htake, hdrop, hwhole, hscale, hne]
  | infinite _ => cases h
  | nan => cases h

/-- An integer in decimal digits spells that integer. -/
theorem number?_intChars (n : Int) : number? (intChars n) = some (.int n) := by
  have hdigits := digits_toDigits n.natAbs
  have hwhole : isWhole (Nat.toDigits 10 n.natAbs) = true := by
    by_cases hzero : n.natAbs = 0
    · rw [hzero]
      rfl
    · exact isWhole_of_head? Nat.toDigits_ne_nil hdigits (head?_toDigits_ne hzero)
  obtain ⟨-, c, rest, hcons, hc⟩ := digits_of_isWhole hwhole
  have hhead : ∀ c ∈ (Nat.toDigits 10 n.natAbs).head?, c.isDigit = true := by
    rw [hcons]
    simpa using hc
  obtain ⟨htake, hdrop⟩ := span_append (r := []) hdigits (by simp)
  rw [List.append_nil] at htake hdrop
  have hchars : intChars n =
      (if decide (n < 0) then ['-'] else []) ++ Nat.toDigits 10 n.natAbs := by
    unfold intChars
    by_cases hneg : n < 0
    · rw [if_pos hneg, if_pos (decide_eq_true hneg)]
      rfl
    · rw [if_neg hneg, if_neg (by simpa using hneg)]
      rfl
  have hvalue : (if decide (n < 0) then -(n.natAbs : Int) else n.natAbs) = n := by
    by_cases hneg : n < 0
    · rw [if_pos (decide_eq_true hneg)]
      omega
    · rw [if_neg (by simpa using hneg)]
      omega
  unfold number?
  rw [hchars, splitMinus_digits hhead]
  simp only [htake, hdrop, hwhole, ofDigits_toDigits, hvalue]
  rfl

end Json.Spelling
end PluginChain
