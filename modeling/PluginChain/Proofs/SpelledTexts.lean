import PluginChain.Proofs.SpelledNumbers
set_option autoImplicit false

/-!
# JSON texts spell what they are written for

A reader reads something from a text if it does so whatever stands behind the text and ends
it (`Spelling.Reads`).  Strings, words, lists and objects are each read in this sense from the
way in which they are written, with blank space where a layout has some.  So a value with
finite floats is spelled by its text without blanks and by its text over several lines
(`spelled?_compact`, `spelled?_compact_line`, `spelled?_pretty_line`).
-/

namespace PluginChain.Json

namespace Spelling

/-! ## Strings -/

theorem unicode?_control {c : Char} (h : c.toNat < 0x20) :
    unicode? '0' '0' (hexDigit (c.toNat / 16)) (hexDigit (c.toNat % 16)) = some c := by
  have hall : ∀ n < 0x20, unicode? '0' '0' (hexDigit (n / 16)) (hexDigit (n % 16)) =
      some (Char.ofNat n) := by decide
  rw [hall _ h, Char.ofNat_toNat]

/-- A character as it is written is read as that character. -/
theorem string?_escapeChar (c : Char) (rest : List Char) :
    string? (escapeChar c ++ rest) = (string? rest).map fun p => (c :: p.1, p.2) := by
  unfold escapeChar
  split_ifs with hquote hbackslash hb ht hn hf hr hcontrol
  · subst hquote
    rfl
  · subst hbackslash
    rfl
  · obtain rfl : c = Char.ofNat 8 := by rw [← hb, Char.ofNat_toNat]
    rfl
  · subst ht
    rfl
  · subst hn
    rfl
  · obtain rfl : c = Char.ofNat 12 := by rw [← hf, Char.ofNat_toNat]
    rfl
  · subst hr
    rfl
  · simp only [List.cons_append, List.nil_append]
    rw [string?, unicode?_control hcontrol]
    rfl
  · rw [List.singleton_append, string?.eq_def]
    split
    · next heq => cases heq
    · next heq =>
      cases heq
      exact absurd rfl hquote
    · next heq =>
      cases heq
      exact absurd rfl hbackslash
    · next heq =>
      cases heq
      exact absurd rfl hbackslash
    · next heq =>
      cases heq
      rw [if_neg (not_or.mpr ⟨hbackslash, hcontrol⟩)]

/-- A string between its quotes is read as that string. -/
theorem string?_escaped (s rest : List Char) :
    string? (s.flatMap escapeChar ++ '"' :: rest) = some (s, rest) := by
  induction s with
  | nil => rfl
  | cons c s ih =>
    rw [List.flatMap_cons, List.append_assoc, string?_escapeChar, ih]
    rfl

/-! ## What a reader gives -/

/-- Whether a text ends every word that stands in front of it. -/
def Ends (rest : List Char) : Prop := ∀ c ∈ rest.head?, isWordChar c = false

/-- Whether a reader with enough fuel reads something from a text, whatever stands behind it
and ends it. -/
def Reads {α : Type} (reader : Nat → Reader α) (a : α) (text : List Char) : Prop :=
  ∀ fuel rest, text.length ≤ fuel → Ends rest → reader fuel (text ++ rest) = some (a, rest)

/-- Whether characters are blank space. -/
def Blank (s : List Char) : Prop := ∀ c ∈ s, Cursor.isBlank c = true

theorem afterBlanks_append {blanks : List Char} (h : Blank blanks) (s : List Char) :
    afterBlanks (blanks ++ s) = afterBlanks s :=
  List.dropWhile_append_of_pos h

theorem afterBlanks_cons {c : Char} (h : Cursor.isBlank c = false) (s : List Char) :
    afterBlanks (c :: s) = c :: s := by
  rw [afterBlanks, List.dropWhile_cons_of_neg (by simp [h])]

theorem behind?_cons {c : Char} (h : Cursor.isBlank c = false) (s : List Char) :
    behind? c (c :: s) = some s := by
  rw [behind?, afterBlanks_cons h]
  exact if_pos rfl

theorem behind?_append {c : Char} {blanks : List Char} (hblanks : Blank blanks)
    (h : Cursor.isBlank c = false) (s : List Char) : behind? c (blanks ++ c :: s) = some s := by
  rw [behind?, afterBlanks_append hblanks, afterBlanks_cons h]
  exact if_pos rfl

section

variable {v : Json} {text blanks : List Char}

/-- Blank space in front of a value is passed over. -/
theorem reads_value_of_blanks (hblanks : Blank blanks) (h : Reads value? v text) :
    Reads value? v (blanks ++ text) := by
  intro fuel rest hfuel hrest
  rw [List.length_append] at hfuel
  cases fuel with
  | zero => exact absurd (h 0 rest (by omega) hrest) nofun
  | succ fuel =>
    rw [← h (fuel + 1) rest (by omega) hrest, List.append_assoc, value?, afterBlanks_append hblanks,
      value?]

/-- No character of a word is blank space, a quote or an opening bracket. -/
theorem isBlank_of_isWordChar {c : Char} (h : isWordChar c = true) : Cursor.isBlank c = false := by
  cases hblank : Cursor.isBlank c with
  | false => rfl
  | true =>
    unfold Cursor.isBlank at hblank
    simp only [Bool.or_eq_true, decide_eq_true_eq] at hblank
    rcases hblank with ((rfl | rfl) | rfl) | rfl <;> cases h

/-- A word or a number is read up to its end. -/
theorem reads_word {token : List Char} (hne : token ≠ [])
    (htoken : ∀ c ∈ token, isWordChar c = true) (h : word? token = some v) :
    Reads value? v token := by
  intro fuel rest hfuel hrest
  obtain ⟨htake, hdrop⟩ := Numeral.span_append htoken hrest
  cases token with
  | nil => exact absurd rfl hne
  | cons c others =>
    have hc := htoken c List.mem_cons_self
    cases fuel with
    | zero => exact absurd hfuel (by simp)
    | succ fuel =>
      rw [value?, List.cons_append, afterBlanks_cons (isBlank_of_isWordChar hc), ← List.cons_append]
      split
      · next heq =>
        cases heq
        cases hc
      · next heq =>
        cases heq
        cases hc
      · next heq =>
        cases heq
        cases hc
      · rw [htake, hdrop, h]
        rfl

/-- A value begins with a quote, a bracket or a brace, if it is no word. -/
theorem value?_quote (fuel : Nat) (rest : List Char) :
    value? (fuel + 1) ('"' :: rest) =
      (string? rest).map fun p => (.str (String.ofList p.1), p.2) := rfl

theorem value?_bracket (fuel : Nat) (rest : List Char) :
    value? (fuel + 1) ('[' :: rest) =
      (group? ']' (value? fuel) fuel rest).map fun p => (.arr p.1, p.2) := rfl

theorem value?_brace (fuel : Nat) (rest : List Char) :
    value? (fuel + 1) ('\x7b' :: rest) =
      (group? '\x7d' (member? (value? fuel)) fuel rest).map fun p => (.obj p.1, p.2) := rfl

/-- A string between its quotes is read as that string. -/
theorem reads_string (s : String) : Reads value? (.str s) (quoteChars s) := by
  intro fuel rest hfuel _
  cases fuel with
  | zero => exact absurd hfuel (by simp [quoteChars])
  | succ fuel =>
    rw [quoteChars, List.cons_append, List.cons_append, List.append_assoc, List.singleton_append,
      value?_quote, string?_escaped, Option.map_some, String.ofList_toList]

/-! ## Lists and objects -/

variable {α : Type} {close : Char} {item : Nat → Reader α} {a : α} {others : List α}
  {body : List Char}

/-- Whether the series behind an opening bracket is read from a text that the closing
bracket ends. -/
def ReadsSeries (close : Char) (item : Nat → Reader α) (things : List α) (body : List Char) :
    Prop :=
  ∀ depth fuel rest, body.length ≤ depth → body.length < fuel →
    series? close (item depth) fuel (body ++ close :: rest) = some (things, rest)

theorem ends_of_blank (hblanks : Blank blanks) {c : Char} (hc : isWordChar c = false)
    (rest : List Char) : Ends (blanks ++ c :: rest) := by
  cases blanks with
  | nil => simpa [Ends] using hc
  | cons b blanks =>
    have hb := hblanks b List.mem_cons_self
    have hword : isWordChar b = false := by
      cases hword : isWordChar b with
      | false => rfl
      | true =>
        rw [isBlank_of_isWordChar hword] at hb
        cases hb
    simpa [Ends] using hword

/-- The last thing of a series, with blank space behind it. -/
theorem readsSeries_single (hword : isWordChar close = false)
    (hclose : Cursor.isBlank close = false) (h : Reads item a text) (hblanks : Blank blanks) :
    ReadsSeries close item [a] (text ++ blanks) := by
  intro depth fuel rest hdepth hfuel
  rw [List.length_append] at hdepth hfuel
  cases fuel with
  | zero => exact absurd hfuel (Nat.not_lt_zero _)
  | succ fuel =>
    rw [series?, List.append_assoc, h depth _ (by omega) (ends_of_blank hblanks hword rest)]
    dsimp only
    rw [afterBlanks_append hblanks, afterBlanks_cons hclose]
    dsimp only
    rw [if_pos rfl]

/-- One more thing and a comma in front of a series. -/
theorem readsSeries_cons (hclose : close ≠ ',') (h : Reads item a text)
    (hothers : ReadsSeries close item others body) :
    ReadsSeries close item (a :: others) (text ++ ',' :: body) := by
  intro depth fuel rest hdepth hfuel
  rw [List.length_append, List.length_cons] at hdepth hfuel
  cases fuel with
  | zero => exact absurd hfuel (Nat.not_lt_zero _)
  | succ fuel =>
    have hends : Ends (',' :: (body ++ close :: rest)) := by
      intro c hc
      cases hc
      rfl
    rw [series?, List.append_assoc, List.cons_append, h depth _ (by omega) hends]
    dsimp only
    rw [afterBlanks_cons rfl]
    dsimp only
    rw [if_neg (Ne.symm hclose), if_pos rfl, hothers depth fuel rest (by omega) (by omega),
      Option.map_some]

/-- A series is read between its brackets, as nothing of it begins with the closing one. -/
theorem group?_of_readsSeries
    (hstop : ∀ depth s, (∀ c ∈ (afterBlanks s).head?, c = close) → item depth s = none)
    (h : ReadsSeries close item others body) (depth fuel : Nat) (rest : List Char)
    (hdepth : body.length ≤ depth) (hfuel : body.length < fuel) :
    group? close (item depth) fuel (body ++ close :: rest) = some (others, rest) := by
  have hread := h depth fuel rest hdepth hfuel
  have hsome : item depth (body ++ close :: rest) ≠ none := by
    intro hnone
    cases fuel with
    | zero => exact absurd hfuel (Nat.not_lt_zero _)
    | succ fuel =>
      rw [series?, hnone] at hread
      cases hread
  unfold group?
  split
  · next heq => exact absurd (hstop depth _ (by simp [heq])) hsome
  · next c behind heq =>
    have hne : c ≠ close := by
      rintro rfl
      exact hsome (hstop depth _ (by simp [heq]))
    rw [if_neg hne]
    exact hread

/-- No value begins with a closing bracket. -/
theorem value?_eq_none (depth : Nat) (s : List Char)
    (h : ∀ c ∈ (afterBlanks s).head?, c = ']') : value? depth s = none := by
  cases depth with
  | zero => rfl
  | succ depth =>
    rw [value?]
    cases hs : afterBlanks s with
    | nil => rfl
    | cons c rest =>
      obtain rfl : c = ']' := h c (by simp [hs])
      rfl

/-- No member begins with a closing brace. -/
theorem member?_eq_none (value : Reader Json) (s : List Char)
    (h : ∀ c ∈ (afterBlanks s).head?, c = '\x7d') : member? value s = none := by
  have hquote : behind? '"' s = none := by
    unfold behind?
    cases hs : afterBlanks s with
    | nil => rfl
    | cons c rest =>
      obtain rfl : c = '\x7d' := h c (by simp [hs])
      rfl
  rw [member?, hquote, Option.bind_none]

/-- Elements are read as a list between brackets. -/
theorem reads_arr {items : List Json} (h : ReadsSeries ']' value? items body) :
    Reads value? (.arr items) ('[' :: body ++ [']']) := by
  intro fuel rest hfuel _
  rw [List.length_append, List.length_cons, List.length_singleton] at hfuel
  cases fuel with
  | zero => omega
  | succ fuel =>
    rw [List.cons_append, List.cons_append, List.append_assoc, List.singleton_append,
      value?_bracket, group?_of_readsSeries value?_eq_none h _ _ rest (by omega) (by omega),
      Option.map_some]

theorem reads_arr_nil : Reads value? (.arr []) ['[', ']'] := by
  intro fuel rest hfuel _
  cases fuel with
  | zero => simp at hfuel
  | succ fuel => rfl

theorem reads_obj_nil : Reads value? (.obj []) ['\x7b', '\x7d'] := by
  intro fuel rest hfuel _
  cases fuel with
  | zero => simp at hfuel
  | succ fuel => rfl

/-- Members are read as an object between braces. -/
theorem reads_obj {fields : List (String × Json)}
    (h : ReadsSeries '\x7d' (fun depth => member? (value? depth)) fields body) :
    Reads value? (.obj fields) ('\x7b' :: body ++ ['\x7d']) := by
  intro fuel rest hfuel _
  rw [List.length_append, List.length_cons, List.length_singleton] at hfuel
  cases fuel with
  | zero => omega
  | succ fuel =>
    have hgroup := group?_of_readsSeries (fun depth => member?_eq_none (value? depth)) h
      fuel fuel rest (by omega) (by omega)
    rw [List.cons_append, List.cons_append, List.append_assoc, List.singleton_append,
      value?_brace, hgroup, Option.map_some]

/-- A member is read from its name, a colon and its value. -/
theorem reads_member (name : String) (hblanks : Blank blanks) (h : Reads value? v text) :
    Reads (fun depth => member? (value? depth)) (name, v)
      (blanks ++ (quoteChars name ++ ':' :: text)) := by
  intro fuel rest hfuel hrest
  have hlength : text.length ≤ fuel := by
    simp only [List.length_append, List.length_cons] at hfuel
    omega
  have htext : blanks ++ (quoteChars name ++ ':' :: text) ++ rest =
      blanks ++ '"' :: (name.toList.flatMap escapeChar ++ '"' :: ':' :: (text ++ rest)) := by
    simp [quoteChars]
  show member? (value? fuel) _ = _
  rw [htext, member?, behind?_append hblanks rfl, Option.bind_some, string?_escaped,
    Option.bind_some]
  dsimp only
  rw [behind?_cons rfl, Option.bind_some, h fuel rest hlength hrest, Option.map_some,
    String.ofList_toList]

end

/-! ## Words -/

theorem isWordChar_of_isDigit {c : Char} (h : c.isDigit = true) : isWordChar c = true := by
  simp [isWordChar, Char.isAlphanum, h]

/-- A number is a word. -/
theorem reads_number {s : List Char} {v : Json} (hs : ∀ c ∈ s, isWordChar c = true)
    (h : number? s = some v) : Reads value? v s := by
  have hne : s ≠ [] := by
    rintro rfl
    cases h
  refine reads_word hne hs ?_
  have hword {word : List Char} (hnone : number? word = none) : s ≠ word := by
    rintro rfl
    rw [hnone] at h
    cases h
  rw [word?, if_neg (hword rfl), if_neg (hword rfl), if_neg (hword rfl), h]

theorem reads_null : Reads value? .null "null".toList :=
  reads_word (by decide) (List.all_eq_true.mp rfl) rfl

theorem reads_bool (b : Bool) : Reads value? (.bool b) (boolChars b) := by
  cases b
  · exact reads_word (by decide) (List.all_eq_true.mp rfl) rfl
  · exact reads_word (by decide) (List.all_eq_true.mp rfl) rfl

theorem isWordChar_toDigits (n : Nat) : ∀ c ∈ Nat.toDigits 10 n, isWordChar c = true :=
  fun c hc => isWordChar_of_isDigit (Numeral.digits_toDigits n c hc)

theorem isWordChar_intChars (n : Int) : ∀ c ∈ intChars n, isWordChar c = true := by
  intro c hc
  unfold intChars at hc
  split_ifs at hc
  · rcases List.mem_cons.mp hc with rfl | hc
    · rfl
    · exact isWordChar_toDigits _ c hc
  · exact isWordChar_toDigits _ c hc

theorem reads_int (n : Int) : Reads value? (.int n) (intChars n) :=
  reads_number (isWordChar_intChars n) (number?_intChars n)

/-- Plain notation is a word. -/
theorem isWordChar_positional (d : Decimal) : ∀ c ∈ d.positional, isWordChar c = true := by
  have hds := isWordChar_toDigits d.digits
  have hzeros (n : Nat) : ∀ c ∈ List.replicate n '0', isWordChar c = true := by
    intro c hc
    rw [List.eq_of_mem_replicate hc]
    rfl
  intro c hc
  unfold Decimal.positional Decimal.digitText at hc
  dsimp only at hc
  split_ifs at hc
  · rw [List.mem_singleton.mp hc]
    rfl
  · exact (List.mem_append.mp hc).elim (hds c) (hzeros _ c)
  · rcases List.mem_append.mp hc with hc | hc
    · exact hds c (List.mem_of_mem_take hc)
    · rcases List.mem_cons.mp hc with rfl | hc
      · rfl
      · exact hds c (List.mem_of_mem_drop hc)
  · rcases List.mem_cons.mp hc with rfl | hc
    · rfl
    · rcases List.mem_cons.mp hc with rfl | hc
      · rfl
      · exact (List.mem_append.mp hc).elim (hzeros _ c) (hds c)

/-- Scientific notation is a word. -/
theorem isWordChar_scientific (d : Decimal) : ∀ c ∈ d.scientific, isWordChar c = true := by
  have hds := isWordChar_toDigits d.digits
  intro c hc
  unfold Decimal.scientific at hc
  rcases List.mem_append.mp hc with hc | hc
  · unfold Decimal.digitText at hc
    generalize Nat.toDigits 10 d.digits = ds at *
    unfold Decimal.pointed at hc
    split at hc
    · rw [List.mem_singleton.mp hc]
      rfl
    · exact hds c hc
    · rcases List.mem_cons.mp hc with rfl | hc
      · exact hds c List.mem_cons_self
      · rcases List.mem_cons.mp hc with rfl | hc
        · rfl
        · exact hds c (List.mem_cons_of_mem _ hc)
  · rcases List.mem_cons.mp hc with rfl | hc
    · rfl
    · rcases List.mem_cons.mp hc with rfl | hc
      · split_ifs <;> rfl
      · exact isWordChar_toDigits _ c hc

/-- The digits of a float are a word. -/
theorem isWordChar_magnitudeChars (d : Decimal) : ∀ c ∈ magnitudeChars d, isWordChar c = true := by
  have hzero : ∀ c ∈ ['.', '0'], isWordChar c = true := List.all_eq_true.mp rfl
  intro c hc
  unfold magnitudeChars at hc
  dsimp only at hc
  split_ifs at hc
  · rcases List.mem_cons.mp hc with rfl | hc
    · rfl
    · exact hzero c hc
  · exact (List.mem_append.mp hc).elim (isWordChar_positional _ c) (hzero c)
  · exact isWordChar_positional _ c hc
  · exact isWordChar_scientific _ c hc

/-- A finite float is a word. -/
theorem isWordChar_floatChars {x : Binary64} (h : x.isFinite = true) :
    ∀ c ∈ floatChars x, isWordChar c = true := by
  intro c hc
  cases x with
  | finite negative m e canonical =>
    rcases List.mem_append.mp hc with hc | hc
    · split_ifs at hc
      · rw [List.mem_singleton.mp hc]
        rfl
      · cases hc
    · exact isWordChar_magnitudeChars _ c hc
  | infinite _ => cases h
  | nan => cases h

theorem reads_float {x : Binary64} (h : x.isFinite = true) :
    Reads value? (.float x) (floatChars x) :=
  reads_number (isWordChar_floatChars h) (number?_floatChars h)

end Spelling

open Spelling

/-- A value in which every float is finite. -/
inductive Finite : Json → Prop
  | null : Finite .null
  | bool (b : Bool) : Finite (.bool b)
  | int (n : Int) : Finite (.int n)
  | float {x : Binary64} (h : x.isFinite = true) : Finite (.float x)
  | str (s : String) : Finite (.str s)
  | arr {items : List Json} (h : ∀ v ∈ items, Finite v) : Finite (.arr items)
  | obj {fields : List (String × Json)} (h : ∀ p ∈ fields, Finite p.2) : Finite (.obj fields)

/-! ## Layouts -/

/-- Texts with commas between them. -/
def joined {α : Type} (text : α → List Char) : List α → List Char
  | [] => []
  | [a] => text a
  | a :: b :: rest => text a ++ ',' :: joined text (b :: rest)

/-- Things that are read one by one are read as a series. -/
theorem readsSeries_joined {α : Type} {close : Char} {item : Nat → Reader α}
    {text : α → List Char} {blanks : List Char} (hword : isWordChar close = false)
    (hclose : Cursor.isBlank close = false) (hcomma : close ≠ ',') (hblanks : Blank blanks)
    {things : List α} (hne : things ≠ []) (h : ∀ a ∈ things, Reads item a (text a)) :
    ReadsSeries close item things (joined text things ++ blanks) := by
  induction things with
  | nil => exact absurd rfl hne
  | cons a rest ih =>
    obtain ⟨ha, hrest⟩ := List.forall_mem_cons.mp h
    cases rest with
    | nil => exact readsSeries_single hword hclose ha hblanks
    | cons b rest =>
      rw [joined, List.append_assoc, List.cons_append]
      exact readsSeries_cons hcomma ha (ih (by simp) hrest)

theorem compactItems_eq (items : List Json) : compactItems items = joined compactChars items := by
  induction items with
  | nil => rw [compactItems, joined]
  | cons v rest ih =>
    cases rest with
    | nil => rw [compactItems, joined]
    | cons w rest => rw [compactItems, joined, ih]

theorem compactFields_eq (fields : List (String × Json)) :
    compactFields fields = joined (fun p => quoteChars p.1 ++ ':' :: compactChars p.2) fields := by
  induction fields with
  | nil => rw [compactFields, joined]
  | cons p rest ih =>
    cases rest with
    | nil => rw [compactFields, joined]
    | cons q rest => rw [compactFields, joined, ih]

theorem prettyItems_eq (level : Nat) (items : List Json) :
    prettyItems level items = joined (fun v => newLine level ++ prettyChars level v) items := by
  induction items with
  | nil => rw [prettyItems, joined]
  | cons v rest ih =>
    cases rest with
    | nil => rw [prettyItems, joined]
    | cons w rest => rw [prettyItems, joined, ih]

theorem prettyFields_eq (level : Nat) (fields : List (String × Json)) :
    prettyFields level fields =
      joined (fun p => newLine level ++ (quoteChars p.1 ++ ':' :: ([' '] ++ prettyChars level p.2)))
        fields := by
  induction fields with
  | nil => rw [prettyFields, joined]
  | cons p rest ih =>
    cases rest with
    | nil =>
      rw [prettyFields, joined]
      simp
    | cons q rest =>
      rw [prettyFields, joined, ih]
      simp

theorem blank_nil : Blank [] := nofun

theorem blank_newline : Blank ['\n'] := by
  simp [Blank]
  rfl

theorem blank_newLine (level : Nat) : Blank (newLine level) := by
  intro c hc
  rcases List.mem_cons.mp hc with rfl | hc
  · rfl
  · rw [List.eq_of_mem_replicate hc]
    rfl

/-- A value without blanks is read as that value. -/
theorem reads_compactChars {v : Json} (h : v.Finite) : Reads value? v v.compactChars := by
  induction h with
  | null =>
    rw [compactChars]
    exact reads_null
  | bool b =>
    rw [compactChars]
    exact reads_bool b
  | int n =>
    rw [compactChars]
    exact reads_int n
  | float h =>
    rw [compactChars]
    exact reads_float h
  | str s =>
    rw [compactChars]
    exact reads_string s
  | @arr items h ih =>
    rw [compactChars, compactItems_eq]
    cases items with
    | nil => exact reads_arr_nil
    | cons v rest =>
      rw [← List.append_nil (joined compactChars _)]
      exact reads_arr (readsSeries_joined rfl rfl (by decide) blank_nil (by simp) ih)
  | @obj fields h ih =>
    rw [compactChars, compactFields_eq]
    cases fields with
    | nil => exact reads_obj_nil
    | cons p rest =>
      rw [← List.append_nil (joined _ _)]
      exact reads_obj (readsSeries_joined rfl rfl (by decide) blank_nil (by simp)
        fun p hp => reads_member p.1 blank_nil (ih p hp))

/-- A value over several lines is read as that value. -/
theorem reads_prettyChars {v : Json} (h : v.Finite) (level : Nat) :
    Reads value? v (prettyChars level v) := by
  induction h generalizing level with
  | null =>
    rw [prettyChars]
    exact reads_null
  | bool b =>
    rw [prettyChars]
    exact reads_bool b
  | int n =>
    rw [prettyChars]
    exact reads_int n
  | float h =>
    rw [prettyChars]
    exact reads_float h
  | str s =>
    rw [prettyChars]
    exact reads_string s
  | @arr items h ih =>
    cases items with
    | nil =>
      rw [prettyChars]
      exact reads_arr_nil
    | cons v rest =>
      rw [prettyChars, prettyItems_eq, List.cons_append]
      exact reads_arr (readsSeries_joined rfl rfl (by decide) (blank_newLine level) (by simp)
        fun v hv => reads_value_of_blanks (blank_newLine _) (ih v hv _))
  | @obj fields h ih =>
    cases fields with
    | nil =>
      rw [prettyChars]
      exact reads_obj_nil
    | cons p rest =>
      rw [prettyChars, prettyFields_eq, List.cons_append]
      exact reads_obj (readsSeries_joined rfl rfl (by decide) (blank_newLine level) (by simp)
        fun p hp => reads_member p.1 (blank_newLine _)
          (reads_value_of_blanks (by simp [Blank]; rfl) (ih p hp _)))

/-! ## Whole texts -/

/-- A text from which a value is read spells the value, with blank space behind it, too. -/
theorem spelled?_of_reads {v : Json} {text blanks : List Char} (h : Reads value? v text)
    (hblanks : Blank blanks) : spelled? (String.ofList (text ++ blanks)) = some v := by
  have hends : Ends blanks := by
    have hafter := ends_of_blank hblanks (c := '"') rfl []
    intro c hc
    exact hafter c (by rw [List.head?_append, hc]; rfl)
  have hread := h (text ++ blanks).length blanks (by simp) hends
  rw [spelled?, String.toList_ofList, hread]
  have hafter := afterBlanks_append hblanks []
  rw [List.append_nil] at hafter
  dsimp only
  rw [hafter]
  rfl

/-- The text of a value without blanks spells the value. -/
theorem spelled?_compact {v : Json} (h : v.Finite) : spelled? v.compact = some v := by
  have hspelled := spelled?_of_reads (reads_compactChars h) blank_nil
  rw [List.append_nil] at hspelled
  exact hspelled

/-- On a line of its own, too. -/
theorem spelled?_compact_line {v : Json} (h : v.Finite) :
    spelled? (v.compact ++ "\n") = some v := by
  have hspelled := spelled?_of_reads (reads_compactChars h) blank_newline
  rw [String.ofList_append] at hspelled
  exact hspelled

/-- The text of a value over several lines spells the value. -/
theorem spelled?_pretty_line {v : Json} (h : v.Finite) : spelled? (v.pretty ++ "\n") = some v := by
  have hspelled := spelled?_of_reads (reads_prettyChars h 0) blank_newline
  rw [String.ofList_append] at hspelled
  exact hspelled

end PluginChain.Json
