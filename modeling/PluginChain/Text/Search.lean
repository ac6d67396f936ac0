set_option autoImplicit false

/-!
# Searching a text

Splitting a text at an occurrence of a shorter one.  `splitLast?` finds the last
occurrence and returns the text before it and the text from it on, so that the
two parts together are the whole text and no later occurrence exists.
-/

namespace PluginChain.Search

/-- The text before the last occurrence of `needle`, and the text from that
occurrence on. -/
def splitLast? (needle : List Char) : List Char → Option (List Char × List Char)
  | [] => if needle.isPrefixOf [] then some ([], []) else none
  | c :: cs =>
    match splitLast? needle cs with
    | some (before, rest) => some (c :: before, rest)
    | none => if needle.isPrefixOf (c :: cs) then some ([], c :: cs) else none

/-- Whether `needle` occurs in the text. -/
def occurs (needle : List Char) : List Char → Bool
  | [] => needle.isPrefixOf []
  | c :: cs => needle.isPrefixOf (c :: cs) || occurs needle cs

/-- Whether the text ends with `tail`. -/
def endsWith (tail text : List Char) : Bool := tail.isSuffixOf text

/-- Nothing is lost by the split. -/
theorem append_of_splitLast? {needle : List Char} :
    ∀ {s before rest : List Char}, splitLast? needle s = some (before, rest) → before ++ rest = s
  | [], before, rest, h => by
    simp only [splitLast?] at h
    split at h <;> simp at h
    simp [h]
  | c :: cs, before, rest, h => by
    simp only [splitLast?] at h
    split at h
    · next b r hs =>
      have := append_of_splitLast? hs
      simp at h
      simp [← h.1, ← h.2, this]
    · split at h <;> simp at h
      simp [h]

/-- There is no split exactly when the needle does not occur. -/
theorem splitLast?_eq_none_iff {needle : List Char} :
    ∀ {s : List Char}, splitLast? needle s = none ↔ occurs needle s = false
  | [] => by
    simp only [splitLast?, occurs]
    cases needle.isPrefixOf [] <;> simp
  | c :: cs => by
    have ih := @splitLast?_eq_none_iff needle cs
    simp only [splitLast?, occurs, Bool.or_eq_false_iff]
    cases hs : splitLast? needle cs with
    | some p =>
      have : occurs needle cs ≠ false := fun hf => by simp [ih.mpr hf] at hs
      simp [this]
    | none =>
      simp only [ih.mp hs, and_true]
      cases needle.isPrefixOf (c :: cs) <;> simp

example : splitLast? "ab".toList "xabyabz".toList = some ("xaby".toList, "abz".toList) := by
  decide

end PluginChain.Search
