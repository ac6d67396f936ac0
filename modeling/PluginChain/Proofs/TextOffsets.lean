import PluginChain.Text.Search
set_option autoImplicit false

/-!
# Where a text stands in the bytes of another

A text can also be searched for by its UTF-8 bytes, and what is found then is an offset into
bytes.  A character begins at every such offset (`StandsAt.exists_append`): the bytes that
are found are UTF-8 by themselves, and no character has a part that is.  So the last offset
is where a search by characters splits the text (`lastAt_of_split`).
-/

namespace PluginChain.Search

/-- Whether the bytes of a text stand in those of another from an offset on. -/
def StandsAt (needle text : String) (offset : Nat) : Prop :=
  text.toByteArray.extract offset (offset + needle.utf8ByteSize) = needle.toByteArray

/-- Whether an offset is the last one at which the bytes of a text stand in those of
another. -/
structure LastAt (needle text : String) (offset : Nat) : Prop where
  stands : StandsAt needle text offset
  last : ∀ later, offset < later → ¬ StandsAt needle text later

variable {needle text before rest : String} {offset other : Nat}

/-- Bytes in three parts. -/
theorem extract_append_three {bytes : ByteArray} {i j : Nat} (hij : i ≤ j) (hj : j ≤ bytes.size) :
    bytes.extract 0 i ++ bytes.extract i j ++ bytes.extract j bytes.size = bytes := by
  rw [ByteArray.extract_append_extract, Nat.zero_min, Nat.max_eq_right hij,
    ByteArray.extract_append_extract, Nat.zero_min, Nat.max_eq_right hj,
    ByteArray.extract_zero_size]

/-- A text stands behind what stands before it. -/
theorem standsAt_of_append (before needle after : String) :
    StandsAt needle (before ++ needle ++ after) before.utf8ByteSize := by
  have hbytes : (before ++ needle ++ after).toByteArray =
      before.toByteArray ++ (needle.toByteArray ++ after.toByteArray) := by
    rw [String.toByteArray_append, String.toByteArray_append, ByteArray.append_assoc]
  have hbehind := ByteArray.extract_append_size_add (a := before.toByteArray)
    (b := needle.toByteArray ++ after.toByteArray) (i := 0) (j := needle.utf8ByteSize)
  rw [Nat.add_zero] at hbehind
  rw [StandsAt, hbytes, ← String.size_toByteArray (s := before), hbehind]
  exact ByteArray.extract_append_eq_left String.size_toByteArray.symm

/-- Where the bytes of a text stand, a character begins. -/
theorem StandsAt.exists_append (h : StandsAt needle text offset) (hneedle : needle ≠ "") :
    ∃ before after, text = before ++ needle ++ after ∧ before.utf8ByteSize = offset := by
  let first : String.Pos.Raw := ⟨offset⟩
  let behind : String.Pos.Raw := ⟨offset + needle.utf8ByteSize⟩
  have hpos : needle.utf8ByteSize ≠ 0 := fun hzero =>
    hneedle (String.utf8ByteSize_eq_zero_iff.mp hzero)
  have hsize := congrArg ByteArray.size h
  rw [ByteArray.size_extract, String.size_toByteArray, String.size_toByteArray] at hsize
  have hend : offset + needle.utf8ByteSize ≤ text.utf8ByteSize := by omega
  have hutf8 : (text.toByteArray.extract first.byteIdx behind.byteIdx).IsValidUTF8 :=
    h.symm ▸ needle.isValidUTF8
  have hle : first ≤ behind := Nat.le_add_right offset needle.utf8ByteSize
  rw [String.Pos.Raw.isValidUTF8_extract_iff first behind hle hend] at hutf8
  rcases hutf8 with hsame | ⟨hfirst, hbehind⟩
  · have heq : offset = offset + needle.utf8ByteSize := congrArg String.Pos.Raw.byteIdx hsame
    omega
  · refine ⟨⟨_, hfirst.isValidUTF8_extract_zero⟩, ⟨_, hbehind.isValidUTF8_extract_utf8ByteSize⟩,
      String.toByteArray_inj.mp ?_, ?_⟩
    · rw [String.toByteArray_append, String.toByteArray_append, ← h]
      rw [← String.size_toByteArray] at hend ⊢
      exact (extract_append_three (Nat.le_add_right offset needle.utf8ByteSize) hend).symm
    · show (text.toByteArray.extract 0 offset).size = offset
      rw [ByteArray.size_extract, String.size_toByteArray]
      omega

/-- There is one last offset at most. -/
theorem LastAt.unique (h : LastAt needle text offset) (h' : LastAt needle text other) :
    offset = other := by
  rcases Nat.lt_trichotomy offset other with hlt | heq | hgt
  · exact absurd h'.stands (h.last other hlt)
  · exact heq
  · exact absurd h.stands (h'.last offset hgt)

/-- A text that is split where the other begins, and behind whose first character the other
does not stand, is split at the last offset of the other. -/
theorem lastAt_of_split (hneedle : needle ≠ "") (hbegins : needle.toList <+: rest.toList)
    (hlast : ¬ needle.toList <:+: rest.toList.tail) :
    LastAt needle (before ++ rest) before.utf8ByteSize := by
  obtain ⟨after, hafter⟩ := hbegins
  refine ⟨?_, fun later hlater hstands => ?_⟩
  · have hrest : rest = needle ++ String.ofList after :=
      String.toList_injective (by rw [String.toList_append, String.toList_ofList, hafter])
    rw [hrest, ← String.append_assoc]
    exact standsAt_of_append before needle (String.ofList after)
  · obtain ⟨start, stop, htext, rfl⟩ := hstands.exists_append hneedle
    have hlists : before.toList ++ rest.toList =
        start.toList ++ (needle.toList ++ stop.toList) := by
      rw [← String.toList_append, htext, String.toList_append, String.toList_append,
        List.append_assoc]
    rcases List.append_eq_append_iff.mp hlists with ⟨between, hstart, hrest⟩ | ⟨between, hbefore, -⟩
    · cases between with
      | nil =>
        -- Both splits are the same, so the other offset is no later one.
        rw [List.append_nil] at hstart
        rw [String.toList_injective hstart] at hlater
        exact absurd hlater (Nat.lt_irrefl _)
      | cons c cs =>
        refine hlast ⟨cs, stop.toList, ?_⟩
        rw [hrest, List.cons_append, List.tail_cons, List.append_assoc]
    · have hsplit : before = start ++ String.ofList between :=
        String.toList_injective (by rw [hbefore, String.toList_append, String.toList_ofList])
      rw [hsplit, String.utf8ByteSize_append] at hlater
      omega

end PluginChain.Search
