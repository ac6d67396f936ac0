import PluginChain.Proofs.Places
set_option autoImplicit false

/-!
# How paths end

A path ends in a move if nothing that says nothing stands behind it.  Then everything but
that move leads to where the move is made from, segment by segment.  A path that is
continued by another ends as the other does, and a parent ends in its last move, as what
says nothing was left off; it is a part of the text of its path besides.
-/

namespace PluginChain

namespace Path

/-! ## Texts -/

theorem unsegment_prefix {segs others : List (List Char)} (h : segs <+: others) :
    unsegment segs <+: unsegment others := by
  induction segs generalizing others with
  | nil => exact List.nil_prefix
  | cons s rest ih =>
    obtain ⟨more, rfl⟩ := h
    cases rest with
    | nil =>
      cases more with
      | nil => exact List.prefix_rfl
      | cons t more => exact List.prefix_append s _
    | cons t rest =>
      have hrest := ih (List.prefix_append (t :: rest) more)
      exact (List.prefix_append_right_inj s).mpr (List.cons_prefix_cons.mpr ⟨rfl, hrest⟩)

/-- The last of several segments has a slash before it. -/
theorem unsegment_concat {segs : List (List Char)} (hne : segs ≠ []) (last : List Char) :
    unsegment (segs ++ [last]) = unsegment segs ++ '/' :: last := by
  induction segs with
  | nil => exact absurd rfl hne
  | cons s rest ih =>
    cases rest with
    | nil => rfl
    | cons t rest =>
      have hrest := ih (List.cons_ne_nil t rest)
      simp only [List.cons_append] at hrest
      simp only [List.cons_append, unsegment, hrest, List.append_assoc]

theorem lead_text_append (s : List Char) : (splitLead s).1.text ++ (splitLead s).2 = s := by
  unfold splitLead
  split <;> rfl

/-- The segments of a parent are first ones of the text behind its beginning, and the last
of them says something. -/
theorem trim_of_parentOf? {s parent : List Char} (h : parentOf? s = some parent) :
    parent = [] ∨ ∃ segs, parent = (splitLead s).1.text ++ unsegment segs ∧
      segs <+: segments (splitLead s).2 ∧ ∀ last ∈ segs.getLast?, isSilent last = false := by
  rcases trim_cases s with htrim | ⟨front, last, htrim⟩
  · rw [parentOf?_of_trim_nil htrim] at h
    split_ifs at h
    exact .inl (Option.some.inj h).symm
  · rw [parentOf?_of_trim htrim] at h
    refine .inr ⟨_, (Option.some.inj h).symm, ?_, fun last hlast => ?_⟩
    · exact ((trimSegments_prefix_self front).trans (List.prefix_append front [last])).trans
        (htrim ▸ trimSegments_prefix_self _)
    · obtain ⟨before, hbefore⟩ := List.getLast?_eq_some_iff.mp hlast
      exact isSilent_getLast_trimSegments hbefore

/-- The parent of a text is its beginning. -/
theorem parentOf?_prefix {s parent : List Char} (h : parentOf? s = some parent) :
    parent <+: s := by
  rcases trim_of_parentOf? h with rfl | ⟨segs, rfl, hsegs, -⟩
  · exact List.nil_prefix
  · have htext := unsegment_prefix hsegs
    rw [unsegment_segments] at htext
    calc (splitLead s).1.text ++ unsegment segs
        <+: (splitLead s).1.text ++ (splitLead s).2 := (List.prefix_append_right_inj _).mpr htext
      _ = s := lead_text_append s

/-- First segments of what stands behind the beginning of a text end, with that in front of
them again, as they did. -/
theorem getLast?_segments_lead {s : List Char} {segs : List (List Char)} {last : List Char}
    (h : segs <+: segments (splitLead s).2) (hlast : segs.getLast? = some last)
    (hspeaks : isSilent last = false) :
    (segments ((splitLead s).1.text ++ unsegment segs)).getLast? = some last := by
  have hslash : ∀ seg ∈ segs, '/' ∉ seg := fun seg hseg =>
    slash_not_mem_of_mem_segments (h.subset hseg)
  cases segs with
  | nil => cases hlast
  | cons first rest =>
    have hplain := segments_unsegment (List.cons_ne_nil first rest) hslash
    revert h
    unfold splitLead
    split
    · intro _
      have hroot := segments_append_slash [] (unsegment (first :: rest))
      rw [List.nil_append, hplain] at hroot
      rw [Lead.text, List.singleton_append, hroot, List.getLast?_append, hlast]
      rfl
    · intro h
      obtain ⟨rfl, hrest⟩ := List.cons_prefix_cons.mp h
      rw [List.prefix_nil.mp hrest, List.getLast?_singleton, Option.some.injEq] at hlast
      rw [← hlast] at hspeaks
      cases hspeaks
    · -- Behind a leading point the first segment is empty, so a slash follows the point.
      intro h
      obtain ⟨rfl, -⟩ := List.cons_prefix_cons.mp h
      cases rest with
      | nil =>
        obtain rfl := Option.some.inj hlast
        cases hspeaks
      | cons second rest =>
        have hhere := segments_append_slash ['.'] (unsegment (second :: rest))
        rw [segments_unsegment (List.cons_ne_nil second rest)
          (List.forall_mem_cons.mp hslash).2] at hhere
        rw [List.getLast?_cons_cons] at hlast
        rw [Lead.text, unsegment, List.nil_append, hhere, List.getLast?_append, hlast]
        rfl
    · intro _
      rw [Lead.text, List.nil_append, hplain]
      exact hlast

/-- A parent says nothing, or its last segment says something. -/
theorem getLast?_segments_parentOf? {s parent : List Char} (h : parentOf? s = some parent) :
    movesOf parent = [] ∨
      ∃ last, (segments parent).getLast? = some last ∧ isSilent last = false := by
  rcases trim_of_parentOf? h with rfl | ⟨segs, rfl, hsegs, hspeaks⟩
  · exact .inl rfl
  · cases hlast : segs.getLast? with
    | none =>
      left
      rw [List.getLast?_eq_none_iff.mp hlast, unsegment, List.append_nil]
      cases (splitLead s).1 <;> rfl
    | some last =>
      have hlastSpeaks := hspeaks last hlast
      exact .inr ⟨last, getLast?_segments_lead hsegs hlast hlastSpeaks, hlastSpeaks⟩

/-- A text with moves has a parent, which has all of them but the last. -/
theorem exists_parentOf? {s : List Char} (h : movesOf s ≠ []) :
    ∃ parent last, parentOf? s = some parent ∧ movesOf s = movesOf parent ++ [last] := by
  rcases trim_cases s with htrim | ⟨front, last, htrim⟩
  · exact absurd (movesOf_eq_nil_of_trim htrim) h
  · have hparent := parentOf?_of_trim htrim
    rcases movesOf_of_parentOf? hparent with ⟨hnil, -⟩ | ⟨last, hlast⟩
    · exact absurd hnil h
    · exact ⟨_, last, hparent, hlast⟩

/-- A text has no more moves than characters. -/
theorem length_movesOf_le (s : List Char) : (movesOf s).length ≤ s.length := by
  induction s with
  | nil => exact Nat.le_refl 0
  | cons c cs ih =>
    rw [movesOf] at ih ⊢
    rw [segments]
    by_cases hc : c = '/'
    · rw [if_pos hc, List.filter_cons_of_neg (by decide)]
      exact ih.trans (Nat.le_succ _)
    · rw [if_neg hc]
      cases hs : segments cs with
      | nil => exact absurd hs (segments_ne_nil cs)
      | cons t rest =>
        rw [hs] at ih
        have hrest : (rest.filter fun seg => !isSilent seg).length ≤
            ((t :: rest).filter fun seg => !isSilent seg).length :=
          ((List.sublist_cons_self t rest).filter _).length_le
        have hfirst : (((c :: t) :: rest).filter fun seg => !isSilent seg).length ≤
            (rest.filter fun seg => !isSilent seg).length + 1 := by
          rw [List.filter_cons]
          split
          · exact Nat.le_refl _
          · exact Nat.le_succ _
        exact hfirst.trans (Nat.succ_le_succ (hrest.trans ih))

/-- Continued by another that begins at no root, a text ends in the segments of the other. -/
theorem segments_suffix_joinChars (base : List Char) {other : List Char}
    (h : other.head? ≠ some '/') : segments other <:+ segments (joinChars base other) := by
  rw [joinChars_eq base h]
  split_ifs with hbase hlast
  · exact List.suffix_rfl
  · obtain ⟨front, rfl⟩ := List.getLast?_eq_some_iff.mp hlast
    rw [List.append_assoc, List.singleton_append, segments_append_slash]
    exact List.suffix_append _ _
  · rw [segments_append_slash]
    exact List.suffix_append _ _

/-! ## The same on strings -/

theorem allSegments_eq_nil_cons {p : String} (h : isAbsolute p = true) :
    ∃ more, allSegments p = "" :: more := by
  obtain ⟨rest, hrest⟩ : ∃ rest, p.toList = '/' :: rest := by
    rwa [isAbsolute, decide_eq_true_eq, List.head?_eq_some_iff] at h
  rw [allSegments, hrest]
  exact ⟨_, rfl⟩

/-- A path with moves has a parent, which has all of them but the last. -/
theorem exists_parent? {p : String} (h : moves p ≠ []) :
    ∃ parent last, parent? p = some parent ∧ moves p = moves parent ++ [last] := by
  rw [moves_eq, ne_eq, List.map_eq_nil_iff] at h
  obtain ⟨parent, last, hparent, hmoves⟩ := exists_parentOf? h
  refine ⟨String.ofList parent, String.ofList last, by rw [parent?, hparent]; rfl, ?_⟩
  rw [moves_eq, moves_eq, hmoves, String.toList_ofList, List.map_append, List.map_singleton]

/-- The parent of a path is its beginning. -/
theorem exists_append_of_parent? {p parent : String} (h : parent? p = some parent) :
    ∃ rest, p = parent ++ rest := by
  obtain ⟨s, hs, rfl⟩ := Option.map_eq_some_iff.mp h
  obtain ⟨rest, hrest⟩ := parentOf?_prefix hs
  refine ⟨String.ofList rest, ?_⟩
  rw [← String.ofList_append, hrest, String.ofList_toList]

/-- A path has no more moves than characters. -/
theorem length_moves_le (p : String) : (moves p).length ≤ p.length := by
  rw [moves_eq, List.length_map]
  exact length_movesOf_le p.toList

end Path

namespace FileSystem

open PluginChain.Path (moves silent)

variable {path base other last : String}

/-- The path ends in a move: nothing stands behind it. -/
def EndsIn (path last : String) : Prop :=
  ∃ before, steps path = before ++ [last] ∧ silent last = false

theorem endsIn_of_allSegments (h : (Path.allSegments path).getLast? = some last)
    (hspeaks : silent last = false) : EndsIn path last := by
  unfold EndsIn steps
  split
  · next habsolute =>
    obtain ⟨more, hmore⟩ := Path.allSegments_eq_nil_cons habsolute
    rw [hmore] at h ⊢
    cases more with
    | nil =>
      rw [← Option.some.inj h] at hspeaks
      cases hspeaks
    | cons second more =>
      rw [List.getLast?_cons_cons] at h
      obtain ⟨before, hbefore⟩ := List.getLast?_eq_some_iff.mp h
      exact ⟨before, hbefore, hspeaks⟩
  · obtain ⟨before, hbefore⟩ := List.getLast?_eq_some_iff.mp h
    exact ⟨before, hbefore, hspeaks⟩

/-- A path that ends in a move has it as its last. -/
theorem EndsIn.moves_eq (h : EndsIn path last) :
    ∃ before, steps path = before ++ [last] ∧
      moves path = (before.filter fun segment => !silent segment) ++ [last] := by
  obtain ⟨before, hsteps, hspeaks⟩ := h
  refine ⟨before, hsteps, ?_⟩
  rw [← filter_steps, hsteps, List.filter_append]
  simp [hspeaks]

/-- Continued by another that begins at no root, a path ends as the other does. -/
theorem EndsIn.join (h : EndsIn other last) (habsolute : Path.isAbsolute other = false)
    (base : String) : EndsIn (Path.join base other) last := by
  obtain ⟨before, hsteps, hspeaks⟩ := h
  rw [steps, if_neg (by simp [habsolute])] at hsteps
  apply endsIn_of_allSegments _ hspeaks
  obtain ⟨front, hfront⟩ :=
    Path.segments_suffix_joinChars base.toList (Path.isAbsolute_eq_false_iff.mp habsolute)
  rw [Path.allSegments] at hsteps
  rw [Path.allSegments, Path.join, String.toList_ofList, ← hfront, List.map_append, hsteps,
    ← List.append_assoc, List.getLast?_concat]

theorem endsIn_name (h : Path.IsName last) : EndsIn last last := by
  refine ⟨[], ?_, h.speaks⟩
  rw [steps, if_neg (by simp [h.isAbsolute_eq]), Path.allSegments,
    Path.segments_of_slash_not_mem h.slash_not_mem]
  simp

/-- A parent says nothing, or ends in a move. -/
theorem endsIn_parent {parent : String} (h : Path.parent? path = some parent) :
    moves parent = [] ∨ ∃ last, EndsIn parent last := by
  obtain ⟨s, hs, rfl⟩ := Option.map_eq_some_iff.mp h
  rcases Path.getLast?_segments_parentOf? hs with hnil | ⟨last, hlast, hspeaks⟩
  · left
    rw [Path.moves_eq, String.toList_ofList, hnil]
    rfl
  · refine .inr ⟨String.ofList last,
      endsIn_of_allSegments ?_ ((Path.silent_ofList last).trans hspeaks)⟩
    rw [Path.allSegments, String.toList_ofList, List.getLast?_map, hlast]
    rfl

/-- A path with moves, behind which stand no slash and no slash with a point, ends in a
move. -/
theorem exists_endsIn (hmoves : moves path ≠ []) (hslash : ¬ ['/'] <:+ path.toList)
    (hpoint : ¬ ['/', '.'] <:+ path.toList) : ∃ last, EndsIn path last := by
  obtain ⟨front, last, hlast⟩ : ∃ front last, Path.segments path.toList = front ++ [last] := by
    rcases List.eq_nil_or_concat (Path.segments path.toList) with hnil | ⟨front, last, hlast⟩
    · exact absurd hnil (Path.segments_ne_nil _)
    · exact ⟨front, last, hlast.trans List.concat_eq_append⟩
  refine ⟨String.ofList last, endsIn_of_allSegments ?_ ?_⟩
  · rw [Path.allSegments, hlast, List.getLast?_map, List.getLast?_concat]
    rfl
  · rw [Path.silent_ofList, ← Bool.not_eq_true]
    intro hsilent
    cases front with
    | nil =>
      apply hmoves
      rw [Path.moves_eq, Path.movesOf, hlast]
      simp [hsilent]
    | cons first front =>
      have htext := Path.unsegment_segments path.toList
      rw [hlast, Path.unsegment_concat (List.cons_ne_nil first front)] at htext
      rw [Path.isSilent, Bool.or_eq_true, decide_eq_true_eq, decide_eq_true_eq] at hsilent
      rcases hsilent with rfl | rfl
      · exact hslash ⟨_, htext⟩
      · exact hpoint ⟨_, htext⟩

end FileSystem

end PluginChain
