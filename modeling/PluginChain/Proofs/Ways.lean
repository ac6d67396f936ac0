import Mathlib.Data.List.Basic
import Mathlib.Data.List.TakeWhile
import PluginChain.Files.FileSystem
set_option autoImplicit false

/-!
# The moves of a path

What a path asks for is told by its moves: its segments without those that say
nothing.  The laws say what the operations on paths do to the moves.  A path that is
continued by another has the moves of both, a parent has all moves but the last, and a
path is inner exactly if it begins at no root and no move leads upwards.
-/

namespace PluginChain.Path

/-! ## Segments of texts -/

theorem segments_of_slash_not_mem {s : List Char} (h : '/' ∉ s) : segments s = [s] := by
  induction s with
  | nil => rfl
  | cons c cs ih =>
    simp only [List.mem_cons, not_or] at h
    rw [segments, if_neg (Ne.symm h.1), ih h.2]

/-- A slash parts the segments before it from those behind it. -/
theorem segments_append_slash (s t : List Char) :
    segments (s ++ '/' :: t) = segments s ++ segments t := by
  induction s with
  | nil => rfl
  | cons c cs ih =>
    simp only [List.cons_append, segments, ih]
    by_cases hc : c = '/'
    · rw [if_pos hc, if_pos hc, List.cons_append]
    · rw [if_neg hc, if_neg hc]
      cases hs : segments cs with
      | nil => exact absurd hs (segments_ne_nil cs)
      | cons u rest => rfl

/-- Segments without slashes are read back from the text that they make. -/
theorem segments_unsegment {segs : List (List Char)} (hne : segs ≠ [])
    (h : ∀ seg ∈ segs, '/' ∉ seg) : segments (unsegment segs) = segs := by
  induction segs with
  | nil => exact absurd rfl hne
  | cons s rest ih =>
    obtain ⟨hs, hrest⟩ := List.forall_mem_cons.mp h
    cases rest with
    | nil => exact segments_of_slash_not_mem hs
    | cons t rest =>
      rw [unsegment, segments_append_slash, segments_of_slash_not_mem hs,
        ih (List.cons_ne_nil t rest) hrest]
      rfl

/-! ## Moves of texts -/

/-- The segments of a text that say something. -/
def movesOf (s : List Char) : List (List Char) := (segments s).filter fun seg => !isSilent seg

@[simp] theorem movesOf_nil : movesOf [] = [] := rfl

theorem movesOf_append_slash (s t : List Char) :
    movesOf (s ++ '/' :: t) = movesOf s ++ movesOf t := by
  rw [movesOf, segments_append_slash, List.filter_append]
  rfl

theorem movesOf_slash_cons (t : List Char) : movesOf ('/' :: t) = movesOf t :=
  movesOf_append_slash [] t

theorem movesOf_here_cons (t : List Char) : movesOf ('.' :: '/' :: t) = movesOf t :=
  movesOf_append_slash ['.'] t

/-- A text without a slash is one move, if it says something. -/
theorem movesOf_of_slash_not_mem {s : List Char} (hslash : '/' ∉ s)
    (hsilent : isSilent s = false) : movesOf s = [s] := by
  rw [movesOf, segments_of_slash_not_mem hslash]
  simp [hsilent]

theorem movesOf_unsegment {segs : List (List Char)} (h : ∀ seg ∈ segs, '/' ∉ seg) :
    movesOf (unsegment segs) = segs.filter fun seg => !isSilent seg := by
  cases segs with
  | nil => rfl
  | cons s rest => rw [movesOf, segments_unsegment (List.cons_ne_nil s rest) h]

theorem joinChars_eq (base : List Char) {other : List Char} (h : other.head? ≠ some '/') :
    joinChars base other =
      if base = [] then other
      else if base.getLast? = some '/' then base ++ other else base ++ '/' :: other := by
  unfold joinChars
  split
  · exact absurd rfl h
  · rfl

/-- Continued by a path that begins at no root, a path has the moves of both. -/
theorem movesOf_joinChars (base : List Char) {other : List Char} (h : other.head? ≠ some '/') :
    movesOf (joinChars base other) = movesOf base ++ movesOf other := by
  rw [joinChars_eq base h]
  split_ifs with hbase hlast
  · rw [hbase]
    rfl
  · obtain ⟨front, rfl⟩ := List.getLast?_eq_some_iff.mp hlast
    rw [List.append_assoc, List.singleton_append, movesOf_append_slash,
      movesOf_append_slash front []]
    simp
  · exact movesOf_append_slash base other

/-! ## The last component -/

theorem movesOf_splitLead (s : List Char) : movesOf s = movesOf (splitLead s).2 := by
  unfold splitLead
  split
  · exact movesOf_slash_cons _
  · rfl
  · exact (movesOf_here_cons _).trans (movesOf_slash_cons _).symm
  · rfl

/-- Leaving off segments that say nothing takes no move away. -/
theorem filter_trimSegments (segs : List (List Char)) :
    (trimSegments segs).filter (fun seg => !isSilent seg) =
      segs.filter fun seg => !isSilent seg := by
  have hdrop : ∀ l : List (List Char),
      (l.dropWhile isSilent).filter (fun seg => !isSilent seg) =
        l.filter fun seg => !isSilent seg := by
    intro l
    induction l with
    | nil => rfl
    | cons seg rest ih =>
      by_cases hseg : isSilent seg = true
      · rw [List.dropWhile_cons_of_pos hseg, ih, List.filter_cons_of_neg (by simp [hseg])]
      · rw [List.dropWhile_cons_of_neg hseg]
  rw [trimSegments, List.filter_reverse, hdrop, ← List.filter_reverse, List.reverse_reverse]

/-- The last segment that is left says something. -/
theorem isSilent_getLast_trimSegments {segs front : List (List Char)} {last : List Char}
    (h : trimSegments segs = front ++ [last]) : isSilent last = false := by
  have hrev : segs.reverse.dropWhile isSilent = last :: front.reverse := by
    have := congrArg List.reverse h
    simpa [trimSegments] using this
  have hhead := List.head?_dropWhile_not isSilent segs.reverse
  rw [hrev] at hhead
  simpa using hhead

theorem trimSegments_prefix_self (segs : List (List Char)) : trimSegments segs <+: segs := by
  have h : (segs.reverse.dropWhile isSilent).reverse <+: segs.reverse.reverse :=
    List.reverse_prefix.mpr (List.dropWhile_suffix isSilent)
  rwa [List.reverse_reverse] at h

/-- The trimmed segments of a text say all its moves, the last of them at their end. -/
theorem movesOf_eq_of_trim {s : List Char} {front : List (List Char)} {last : List Char}
    (h : trimSegments (segments (splitLead s).2) = front ++ [last]) :
    movesOf s = (front.filter fun seg => !isSilent seg) ++ [last] := by
  rw [movesOf_splitLead, movesOf, ← filter_trimSegments, h, List.filter_append]
  simp [isSilent_getLast_trimSegments h]

/-- Without trimmed segments a text says nothing. -/
theorem movesOf_eq_nil_of_trim {s : List Char}
    (h : trimSegments (segments (splitLead s).2) = []) : movesOf s = [] := by
  rw [movesOf_splitLead, movesOf, ← filter_trimSegments, h]
  rfl

/-- The text before a component has all moves before it. -/
theorem movesOf_lead_unsegment {s : List Char} {front : List (List Char)} {last : List Char}
    (h : trimSegments (segments (splitLead s).2) = front ++ [last]) :
    movesOf ((splitLead s).1.text ++ unsegment (trimSegments front)) =
      front.filter fun seg => !isSilent seg := by
  have hfront : trimSegments front <+: segments (splitLead s).2 :=
    ((trimSegments_prefix_self front).trans (List.prefix_append front [last])).trans
      (h ▸ trimSegments_prefix_self _)
  have hplain : movesOf (unsegment (trimSegments front)) =
      front.filter fun seg => !isSilent seg := by
    rw [movesOf_unsegment fun seg hseg => slash_not_mem_of_mem_segments (hfront.subset hseg),
      filter_trimSegments]
  revert hfront
  unfold splitLead
  split
  · exact fun _ => (movesOf_slash_cons _).trans hplain
  · next => simp [splitLead, trimSegments, segments, isSilent] at h
  · next rest =>
    -- Behind a leading point the first segment is empty, so a slash follows the point.
    intro hfront
    cases htrim : trimSegments front with
    | nil =>
      rw [htrim] at hplain
      exact hplain
    | cons first others =>
      rw [htrim] at hfront hplain
      obtain rfl : first = [] := (List.cons_prefix_cons.mp hfront).1
      cases others with
      | nil =>
        have hsilent := isSilent_getLast_trimSegments (htrim.trans (List.nil_append [[]]).symm)
        exact absurd hsilent (by decide)
      | cons second others =>
        rw [← hplain]
        exact (movesOf_here_cons _).trans (movesOf_slash_cons _).symm
  · exact fun _ => hplain

/-! ## Parents and names -/

theorem parentOf?_of_trim_nil {s : List Char} (h : trimSegments (segments (splitLead s).2) = []) :
    parentOf? s = if (splitLead s).1 = .here then some [] else none := by
  rw [parentOf?]
  dsimp only
  rw [h]
  cases (splitLead s).1 <;> rfl

theorem parentOf?_of_trim {s : List Char} {front : List (List Char)} {last : List Char}
    (h : trimSegments (segments (splitLead s).2) = front ++ [last]) :
    parentOf? s = some ((splitLead s).1.text ++ unsegment (trimSegments front)) := by
  rw [parentOf?]
  dsimp only
  rw [h, List.dropLast_concat]
  simp

theorem fileNameOf?_of_trim {s : List Char} {front : List (List Char)} {last : List Char}
    (h : trimSegments (segments (splitLead s).2) = front ++ [last]) :
    fileNameOf? s = if last = ['.', '.'] then none else some last := by
  rw [fileNameOf?, h, List.getLast?_concat]

/-- A text has no last segment that is left, or the ones before it and that one. -/
theorem trim_cases (s : List Char) :
    trimSegments (segments (splitLead s).2) = [] ∨
      ∃ front last, trimSegments (segments (splitLead s).2) = front ++ [last] := by
  rcases List.eq_nil_or_concat (trimSegments (segments (splitLead s).2)) with h | ⟨front, last, h⟩
  · exact .inl h
  · exact .inr ⟨front, last, by rw [h, List.concat_eq_append]⟩

/-- The parent of a path has all its moves but the last; a path that says nothing has
only the empty one. -/
theorem movesOf_of_parentOf? {s parent : List Char} (h : parentOf? s = some parent) :
    movesOf s = [] ∧ parent = [] ∨ ∃ last, movesOf s = movesOf parent ++ [last] := by
  rcases trim_cases s with htrim | ⟨front, last, htrim⟩
  · rw [parentOf?_of_trim_nil htrim] at h
    split_ifs at h
    exact .inl ⟨movesOf_eq_nil_of_trim htrim, (Option.some.inj h).symm⟩
  · right
    refine ⟨last, ?_⟩
    rw [parentOf?_of_trim htrim, Option.some.injEq] at h
    rw [movesOf_eq_of_trim htrim, ← h, movesOf_lead_unsegment htrim]

/-- Where a path ends in a name, it has a parent, and the name is the move behind the
parent's moves. -/
theorem movesOf_of_fileNameOf? {s name : List Char} (h : fileNameOf? s = some name) :
    ∃ parent, parentOf? s = some parent ∧ movesOf s = movesOf parent ++ [name] := by
  rcases trim_cases s with htrim | ⟨front, last, htrim⟩
  · simp [fileNameOf?, htrim] at h
  · rw [fileNameOf?_of_trim htrim] at h
    split_ifs at h
    obtain rfl := Option.some.inj h
    refine ⟨_, parentOf?_of_trim htrim, ?_⟩
    rw [movesOf_eq_of_trim htrim, movesOf_lead_unsegment htrim]

theorem head?_unsegment_ne {s : List Char} {segs : List (List Char)} (h : segs <+: segments s)
    (hs : s.head? ≠ some '/') : (unsegment segs).head? ≠ some '/' := by
  cases segs with
  | nil => simp [unsegment]
  | cons first rest =>
    cases s with
    | nil =>
      obtain ⟨rfl, hrest⟩ := List.cons_prefix_cons.mp h
      rw [List.prefix_nil.mp hrest]
      simp [unsegment]
    | cons c cs =>
      have hc : ¬ c = '/' := by simpa using hs
      have hfirst : ∃ tail, first = c :: tail := by
        rw [segments, if_neg hc] at h
        split at h
        · exact ⟨[], (List.cons_prefix_cons.mp h).1⟩
        · exact ⟨_, (List.cons_prefix_cons.mp h).1⟩
      obtain ⟨tail, rfl⟩ := hfirst
      cases rest <;> simpa [unsegment] using hc

/-- A parent begins at the root exactly if its path does. -/
theorem head?_of_parentOf? {s parent : List Char} (h : parentOf? s = some parent) :
    parent.head? = some '/' ↔ s.head? = some '/' := by
  rcases trim_cases s with htrim | ⟨front, last, htrim⟩
  · rw [parentOf?_of_trim_nil htrim] at h
    split_ifs at h with hlead
    obtain rfl := Option.some.inj h
    revert hlead
    unfold splitLead
    split <;> simp
  · have hfront : trimSegments front <+: segments (splitLead s).2 :=
      ((trimSegments_prefix_self front).trans (List.prefix_append front [last])).trans
        (htrim ▸ trimSegments_prefix_self _)
    rw [parentOf?_of_trim htrim, Option.some.injEq] at h
    subst h
    revert hfront
    unfold splitLead
    split
    · exact fun _ => ⟨fun _ => rfl, fun _ => rfl⟩
    · exact fun _ => Iff.rfl
    · exact fun _ => ⟨nofun, nofun⟩
    · next hroot _ _ =>
      intro hfront
      have hs : s.head? ≠ some '/' := by
        cases s with
        | nil => exact nofun
        | cons c cs =>
          intro hc
          obtain rfl := Option.some.inj hc
          exact hroot cs rfl
      exact iff_of_false (head?_unsegment_ne hfront hs) hs

/-! ## The same on strings -/

/-- Whether a segment says nothing. -/
def silent (segment : String) : Bool := segment = "" || segment = "."

/-- The moves that a path asks for: its segments without those that say nothing. -/
def moves (p : String) : List String := (allSegments p).filter fun segment => !silent segment

theorem silent_ofList (s : List Char) : silent (String.ofList s) = isSilent s := by
  have hempty : String.ofList s = "" ↔ s = [] := by
    rw [← String.toList_inj]
    simp
  have hpoint : String.ofList s = "." ↔ s = ['.'] := by
    rw [← String.toList_inj]
    simp
  simp [silent, isSilent, hempty, hpoint]

theorem moves_eq (p : String) : moves p = (movesOf p.toList).map String.ofList := by
  rw [moves, allSegments, movesOf, List.filter_map]
  congr 2
  funext seg
  simp [silent_ofList]

theorem isAbsolute_eq_false_iff {p : String} :
    isAbsolute p = false ↔ p.toList.head? ≠ some '/' := by
  simp [isAbsolute]

/-- Continued by a path that begins at no root, a path has the moves of both. -/
theorem moves_join (base : String) {other : String} (h : isAbsolute other = false) :
    moves (join base other) = moves base ++ moves other := by
  rw [moves_eq, moves_eq, moves_eq, join, String.toList_ofList,
    movesOf_joinChars _ (isAbsolute_eq_false_iff.mp h), List.map_append]

/-- Continued by a path that begins at no root, a path begins where it did. -/
theorem isAbsolute_join (base : String) {other : String} (h : isAbsolute other = false) :
    isAbsolute (join base other) = isAbsolute base := by
  have hother := isAbsolute_eq_false_iff.mp h
  rw [isAbsolute, isAbsolute, join, String.toList_ofList]
  congr 1
  unfold joinChars
  split
  · next heq => simp [heq] at hother
  · split_ifs with hbase hlast
    · rw [hbase]
      simp [hother]
    · rw [List.head?_append_of_ne_nil _ hbase]
    · rw [List.head?_append_of_ne_nil _ hbase]

/-- The parent of a path has all its moves but the last; a path that says nothing has
only the empty one. -/
theorem moves_of_parent? {p parent : String} (h : parent? p = some parent) :
    moves p = [] ∧ parent = "" ∨ ∃ last, moves p = moves parent ++ [last] := by
  obtain ⟨s, hs, rfl⟩ := Option.map_eq_some_iff.mp h
  rw [moves_eq, moves_eq, String.toList_ofList]
  rcases movesOf_of_parentOf? hs with ⟨hnil, rfl⟩ | ⟨last, hlast⟩
  · exact .inl ⟨by rw [hnil]; rfl, rfl⟩
  · exact .inr ⟨String.ofList last, by rw [hlast, List.map_append]; rfl⟩

/-- A parent begins at the root exactly if its path does. -/
theorem isAbsolute_of_parent? {p parent : String} (h : parent? p = some parent) :
    isAbsolute parent = isAbsolute p := by
  obtain ⟨s, hs, rfl⟩ := Option.map_eq_some_iff.mp h
  rw [isAbsolute, isAbsolute, String.toList_ofList, Bool.eq_iff_iff]
  simpa using head?_of_parentOf? hs

/-- Where a path ends in a name, it has a parent, and the name is the move behind the
parent's moves. -/
theorem moves_of_fileName? {p name : String} (h : fileName? p = some name) :
    ∃ parent, parent? p = some parent ∧ moves p = moves parent ++ [name] := by
  obtain ⟨s, hs, rfl⟩ := Option.map_eq_some_iff.mp h
  obtain ⟨parent, hparent, hmoves⟩ := movesOf_of_fileNameOf? hs
  refine ⟨String.ofList parent, by rw [parent?, hparent]; rfl, ?_⟩
  rw [moves_eq, moves_eq, hmoves, List.map_append, String.toList_ofList]
  rfl

/-- A path does not end in two points where it ends in a name. -/
theorem ne_up_of_fileName? {p name : String} (h : fileName? p = some name) : name ≠ ".." := by
  obtain ⟨s, hs, rfl⟩ := Option.map_eq_some_iff.mp h
  rw [fileNameOf?] at hs
  split at hs
  · split_ifs at hs with hup
    rw [Option.some.inj hs] at hup
    intro hname
    apply hup
    rw [← String.toList_ofList (l := s), hname]
    rfl
  · cases hs

/-! ## Names and inner paths -/

/-- What can be the name of a file or directory. -/
structure IsName (name : String) : Prop where
  speaks : silent name = false
  not_up : name ≠ ".."
  slash_not_mem : '/' ∉ name.toList

instance (name : String) : Decidable (IsName name) :=
  decidable_of_iff (silent name = false ∧ name ≠ ".." ∧ '/' ∉ name.toList)
    ⟨fun ⟨hspeaks, hup, hslash⟩ => ⟨hspeaks, hup, hslash⟩,
      fun ⟨hspeaks, hup, hslash⟩ => ⟨hspeaks, hup, hslash⟩⟩

/-- A name is one move. -/
theorem IsName.moves_eq {name : String} (h : IsName name) : moves name = [name] := by
  have hspeaks : isSilent name.toList = false := by
    rw [← silent_ofList, String.ofList_toList]
    exact h.speaks
  rw [Path.moves_eq, movesOf_of_slash_not_mem h.slash_not_mem hspeaks]
  simp

/-- A name begins at no root. -/
theorem IsName.isAbsolute_eq {name : String} (h : IsName name) : isAbsolute name = false := by
  rw [isAbsolute_eq_false_iff]
  exact fun hhead => h.slash_not_mem (List.mem_of_head? hhead)

/-- Continued by a name, a path grows. -/
theorem IsName.utf8ByteSize_lt_join {name : String} (h : IsName name) (base : String) :
    base.utf8ByteSize < (join base name).utf8ByteSize := by
  have hname : 0 < name.utf8ByteSize := by
    rw [Nat.pos_iff_ne_zero, ne_eq, String.utf8ByteSize_eq_zero_iff]
    rintro rfl
    exact absurd h.speaks (by decide)
  have hslash := isAbsolute_eq_false_iff.mp h.isAbsolute_eq
  rw [join]
  unfold joinChars
  split
  · next heq => simp [heq] at hslash
  · split_ifs with hbase
    · obtain rfl : base = "" := by rw [← String.toList_inj, hbase]; rfl
      simpa using hname
    · rw [String.ofList_append, String.ofList_toList, String.ofList_toList,
        String.utf8ByteSize_append]
      exact Nat.lt_add_of_pos_right hname
    · rw [String.ofList_append, String.ofList_toList, String.utf8ByteSize_append,
        ← List.singleton_append, String.ofList_append, String.utf8ByteSize_append,
        String.ofList_toList]
      omega

/-- A segment of a path that says something and does not lead upwards is a name. -/
theorem isName_of_mem_allSegments {p segment : String} (h : segment ∈ allSegments p)
    (hspeaks : silent segment = false) (hup : segment ≠ "..") : IsName segment := by
  obtain ⟨s, hs, rfl⟩ := List.mem_map.mp h
  refine ⟨hspeaks, hup, ?_⟩
  rw [String.toList_ofList]
  exact slash_not_mem_of_mem_segments hs

theorem isInner_iff_not_mem (p : String) :
    isInner p = true ↔ .root ∉ components p ∧ .up ∉ components p := by
  have hall : isInner p = true ↔ ∀ c ∈ components p, c ≠ .root ∧ c ≠ .up := by
    rw [isInner, List.all_eq_true]
    refine forall₂_congr fun c _ => ?_
    cases c <;> simp
  rw [hall]
  exact ⟨fun h => ⟨fun hc => (h _ hc).1 rfl, fun hc => (h _ hc).2 rfl⟩,
    fun h c hc => ⟨fun hroot => h.1 (hroot ▸ hc), fun hup => h.2 (hup ▸ hc)⟩⟩

theorem component?_eq_up_iff {seg : List Char} : component? seg = some .up ↔ seg = ['.', '.'] := by
  unfold component?
  split_ifs with hsilent hup
  · refine iff_of_false nofun ?_
    rintro rfl
    exact absurd hsilent (by decide)
  · exact iff_of_true rfl hup
  · simp [hup]

theorem component?_ne_root (seg : List Char) : component? seg ≠ some .root := by
  unfold component?
  split_ifs <;> simp

theorem up_mem_filterMap_iff {segs : List (List Char)} :
    .up ∈ segs.filterMap component? ↔ ['.', '.'] ∈ segs := by
  simp [List.mem_filterMap, component?_eq_up_iff]

theorem root_not_mem_filterMap (segs : List (List Char)) :
    .root ∉ segs.filterMap component? := by
  simp [List.mem_filterMap, component?_ne_root]

theorem root_mem_componentsOf_iff (s : List Char) :
    .root ∈ componentsOf s ↔ s.head? = some '/' := by
  rw [componentsOf]
  simp only [List.mem_append, root_not_mem_filterMap, or_false]
  unfold splitLead
  split
  · simp [Lead.component?]
  · simp [Lead.component?]
  · simp [Lead.component?]
  · next hroot _ _ =>
    refine iff_of_false (by simp [Lead.component?]) fun hhead => ?_
    obtain ⟨rest, rfl⟩ := List.head?_eq_some_iff.mp hhead
    exact hroot rest rfl

theorem up_mem_componentsOf_iff (s : List Char) :
    .up ∈ componentsOf s ↔ ['.', '.'] ∈ segments s := by
  rw [componentsOf]
  simp only [List.mem_append, up_mem_filterMap_iff]
  unfold splitLead
  split
  · simp [Lead.component?, segments]
  · simp [Lead.component?, segments]
  · simp [Lead.component?, segments]
  · simp [Lead.component?]

/-- A path is inner exactly if it begins at no root and none of its segments leads
upwards. -/
theorem isInner_iff (p : String) :
    isInner p = true ↔ isAbsolute p = false ∧ ".." ∉ allSegments p := by
  have hup : ".." ∈ allSegments p ↔ ['.', '.'] ∈ segments p.toList := by
    rw [allSegments, List.mem_map]
    constructor
    · rintro ⟨seg, hseg, heq⟩
      have : seg = ['.', '.'] := by
        rw [← String.toList_ofList (l := seg), heq]
        rfl
      exact this ▸ hseg
    · exact fun h => ⟨_, h, rfl⟩
  rw [isInner_iff_not_mem, components, root_mem_componentsOf_iff, up_mem_componentsOf_iff, hup,
    isAbsolute_eq_false_iff]

end PluginChain.Path
