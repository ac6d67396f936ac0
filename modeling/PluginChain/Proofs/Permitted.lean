import PluginChain.Proofs.PathEnds
import PluginChain.Proofs.ReadBack
set_option autoImplicit false

/-!
# Operations that nothing hinders

A path is permitted if it can be a path and its moves can be names.  Beyond that an operation
fails only for what stands in the tree: a way of directories can be followed, and one that
goes through no file leads to a directory or to nothing.  So directories are made, with those
above them that are missing, as long as no file is in their way (`makeDirs_ok`), and
a file is opened where no directory is (`openForWriting_ok`).
-/

namespace PluginChain

namespace FileSystem

open PluginChain.Path (moves silent)

variable {fs fs' : FileSystem} {allowed : List String → Prop} {P Q R : List String}
  {path source target name : String}

theorem checkPath_eq_ok_iff :
    fs.checkPath path = .ok () ↔
      Char.ofNat 0 ∉ path.toList ∧ path ≠ "" ∧ path.utf8ByteSize < fs.pathMax := by
  unfold checkPath
  split_ifs with hnul hempty hlong
  · simpa using fun hnot => absurd (by simpa using hnul) hnot
  · simp [hempty]
  · simp [Nat.not_lt.mpr hlong]
  · exact iff_of_true rfl ⟨by simpa using hnul, hempty, Nat.lt_of_not_le hlong⟩

/-- The path can be a path, and its moves can be names. -/
structure Permits (fs : FileSystem) (path : String) : Prop where
  check : fs.checkPath path = .ok ()
  short : ∀ m ∈ moves path, m.utf8ByteSize ≤ fs.nameMax

instance (fs : FileSystem) (path : String) : Decidable (fs.Permits path) :=
  decidable_of_iff ((Char.ofNat 0 ∉ path.toList ∧ path ≠ "" ∧ path.utf8ByteSize < fs.pathMax) ∧
      ∀ m ∈ moves path, m.utf8ByteSize ≤ fs.nameMax)
    ⟨fun ⟨hcheck, hshort⟩ => ⟨checkPath_eq_ok_iff.mpr hcheck, hshort⟩,
      fun ⟨hcheck, hshort⟩ => ⟨checkPath_eq_ok_iff.mp hcheck, hshort⟩⟩

theorem Permits.of_changes (h : fs.Permits path) (hchanges : Changes allowed fs fs') :
    fs'.Permits path := by
  refine ⟨(hchanges.checkPath_eq path).trans h.check, ?_⟩
  rw [hchanges.nameMax_eq]
  exact h.short

/-- The parent of a path that is permitted is empty or permitted. -/
theorem Permits.parent {parent : String} (h : fs.Permits path)
    (hparent : Path.parent? path = some parent) : parent = "" ∨ fs.Permits parent := by
  by_cases hempty : parent = ""
  · exact .inl hempty
  · refine .inr ⟨?_, fun m hm => h.short m ?_⟩
    · obtain ⟨rest, rfl⟩ := Path.exists_append_of_parent? hparent
      obtain ⟨hnul, -, hlong⟩ := checkPath_eq_ok_iff.mp h.check
      rw [String.toList_append, List.mem_append, not_or] at hnul
      rw [String.utf8ByteSize_append] at hlong
      exact checkPath_eq_ok_iff.mpr
        ⟨hnul.1, hempty, Nat.lt_of_le_of_lt (Nat.le_add_right _ _) hlong⟩
    · rcases Path.moves_of_parent? hparent with ⟨-, rfl⟩ | ⟨last, hlast⟩
      · exact absurd rfl hempty
      · rw [hlast]
        exact List.mem_append_left _ hm

/-! ## Following segments -/

theorem enter_of_isDirAt {segment : String} (hdir : fs.IsDirAt P)
    (hshort : silent segment = false → segment.utf8ByteSize ≤ fs.nameMax) :
    fs.enter (fs.look P) segment =
      .ok (fs.look (if silent segment then P else move P segment)) := by
  obtain ⟨children, hchildren⟩ := hdir
  have hsilent : silent segment = true ↔ segment = "" ∨ segment = "." := by simp [silent]
  unfold enter
  simp only [look, hchildren, hsilent, move]
  split_ifs with hs hup hlong
  · rw [hchildren]
  · rfl
  · have hspeaks : silent segment = false := by rwa [← Bool.not_eq_true, hsilent]
    exact absurd (hshort hspeaks) (Nat.not_le.mpr hlong)
  · rw [Node.at?_append, hchildren, Option.bind_some, Node.at?_singleton]
    rfl

theorem enter_here (hdir : fs.IsDirAt P) : fs.enter (fs.look P) "." = .ok (fs.look P) := by
  rw [enter_of_isDirAt hdir fun hspeaks => absurd hspeaks (by decide)]
  rfl

/-- Segments lead to where their moves do, if no file is on the way; where a directory is
missing they cannot be followed further. -/
theorem follow_cases {segments : List String}
    (hshort : ∀ s ∈ segments, silent s = false → s.utf8ByteSize ≤ fs.nameMax)
    (hclear : ∀ k, k <+: segments.filter (fun s => !silent s) → ∀ bytes,
      fs.root.at? (walk P k) ≠ some (.file bytes)) :
    fs.follow (fs.look P) segments = .ok (fs.look (walk P (segments.filter fun s => !silent s))) ∨
      fs.follow (fs.look P) segments = .error .notFound ∧
        ¬ fs.Goes P (segments.filter fun s => !silent s) := by
  induction segments generalizing P with
  | nil => exact .inl rfl
  | cons segment rest ih =>
    obtain ⟨hsegment, hrest⟩ := List.forall_mem_cons.mp hshort
    rw [follow]
    cases hP : fs.root.at? P with
    | none =>
      right
      refine ⟨by simp [enter, look, hP], fun hgoes => ?_⟩
      obtain ⟨children, hchildren⟩ := hgoes.isDirAt_start
      rw [hP] at hchildren
      cases hchildren
    | some n =>
      cases n with
      | file bytes => exact absurd hP (hclear [] List.nil_prefix bytes)
      | dir children =>
        rw [enter_of_isDirAt ⟨children, hP⟩ hsegment]
        dsimp only
        by_cases hs : silent segment = true
        · rw [List.filter_cons_of_neg (by simp [hs])] at hclear ⊢
          rw [if_pos hs]
          exact ih hrest hclear
        · rw [List.filter_cons_of_pos (by simp [hs])] at hclear ⊢
          rw [if_neg hs]
          have hclear' (k : List String) (hk : k <+: rest.filter fun s => !silent s) :=
            hclear (segment :: k) (List.cons_prefix_cons.mpr ⟨rfl, hk⟩)
          rcases @ih (move P segment) hrest hclear' with hok | ⟨herr, hnot⟩
          · exact .inl hok
          · refine .inr ⟨herr, fun hgoes => hnot fun k hk => ?_⟩
            exact hgoes (segment :: k) (List.cons_prefix_cons.mpr ⟨rfl, hk⟩)

/-- A way of directories is followed. -/
theorem follow_of_goes {segments : List String}
    (hshort : ∀ s ∈ segments, silent s = false → s.utf8ByteSize ≤ fs.nameMax)
    (h : fs.Goes P (segments.filter fun s => !silent s)) :
    fs.follow (fs.look P) segments =
      .ok (fs.look (walk P (segments.filter fun s => !silent s))) := by
  refine (follow_cases hshort fun k hk bytes hfile => ?_).resolve_right fun hnot => hnot.2 h
  obtain ⟨children, hchildren⟩ := h k hk
  rw [hfile] at hchildren
  cases hchildren

theorem Permits.short_steps (h : fs.Permits path) {segment : String} (hmem : segment ∈ steps path)
    (hspeaks : silent segment = false) : segment.utf8ByteSize ≤ fs.nameMax := by
  apply h.short
  rw [← filter_steps]
  exact List.mem_filter.mpr ⟨hmem, by simp [hspeaks]⟩

/-! ## Paths that lead to directories -/

theorem reach_of_goes (h : fs.Permits path) (hgoes : fs.Goes (fs.start path) (moves path)) :
    fs.reach path = .ok (fs.look (fs.place path)) := by
  rw [reach, h.check, origin_eq]
  rw [← filter_steps] at hgoes
  exact (follow_of_goes (fun _ => h.short_steps) hgoes).trans (by rw [filter_steps]; rfl)

theorem isDir_of_goes (h : fs.Permits path) (hgoes : fs.Goes (fs.start path) (moves path)) :
    fs.isDir path = true := by
  obtain ⟨children, hchildren⟩ := hgoes.isDirAt
  change fs.root.at? (fs.place path) = _ at hchildren
  rw [isDir, stat, reach_of_goes h hgoes]
  simp only [look, hchildren]

/-! ## Paths that end in a name -/

theorem splitLast_concat (hspeaks : silent name = false) (hup : name ≠ "..")
    (before : List String) : splitLast (before ++ [name]) = (before, .name name false) := by
  have hne : ¬ (name = "" ∨ name = ".") := by simpa [silent] using hspeaks
  obtain ⟨hempty, hpoint⟩ := not_or.mp hne
  have htrim : ((before ++ [name]).reverse.dropWhile (· = "")).reverse = before ++ [name] := by
    rw [List.reverse_append, List.reverse_singleton, List.singleton_append,
      List.dropWhile_cons_of_neg (by simpa using hempty), List.reverse_cons, List.reverse_reverse]
  unfold splitLast
  rw [htrim]
  simp [hpoint, hup]

/-- What stands before the last segment stands first. -/
theorem splitLast_prefix (segments : List String) : (splitLast segments).1 <+: segments := by
  obtain ⟨slashes, -, hsegments⟩ := exists_empty_segments segments
  have htrim := hsegments ▸ List.prefix_append _ slashes
  unfold splitLast
  generalize (segments.reverse.dropWhile (· = "")).reverse = trimmed at htrim
  dsimp only
  split
  · exact List.nil_prefix
  · split_ifs
    · exact (List.dropLast_prefix trimmed).trans htrim
    · exact (List.dropLast_prefix trimmed).trans htrim

/-- What stands before the name that a path opens leads to the directory for it. -/
theorem follow_of_opens (h : fs.Permits path) (hends : EndsIn path name)
    (hopens : fs.Opens path P name) :
    ∃ before, steps path = before ++ [name] ∧
      fs.follow (fs.look (fs.start path)) before = .ok (fs.look P) := by
  obtain ⟨before, hsteps, hmoves⟩ := hends.moves_eq
  obtain ⟨ms, hms, hgoes, rfl⟩ := hopens.way
  obtain ⟨rfl, -⟩ := List.append_inj' (hms.symm.trans hmoves) rfl
  exact ⟨before, hsteps, follow_of_goes
    (fun s hs => h.short_steps (hsteps ▸ List.mem_append_left _ hs)) hgoes⟩

/-- A path that ends in a name and opens it leads to the directory for it. -/
theorem reachParent_of_opens (h : fs.Permits path) (hends : EndsIn path name)
    (hopens : fs.Opens path P name) :
    fs.reachParent path = .ok (fs.look P, .name name false) := by
  obtain ⟨before, hsteps, hfollow⟩ := follow_of_opens h hends hopens
  unfold reachParent
  rw [h.check, hsteps, splitLast_concat hopens.isName.speaks hopens.isName.not_up, origin_eq]
  dsimp only
  rw [hfollow]

theorem enter_of_opens (h : fs.Permits path) (hopens : fs.Opens path P name) :
    fs.enter (fs.look P) name = .ok (fs.look (P ++ [name])) := by
  obtain ⟨ms, hms, -, -⟩ := hopens.way
  have hshort : name.utf8ByteSize ≤ fs.nameMax := h.short name (by simp [hms])
  rw [enter_of_isDirAt hopens.isDirAt fun _ => hshort, if_neg (by simp [hopens.isName.speaks]),
    move, if_neg hopens.isName.not_up]

theorem reach_of_opens (h : fs.Permits path) (hends : EndsIn path name)
    (hopens : fs.Opens path P name) : fs.reach path = .ok (fs.look (P ++ [name])) := by
  obtain ⟨before, hsteps, hfollow⟩ := follow_of_opens h hends hopens
  rw [reach, h.check, origin_eq]
  dsimp only
  rw [hsteps, follow_append, hfollow]
  dsimp only [follow]
  rw [enter_of_opens h hopens]

/-- Below a directory that is led to, a name can be opened. -/
theorem opens_join (hgoes : fs.Goes (fs.start path) (moves path)) (hname : Path.IsName name) :
    fs.Opens (Path.join path name) (fs.place path) name := by
  have hstart : fs.start (Path.join path name) = fs.start path := by
    rw [start, start, Path.isAbsolute_join path hname.isAbsolute_eq]
  refine ⟨hname, moves path, ?_, ?_, ?_⟩
  · rw [Path.moves_join path hname.isAbsolute_eq, hname.moves_eq]
  · rwa [hstart]
  · rw [hstart, place]

/-- A directory is made where nothing is. -/
theorem makeDir_of_opens (h : fs.Permits path) (hends : EndsIn path name)
    (hopens : fs.Opens path P name) (hnone : fs.root.at? (P ++ [name]) = none) :
    fs.makeDir path = .ok (fs.put (P ++ [name]) .emptyDir) := by
  rw [makeDir, reachParent_of_opens h hends hopens]
  dsimp only
  rw [enter_of_opens h hopens, look, hnone]

/-- A file is opened where no directory is. -/
theorem openForWriting_of_opens (h : fs.Permits path) (hends : EndsIn path name)
    (hopens : fs.Opens path P name) (hfree : ¬ fs.IsDirAt (P ++ [name])) :
    fs.openForWriting path =
      .ok (P ++ [name], fs.put (P ++ [name]) (.file ByteArray.empty)) := by
  rw [openForWriting, reachParent_of_opens h hends hopens]
  dsimp only
  rw [enter_here hopens.isDirAt, enter_of_opens h hopens]
  simp only [Bool.false_eq_true, if_false, look]
  cases hat : fs.root.at? (P ++ [name]) with
  | none => rfl
  | some n =>
    cases n with
    | file bytes => rfl
    | dir children => exact absurd ⟨children, hat⟩ hfree

/-- A directory that is there cannot be made. -/
theorem makeDir_of_goes (h : fs.Permits path) (hgoes : fs.Goes (fs.start path) (moves path)) :
    fs.makeDir path = .error .alreadyExists := by
  have hpre := splitLast_prefix (steps path)
  unfold makeDir reachParent
  rw [h.check, origin_eq]
  generalize hsplit : splitLast (steps path) = parts at hpre
  obtain ⟨before, last⟩ := parts
  have hmoves : before.filter (fun s => !silent s) <+: moves path := by
    rw [← filter_steps]
    exact hpre.filter _
  have hbefore : fs.Goes (fs.start path) (before.filter fun s => !silent s) :=
    fun k hk => hgoes k (hk.trans hmoves)
  dsimp only
  rw [follow_of_goes (fun s hs => h.short_steps (hpre.subset hs)) hbefore]
  dsimp only
  cases last with
  | special =>
    dsimp only
    rw [enter_here hbefore.isDirAt]
  | name s slashed =>
    obtain ⟨hfilter, hmem, hspeaks, hup⟩ := splitLast_eq_name hsplit
    rw [filter_steps] at hfilter
    obtain ⟨children, hchildren⟩ := hgoes.isDirAt
    rw [hfilter, walk_append, walk_cons, walk_nil] at hchildren
    dsimp only
    rw [enter_of_isDirAt hbefore.isDirAt fun _ => h.short_steps hmem hspeaks,
      if_neg (by simp [hspeaks]), look, hchildren]

theorem at?_eq_none_of_not_isDirAt (hfile : ∀ bytes, fs.root.at? P ≠ some (.file bytes))
    (hdir : ¬ fs.IsDirAt P) : fs.root.at? P = none := by
  cases hat : fs.root.at? P with
  | none => rfl
  | some n =>
    cases n with
    | file bytes => exact absurd hat (hfile bytes)
    | dir children => exact absurd ⟨children, hat⟩ hdir

/-- Below a directory that is missing no other can be made. -/
theorem makeDir_of_missing {ms : List String} (h : fs.Permits path) (hends : EndsIn path name)
    (hup : name ≠ "..") (hmoves : moves path = ms ++ [name])
    (hclear : ∀ k, k <+: ms → ∀ bytes, fs.root.at? (walk (fs.start path) k) ≠ some (.file bytes))
    (hmissing : ¬ fs.IsDirAt (walk (fs.start path) ms)) :
    fs.makeDir path = .error .notFound := by
  obtain ⟨before, hsteps, hmoves'⟩ := hends.moves_eq
  obtain ⟨-, -, hspeaks⟩ := hends
  obtain ⟨rfl, -⟩ := List.append_inj' (hmoves.symm.trans hmoves') rfl
  unfold makeDir reachParent
  rw [h.check, origin_eq, hsteps, splitLast_concat hspeaks hup]
  dsimp only
  rcases follow_cases (fun s hs => h.short_steps (hsteps ▸ List.mem_append_left _ hs)) hclear with
    hfollow | ⟨hfollow, -⟩
  · have hnone := at?_eq_none_of_not_isDirAt (hclear _ List.prefix_rfl) hmissing
    rw [hfollow]
    simp [enter, look, hnone]
  · rw [hfollow]

/-! ## Ways without files -/

/-- Nothing stands behind the last move of the path. -/
def Trimmed (path : String) : Prop := moves path = [] ∨ ∃ last, EndsIn path last

/-- No file stands at the place or above it. -/
def Clear (fs : FileSystem) (P : List String) : Prop :=
  ∀ q, q <+: P → ∀ bytes, fs.root.at? q ≠ some (.file bytes)

/-- Where an anchored path means a directory, its whole way is through directories. -/
theorem Anchored.goes (h : fs.Anchored R path) (hdir : fs.IsDirAt (fs.place path)) :
    fs.Goes (fs.start path) (moves path) := by
  intro k hk
  rcases h.way_cases hk with hgoes | ⟨-, hpre⟩
  · exact hgoes
  · exact hdir.of_prefix hpre

/-- Where no file stands above the place of an anchored path, none is on its way. -/
theorem Anchored.clear {k : List String} (h : fs.Anchored R path)
    (hclear : fs.Clear (fs.place path)) (hk : k <+: moves path) (bytes : ByteArray) :
    fs.root.at? (walk (fs.start path) k) ≠ some (.file bytes) := by
  rcases h.way_cases hk with ⟨children, hchildren⟩ | ⟨-, hpre⟩
  · rw [hchildren]
    simp
  · exact hclear _ hpre bytes

/-- The path consists of an anchored parent and a name. -/
structure Splits (fs : FileSystem) (R : List String) (path parent name : String) : Prop where
  parent_eq : Path.parent? path = some parent
  anchored : fs.Anchored R parent
  moves_eq : moves path = moves parent ++ [name]
  endsIn : EndsIn path name
  isName : Path.IsName name

/-- An anchored path that means no directory consists of an anchored parent and a name. -/
theorem Anchored.splits (h : fs.Anchored R path) (htrimmed : Trimmed path)
    (hfree : ¬ fs.IsDirAt (fs.place path)) : ∃ parent name, fs.Splits R path parent name := by
  obtain ⟨before, after, hmoves, hup, hgoes, hwalk⟩ := h.way
  rcases List.eq_nil_or_concat' after with rfl | ⟨front, name, rfl⟩
  · rw [List.append_nil] at hmoves
    rw [place, hmoves] at hfree
    exact absurd hgoes.isDirAt hfree
  · rw [← List.append_assoc] at hmoves
    obtain ⟨parent, last, hparent, hlast⟩ : ∃ parent last, Path.parent? path = some parent ∧
        moves path = moves parent ++ [last] := Path.exists_parent? (by simp [hmoves])
    obtain ⟨hfront, hname⟩ := List.append_inj' (hlast.symm.trans hmoves) rfl
    obtain rfl : last = name := List.singleton_inj.mp hname
    have hstart : fs.start parent = fs.start path := by
      rw [start, start, Path.isAbsolute_of_parent? hparent]
    have hends : EndsIn path last := by
      rcases htrimmed with hnil | ⟨s, hs⟩
      · rw [hnil] at hmoves
        exact absurd hmoves (by simp)
      · obtain ⟨ms, -, hms⟩ := hs.moves_eq
        obtain ⟨-, hsame⟩ := List.append_inj' (hms.symm.trans hlast) rfl
        exact List.singleton_inj.mp hsame ▸ hs
    have hname : Path.IsName last := by
      obtain ⟨ms, hsteps, hspeaks⟩ := hends
      have hmem : last ∈ steps path := hsteps ▸ List.mem_append_right ms List.mem_cons_self
      exact Path.isName_of_mem_allSegments (mem_allSegments_of_mem_steps hmem) hspeaks
        fun heq => hup (by simp [heq])
    have hanchored : fs.Anchored R parent := by
      refine ⟨before, front, hfront, fun hmem => hup (List.mem_append_left _ hmem), ?_, ?_⟩
      · rwa [hstart]
      · rwa [hstart]
    exact ⟨parent, last, hparent, hanchored, hlast, hends, hname⟩

namespace Splits

variable {parent : String}

theorem start_eq (h : fs.Splits R path parent name) : fs.start parent = fs.start path := by
  rw [start, start, Path.isAbsolute_of_parent? h.parent_eq]

theorem place_eq (h : fs.Splits R path parent name) :
    fs.place path = fs.place parent ++ [name] := by
  rw [place, place, h.moves_eq, walk_append, h.start_eq,
    walk_of_up_not_mem _ (by simpa using h.isName.not_up.symm)]

/-- The name can be opened where the way to the parent goes through directories. -/
theorem opens (h : fs.Splits R path parent name) (hchanges : Changes allowed fs fs')
    (hgoes : fs'.Goes (fs'.start parent) (moves parent)) :
    fs'.Opens path (fs.place parent) name := by
  refine ⟨h.isName, moves parent, h.moves_eq, ?_, ?_⟩
  · rwa [hchanges.start_eq, ← h.start_eq, ← hchanges.start_eq]
  · rw [hchanges.start_eq, ← h.start_eq]
    rfl

theorem clear (h : fs.Splits R path parent name) (hclear : fs.Clear (fs.place path)) :
    fs.Clear (fs.place parent) := by
  intro q hq
  apply hclear q
  rw [h.place_eq]
  exact hq.trans (List.prefix_append _ _)

/-- A directory that is not there is made in one that is. -/
theorem makeDir_ok (h : fs.Splits R path parent name) (hpath : fs.Permits path)
    (hchanges : Changes allowed fs fs') (hgoes : fs'.Goes (fs'.start parent) (moves parent))
    (hnone : fs'.root.at? (fs.place path) = none) : ∃ made, fs'.makeDir path = .ok made := by
  rw [h.place_eq] at hnone
  exact ⟨_, makeDir_of_opens (hpath.of_changes hchanges) h.endsIn (h.opens hchanges hgoes) hnone⟩

/-- A directory is not made in one that is missing. -/
theorem makeDir_eq_notFound (h : fs.Splits R path parent name) (hpath : fs.Permits path)
    (hclear : fs.Clear (fs.place path)) (hmissing : ¬ fs.IsDirAt (fs.place parent)) :
    fs.makeDir path = .error .notFound := by
  apply makeDir_of_missing hpath h.endsIn h.isName.not_up h.moves_eq
  · rw [← h.start_eq]
    exact fun k hk => h.anchored.clear (h.clear hclear) hk
  · rwa [← h.start_eq]

end Splits

/-! ## Making directories -/

/-- A directory that is there is fine. -/
theorem makeChain_of_isDirAt (h : fs.Anchored R path) (hpermits : path = "" ∨ fs.Permits path)
    (hdir : fs.IsDirAt (fs.place path)) (above : List String) :
    fs.makeChain (path :: above) = (.ok (), fs) := by
  rw [makeChain]
  by_cases hempty : path = ""
  · rw [if_pos hempty]
  · have hpath := hpermits.resolve_left hempty
    have hgoes := h.goes hdir
    rw [if_neg hempty, makeDir_of_goes hpath hgoes]
    dsimp only
    rw [if_neg (by decide), isDir_of_goes hpath hgoes]
    rfl

/-- A directory that can be made once those above it are there is made. -/
theorem makeChain_of_above {above : List String} {between made : FileSystem} (hne : path ≠ "")
    (hmissing : fs.makeDir path = .error .notFound)
    (habove : fs.makeChain above = (.ok (), between)) (hmade : between.makeDir path = .ok made) :
    fs.makeChain (path :: above) = (.ok (), made) := by
  rw [makeChain, if_neg hne, hmissing]
  dsimp only
  rw [if_pos rfl, habove]
  dsimp only
  rw [hmade]

/-- A chain of directories is made if no file is in its way.  The induction goes upwards: it
ends at the latest at the directory in which the path is anchored. -/
theorem makeChain_ok {n : Nat} (h : fs.Anchored R path) (hpermits : path = "" ∨ fs.Permits path)
    (htrimmed : Trimmed path) (hclear : fs.Clear (fs.place path)) (hn : (moves path).length ≤ n) :
    ∃ fs', fs.makeChain (ancestors n path) = (.ok (), fs') := by
  induction n generalizing path with
  | zero =>
    have hplace : fs.place path = fs.start path := by
      rw [place, List.length_eq_zero_iff.mp (Nat.le_zero.mp hn), walk_nil]
    exact ⟨fs, makeChain_of_isDirAt h hpermits (hplace ▸ h.isDirAt_start) []⟩
  | succ n ih =>
    by_cases hdir : fs.IsDirAt (fs.place path)
    · obtain ⟨above, habove⟩ := exists_ancestors_eq (n + 1) path
      exact ⟨fs, habove ▸ makeChain_of_isDirAt h hpermits hdir above⟩
    · obtain ⟨parent, name, hsplits⟩ := h.splits htrimmed hdir
      have hmoves := congrArg List.length hsplits.moves_eq
      rw [List.length_append, List.length_singleton] at hmoves
      have hne : path ≠ "" := by
        rintro rfl
        exact absurd hmoves (Nat.zero_ne_add_one _)
      have hpath := hpermits.resolve_left hne
      have hnone := at?_eq_none_of_not_isDirAt (hclear _ List.prefix_rfl) hdir
      have hchain : ancestors (n + 1) path = path :: ancestors n parent := by
        rw [ancestors, hsplits.parent_eq]
      rw [hchain]
      by_cases hparentDir : fs.IsDirAt (fs.place parent)
      · obtain ⟨made, hmade⟩ := hsplits.makeDir_ok hpath (.refl fs : Changes (fun _ => True) fs fs)
          (hsplits.anchored.goes hparentDir) hnone
        exact ⟨made, by rw [makeChain, if_neg hne, hmade]⟩
      · obtain ⟨between, hbetween⟩ := ih hsplits.anchored (hpath.parent hsplits.parent_eq)
          (endsIn_parent hsplits.parent_eq) (hsplits.clear hclear) (by omega)
        have hchanges : Changes (fs.OnWay R parent) fs (fs.makeChain (ancestors n parent)).2 :=
          changes_makeChain fun c hc =>
            hsplits.anchored.isDirAt_or_below (of_mem_ancestors hc).1 (of_mem_ancestors hc).2
        obtain ⟨above, habove⟩ := exists_ancestors_eq n parent
        have hgoes := goes_of_makeChain hsplits.anchored.isDirAt_start (habove ▸ hbetween)
        rw [hbetween] at hchanges
        -- The directories that were made are above the path, so there is room for it still.
        have hstill : between.root.at? (fs.place path) = none := by
          refine hchanges.eq_none hnone fun hway => ?_
          have hlength := hway.2.length_le
          rw [hsplits.place_eq, List.length_append, List.length_singleton] at hlength
          omega
        obtain ⟨made, hmade⟩ := hsplits.makeDir_ok hpath hchanges hgoes hstill
        exact ⟨made, makeChain_of_above hne
          (hsplits.makeDir_eq_notFound hpath hclear hparentDir) hbetween hmade⟩

/-- A directory is made, with those above it, if no file is in its way. -/
theorem makeDirs_ok (h : fs.Anchored R path) (hpermits : path = "" ∨ fs.Permits path)
    (htrimmed : Trimmed path) (hclear : fs.Clear (fs.place path)) :
    ∃ fs', fs.makeDirs path = (.ok (), fs') :=
  makeChain_ok h hpermits htrimmed hclear (Path.length_moves_le path)

/-! ## Copying files -/

/-- A file is copied where its source is led to and its target is opened, if nothing is
broken off. -/
theorem copyFile_ok {found : Reached} {opened : FileSystem} (hfs : fs.Unbroken)
    (hreach : fs.reach source = .ok found) (hthere : found.node? ≠ none)
    (hopen : fs.openForWriting target = .ok (P, opened)) :
    ∃ fs', fs.copyFile source target = (.ok (), fs') := by
  obtain ⟨rfl, hwrites⟩ := writes_of_openForWriting hopen
  have hopened : opened.Unbroken :=
    (Changes.single (hwrites.change_opened (fun _ => True) trivial)).unbroken hfs
  rw [copyFile, hreach]
  dsimp only
  cases hnode : found.node? with
  | none => exact absurd hnode hthere
  | some n =>
    dsimp only
    rw [hopen]
    dsimp only
    split
    · exact ⟨_, fill_of_unbroken hopened _ _⟩
    · exact ⟨_, rfl⟩

end FileSystem

end PluginChain
