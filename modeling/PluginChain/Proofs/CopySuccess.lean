import PluginChain.Proofs.ListingOrder
import PluginChain.Proofs.Permitted
import PluginChain.Proofs.TreeOverlay
set_option autoImplicit false

/-!
# Copies that succeed

A copy is ready if nothing but the length of its paths could hinder it: every path in it is
permitted, no write is broken off, and nowhere do a file and a directory meet, neither where
it puts something nor on the way there.  A copy that is ready succeeds.  The induction is on
the depth; among the names of a directory, a copy that is ready for one of them stays so
while others are copied, as these put nothing where it reads or writes.
-/

namespace PluginChain.OutputDir

open FileSystem (Anchored Below Changes Clear EndsIn Permits)

variable {fs fs' : FileSystem} {R S T : List String} {source target name : String}
  {st : Copying} {n c : Node} {children : List (String × Node)} {order : ListingOrder}
  {copy : String → String → Copying → Except Fault Unit × Copying}
  {arrange : List String → List String}

/-- A path continued by names, one after the other. -/
def along (base : String) (names : List String) : String := names.foldl Path.join base

/-- A copy of a tree that nothing hinders. -/
structure Ready (n : Node) (fs : FileSystem) (R : List String) (source target : String)
    (S T : List String) : Prop extends Filling (treeShape n) fs R source target S T where
  apart (q : List String) (hq : Fills R (treeShape n) T q) : ¬ S <+: q
  stat_eq : fs.stat source = .ok n
  unbroken : fs.Unbroken
  permits (p : List String) (hp : n.at? p ≠ none) :
    fs.Permits (along source p) ∧ fs.Permits (along target p)
  ends : ∃ name, Path.IsName name ∧ EndsIn target name
  agrees : n.Agrees (fs.root.at? T)
  above (q : List String) (hq : Below q T) (bytes : ByteArray) :
    fs.root.at? q ≠ some (.file bytes)

/-! ## Single calls -/

theorem copyNode_of_file {bytes : ByteArray} {files copied : FileSystem}
    (hstat : st.files.stat source = .ok (.file bytes))
    (hparent : makeParent target st.files = (.ok (), files))
    (hcopy : files.copyFile source target = (.ok (), copied)) :
    copyNode copy arrange source target st = (.ok (), ⟨copied, st.visited + 1⟩) := by
  rw [copyNode]
  dsimp only
  rw [hstat]
  dsimp only
  rw [hparent]
  dsimp only
  rw [hcopy]

theorem copyNode_of_dir {files : FileSystem} {names : List String}
    (hstat : st.files.stat source = .ok (.dir children))
    (hmade : st.files.makeDirs target = (.ok (), files)) (hlist : files.list source = .ok names) :
    copyNode copy arrange source target st =
      copyEntries copy source target (arrange names) ⟨files, st.visited + 1⟩ := by
  rw [copyNode]
  dsimp only
  rw [hstat]
  dsimp only
  rw [hmade]
  dsimp only
  rw [hlist]

/-- Going through names succeeds if copying each does, as long as what is needed for those
that are left is kept. -/
theorem copyEntries_ok {names : List String} (keeps : List String → Copying → Prop)
    (hstep : ∀ name rest st, keeps (name :: rest) st →
      ∃ next, copy (Path.join source name) (Path.join target name) st = (.ok (), next) ∧
        keeps rest next)
    (h : keeps names st) : ∃ done, copyEntries copy source target names st = (.ok (), done) := by
  induction names generalizing st with
  | nil => exact ⟨st, rfl⟩
  | cons name rest ih =>
    obtain ⟨next, hnext, hrest⟩ := hstep name rest st h
    rw [copyEntries, hnext]
    exact ih hrest

namespace Ready

theorem permits_source (h : Ready n fs R source target S T) : fs.Permits source :=
  (h.permits [] (by simp)).1

theorem permits_target (h : Ready n fs R source target S T) : fs.Permits target :=
  (h.permits [] (by simp)).2

theorem at?_source (h : Ready n fs R source target S T) : fs.root.at? S = some n :=
  h.source_eq ▸ FileSystem.at?_of_stat h.stat_eq

/-- What the tree holds under a name stands under it in the source. -/
theorem there (h : Ready (.dir children) fs R source target S T)
    (hc : Keyed.get? name children = some c) : fs.root.at? (S ++ [name]) ≠ none := by
  rw [Node.at?_append, h.at?_source, Option.bind_some, Node.at?_singleton]
  exact hc ▸ Option.some_ne_none c

/-! ## Files -/

/-- Where no directory stands at the target of a file, its parent is made, and the file is
opened. -/
theorem opened (h : Ready n fs R source target S T) (hfree : ¬ fs.IsDirAt T) :
    ∃ files opened, makeParent target fs = (.ok (), files) ∧
      files.openForWriting target = .ok (T, opened) := by
  obtain ⟨name, -, hname⟩ := h.ends
  obtain ⟨parent, s, hsplits⟩ := h.anchored.splits (.inr ⟨name, hname⟩) (h.target_eq ▸ hfree)
  have hplace := hsplits.place_eq
  rw [h.target_eq] at hplace
  have hshort (q : List String) (hq : q <+: fs.place parent) : q ≠ T := by
    rintro rfl
    have hlength := hq.length_le
    rw [hplace, List.length_append, List.length_singleton] at hlength
    omega
  have hclear : fs.Clear (fs.place parent) := by
    intro q hq
    exact h.above q ⟨hplace ▸ hq.trans (List.prefix_append _ _), (hshort q hq).symm⟩
  obtain ⟨files, hmade⟩ := FileSystem.makeDirs_ok hsplits.anchored
    (h.permits_target.parent hsplits.parent_eq) (FileSystem.endsIn_parent hsplits.parent_eq) hclear
  have hchanges := hsplits.anchored.changes_makeDirs rfl List.prefix_rfl
  rw [hmade] at hchanges
  have hopens := hsplits.opens hchanges
    (FileSystem.goes_of_makeDirs hsplits.anchored.isDirAt_start hmade)
  have hstillFree : ¬ files.IsDirAt (fs.place parent ++ [s]) := by
    rw [← hplace]
    rintro ⟨children, hchildren⟩
    obtain ⟨m, hm, hkind⟩ := hchanges.isDir_before (fun hway => hshort T hway.2 rfl) hchildren
    cases m with
    | file bytes => cases hkind
    | dir held => exact hfree ⟨held, hm⟩
  have hopen := FileSystem.openForWriting_of_opens (h.permits_target.of_changes hchanges)
    hsplits.endsIn hopens hstillFree
  rw [← hplace] at hopen
  refine ⟨files, _, ?_, hopen⟩
  rw [makeParent, hsplits.parent_eq]
  dsimp only
  rw [hmade]

/-- A file is copied. -/
theorem file_ok {bytes : ByteArray} (h : Ready (.file bytes) st.files R source target S T) :
    ∃ done, copyNode copy arrange source target st = (.ok (), done) := by
  have hfree : ¬ st.files.IsDirAt T := by
    rintro ⟨children, hchildren⟩
    have hkind := h.agrees [] _ _ (Node.at?_nil _) (by rw [hchildren]; rfl)
    cases hkind
  obtain ⟨files, opened, hmade, hopen⟩ := h.opened hfree
  obtain ⟨hchanges, -⟩ := h.parent_made hmade
  obtain ⟨r, hreach⟩ : ∃ r, st.files.reach source = .ok r := by
    have hstat := h.stat_eq
    unfold FileSystem.stat at hstat
    cases hreach : st.files.reach source with
    | error e => simp [hreach] at hstat
    | ok r => exact ⟨r, rfl⟩
  have hthere : (files.look (st.files.place source)).node? ≠ none := by
    rw [h.source_eq]
    exact hchanges.ne_none (h.at?_source ▸ Option.some_ne_none _)
  obtain ⟨copied, hcopy⟩ := FileSystem.copyFile_ok (hchanges.unbroken h.unbroken)
    (hchanges.reach hreach) hthere hopen
  exact ⟨_, copyNode_of_file h.stat_eq hmade hcopy⟩

/-! ## Directories -/

theorem goes_source (h : Ready (.dir children) fs R source target S T) :
    fs.Goes (fs.start source) (Path.moves source) := by
  apply FileSystem.goes_of_isDir
  rw [FileSystem.isDir, h.stat_eq]

/-- What is ready for a directory is ready for a name in it, after the target was made, as
long as nothing else was put where the name is to be copied. -/
theorem child (h : Ready (.dir children) fs R source target S T)
    (hchanges : Changes (fun q => Fills R (treeShape (.dir children)) T q ∧ ¬ T ++ [name] <+: q)
      fs fs') (hdir : fs'.IsDirAt T) (hc : Keyed.get? name children = some c) :
    Ready c fs' R (Path.join source name) (Path.join target name) (S ++ [name]) (T ++ [name]) := by
  have hfills := hchanges.mono fun _ hq => hq.1
  have hnow := h.toFilling.of_changes hfills
  have hchild : (Node.dir children).at? [name] = some c := (Node.at?_singleton _ name).trans hc
  have hsource : fs'.root.at? S = some (.dir children) := hfills.at?_eq h.apart h.at?_source
  have hat : fs'.root.at? (S ++ [name]) = some c := by
    rw [Node.at?_append, hsource, Option.bind_some, hchild]
  have hthere : fs'.root.at? (S ++ [name]) ≠ none := hat ▸ Option.some_ne_none c
  have hname := hnow.isName hthere
  have hbelow (p : List String) : (Node.dir children).at? (name :: p) = c.at? p := by
    rw [← List.singleton_append, Node.at?_append, hchild, Option.bind_some]
  have hpermits (p : List String) (hp : c.at? p ≠ none) :
      fs'.Permits (along (Path.join source name) p) ∧
        fs'.Permits (along (Path.join target name) p) := by
    obtain ⟨hs, ht⟩ := h.permits (name :: p) (hbelow p ▸ hp)
    exact ⟨hs.of_changes hchanges, ht.of_changes hchanges⟩
  have hopens := FileSystem.opens_join
    (hchanges.goes (hchanges.start_eq source ▸ h.goes_source)) hname
  have hstat : fs'.stat (Path.join source name) = .ok c := by
    have hpath : fs'.Permits (Path.join source name) := (hpermits [] (by simp)).1
    have hends := (FileSystem.endsIn_name hname).join hname.isAbsolute_eq source
    rw [FileSystem.stat, FileSystem.reach_of_opens hpath hends hopens, hnow.source_eq]
    dsimp only [FileSystem.look]
    rw [hat]
  have hfilling := hnow.child hthere
  rw [treeShape_child hchild] at hfilling
  refine ⟨hfilling, fun q hq hpre => ?_, hstat, hchanges.unbroken h.unbroken, hpermits, ?_, ?_, ?_⟩
  · rw [← treeShape_child hchild] at hq
    exact h.apart q (hnow.fills_of_child hthere hq) ((List.prefix_append S [name]).trans hpre)
  · exact ⟨name, hname, (FileSystem.endsIn_name hname).join hname.isAbsolute_eq target⟩
  · intro p m k hm hk
    have hk' : fs'.root.at? (T ++ name :: p) = some k := by
      rw [← List.singleton_append, ← List.append_assoc, Node.at?_append]
      exact hk
    obtain ⟨k₀, hk₀, hkind⟩ := hchanges.isDir_before (fun hq => hq.2 (by simp)) hk'
    rw [← hkind]
    refine h.agrees (name :: p) m k₀ (hbelow p ▸ hm) ?_
    rwa [← Node.at?_append]
  · intro q hq bytes
    have hpre : q <+: T := (List.prefix_concat_iff.mp hq.1).resolve_left fun heq => hq.2 heq.symm
    obtain ⟨held, hheld⟩ := hdir.of_prefix hpre
    rw [hheld]
    simp

/-- The target of a directory is made, and the directory is listed. -/
theorem listed (h : Ready (.dir children) fs R source target S T) :
    ∃ files, fs.makeDirs target = (.ok (), files) ∧ files.list source = .ok (Keyed.keys children) ∧
      files.IsDirAt T ∧ Changes (fun q => Fills R (treeShape (.dir children)) T q ∧ q <+: T)
        fs files := by
  obtain ⟨name, -, hends⟩ := h.ends
  have hclear : fs.Clear (fs.place target) := by
    rw [h.target_eq]
    intro q hq bytes
    by_cases hqT : q = T
    · intro hfile
      have hkind := h.agrees [] _ _ (Node.at?_nil _) (by rw [← hqT, hfile]; rfl)
      cases hkind
    · exact h.above q ⟨hq, fun heq => hqT heq.symm⟩ bytes
  obtain ⟨files, hmade⟩ := FileSystem.makeDirs_ok h.anchored (.inr h.permits_target)
    (.inr ⟨name, hends⟩) hclear
  obtain ⟨hfills, hready⟩ := h.made hmade
  have hway := h.anchored.changes_makeDirs rfl List.prefix_rfl
  rw [hmade] at hway
  have hdir := (FileSystem.goes_of_makeDirs h.anchored.isDirAt_start hmade).isDirAt
  change files.IsDirAt (files.place target) at hdir
  rw [hready.target_eq] at hdir
  refine ⟨files, hmade, ?_, hdir, hway.mono fun q hq => ⟨h.fills_of_onWay hq, h.target_eq ▸ hq.2⟩⟩
  have hreach := FileSystem.reach_of_goes (h.permits_source.of_changes hfills)
    (hfills.goes (hfills.start_eq source ▸ h.goes_source))
  rw [FileSystem.list, FileSystem.stat, hreach, hready.source_eq]
  dsimp only [FileSystem.look]
  rw [hfills.at?_eq h.apart h.at?_source]

end Ready

/-- What is kept while the names of a directory are gone through: those that are left are
names of the directory, and nothing was put at their places in the target. -/
structure Remaining (children : List (String × Node)) (fs : FileSystem) (R T : List String)
    (rest : List String) (now : Copying) : Prop where
  nodup : rest.Nodup
  held (name : String) (hname : name ∈ rest) : ∃ c, Keyed.get? name children = some c
  changes : Changes (fun q => Fills R (treeShape (.dir children)) T q ∧
    ∀ name ∈ rest, ¬ T ++ [name] <+: q) fs now.files
  isDirAt : now.files.IsDirAt T

/-- After the copy under the first of the names the others are left. -/
theorem Remaining.tail {rest : List String} {now next : Copying}
    (h : Remaining children fs R T (name :: rest) now)
    (hready : Ready (.dir children) fs R source target S T)
    (hc : Keyed.get? name children = some c)
    (hcopied : Changes (Fills R (treeShape c) (T ++ [name])) now.files next.files) :
    Remaining children fs R T rest next := by
  obtain ⟨hnot, hnodup⟩ := List.nodup_cons.mp h.nodup
  have hchild : (Node.dir children).at? [name] = some c := (Node.at?_singleton _ name).trans hc
  have hnow := hready.toFilling.of_changes (h.changes.mono fun _ hq => hq.1)
  have hthere := h.changes.ne_none (hready.there hc)
  refine ⟨hnodup, fun s hs => h.held s (List.mem_cons_of_mem _ hs), ?_,
    hcopied.isDirAt h.isDirAt⟩
  refine (h.changes.mono fun q hq => ⟨hq.1, fun s hs => hq.2 s (List.mem_cons_of_mem _ hs)⟩).trans
    (hcopied.mono fun q hq => ⟨?_, fun s hs hpre => hnot ?_⟩)
  · rw [← treeShape_child hchild] at hq
    exact hnow.fills_of_child hthere hq
  · obtain rfl : s = name := eq_of_fills hq hpre
    exact hs

/-- A copy that is ready succeeds. -/
theorem Ready.copyTreeIn_ok {fuel : Nat} (h : Ready n st.files R source target S T)
    (hfuel : st.files.pathMax ≤ source.utf8ByteSize + fuel) :
    ∃ done, copyTreeIn order fuel source target st = (.ok (), done) := by
  induction fuel generalizing n source target S T st with
  | zero =>
    have hlong := (FileSystem.checkPath_eq_ok_iff.mp h.permits_source.check).2.2
    omega
  | succ fuel ih =>
    rw [copyTreeIn]
    cases n with
    | file bytes => exact h.file_ok
    | dir children =>
      obtain ⟨files, hmade, hlist, hdir, hchanges⟩ := h.listed
      rw [copyNode_of_dir h.stat_eq hmade hlist]
      refine copyEntries_ok (Remaining children st.files R T) (fun name rest now hnow => ?_) ?_
      · obtain ⟨c, hc⟩ := hnow.held name List.mem_cons_self
        have hchild := h.child (hnow.changes.mono fun q hq =>
          ⟨hq.1, hq.2 name List.mem_cons_self⟩) hnow.isDirAt hc
        have hgrows := (h.isName (h.there hc)).utf8ByteSize_lt_join source
        have hmax := hnow.changes.pathMax_eq
        obtain ⟨next, hnext⟩ := ih hchild (by omega)
        have hcopied := confined_copyTreeIn order R fuel hchild.toFilling
        rw [hnext] at hcopied
        exact ⟨next, hnext, hnow.tail h hc hcopied⟩
      · have hperm := order.perm (st.visited + 1) (Keyed.keys children)
        have hsorted := h.sound.sorted S children h.at?_source
        refine ⟨hperm.nodup_iff.mpr (hsorted.imp String.ne_of_lt), fun name hname => ?_,
          hchanges.mono fun q hq => ⟨hq.1, fun name _ hpre => ?_⟩, hdir⟩
        · exact Option.isSome_iff_exists.mp
            (Keyed.contains_iff_mem_keys.mpr (hperm.mem_iff.mp hname))
        · have hlength := (hpre.trans hq.2).length_le
          rw [List.length_append, List.length_singleton] at hlength
          omega

end PluginChain.OutputDir
