import PluginChain.Proofs.Targets
set_option autoImplicit false

/-!
# Steps of a copy

What one call of a copy comes to: it stops, it copies a file or breaks off while it does,
or it makes a directory and goes through the names that are listed then.  Whatever it
comes to, and in whatever depth, it changes files only where it fills its target: below the
directory in which the target is anchored, on the way to the target, and below it where
the source has something.  What it fills may lie in the source; so the source has a shape
that is said to hold that too.
-/

namespace PluginChain.OutputDir

open FileSystem (Anchored Below Change Changes OnWay Sound)

variable {fs : FileSystem} {allowed : List String → Prop} {R : List String}
  {source target : String} {st : Copying}

/-! ## Parents of targets -/

/-- Making the directory for a target changes its way only. -/
theorem changes_makeParent (h : fs.Anchored R target) :
    Changes (fs.OnWay R target) fs (makeParent target fs).2 := by
  unfold makeParent
  split
  · exact .refl fs
  · next parent hparent =>
    have hpre : Path.moves parent <+: Path.moves target := by
      rcases Path.moves_of_parent? hparent with ⟨-, rfl⟩ | ⟨last, hlast⟩
      · exact List.nil_prefix
      · rw [hlast]
        exact List.prefix_append _ _
    have hmade := h.changes_makeDirs (Path.isAbsolute_of_parent? hparent) hpre
    split
    · next files hok =>
      rw [hok] at hmade
      exact hmade
    · next e files herror =>
      rw [herror] at hmade
      exact hmade

/-! ## Single calls -/

variable {copy : String → String → Copying → Except Fault Unit × Copying}
  {arrange : List String → List String}

/-- One call of a copy, with a way to copy what a directory holds and to arrange the names
that are listed. -/
def copyNode (copy : String → String → Copying → Except Fault Unit × Copying)
    (arrange : List String → List String) (source target : String) (st : Copying) :
    Except Fault Unit × Copying :=
  let st := { st with visited := st.visited + 1 }
  match st.files.stat source with
  | .error e => (.error (fileFault "stat" source e), st)
  | .ok (.file _) =>
    match makeParent target st.files with
    | (.error f, files) => (.error f, { st with files })
    | (.ok (), files) =>
      match files.copyFile source target with
      | (.error e, files) => (.error (fileFault "copy" source e), { st with files })
      | (.ok (), files) => (.ok (), { st with files })
  | .ok (.dir _) =>
    match st.files.makeDirs target with
    | (.error e, files) => (.error (fileFault "create" target e), { st with files })
    | (.ok (), files) =>
      match files.list source with
      | .error e => (.error (fileFault "list" source e), { st with files })
      | .ok names => copyEntries copy source target (arrange names) { st with files }

theorem copyTree_succ (fuel : Nat) (source target : String) (st : Copying) :
    copyTree (fuel + 1) source target st = copyNode (copyTree fuel) id source target st := rfl

/-- What one call of a copy comes to. -/
inductive CopyStep (copy : String → String → Copying → Except Fault Unit × Copying)
    (arrange : List String → List String) (source target : String) (st : Copying) :
    Except Fault Unit × Copying → Prop
  /-- It stops before anything is copied. -/
  | stopped {f : Fault} {files : FileSystem}
      (h : files = st.files ∨ files = (makeParent target st.files).2 ∨
        files = (st.files.makeDirs target).2) :
      CopyStep copy arrange source target st (.error f, ⟨files, st.visited + 1⟩)
  /-- It stops while a file is copied. -/
  | broken {f : Fault} {e : FileError} {files copied : FileSystem}
      (hparent : makeParent target st.files = (.ok (), files))
      (hcopy : files.copyFile source target = (.error e, copied)) :
      CopyStep copy arrange source target st (.error f, ⟨copied, st.visited + 1⟩)
  /-- It copies a file. -/
  | file {bytes : ByteArray} {files copied : FileSystem}
      (hstat : st.files.stat source = .ok (.file bytes))
      (hparent : makeParent target st.files = (.ok (), files))
      (hcopy : files.copyFile source target = (.ok (), copied)) :
      CopyStep copy arrange source target st (.ok (), ⟨copied, st.visited + 1⟩)
  /-- It goes through the names of a directory, after the target was made. -/
  | entries {children : List (String × Node)} {files : FileSystem} {names : List String}
      (hstat : st.files.stat source = .ok (.dir children))
      (hmade : st.files.makeDirs target = (.ok (), files))
      (hlist : files.list source = .ok names) :
      CopyStep copy arrange source target st
        (copyEntries copy source target (arrange names) ⟨files, st.visited + 1⟩)

theorem copyStep_copyNode (copy : String → String → Copying → Except Fault Unit × Copying)
    (arrange : List String → List String) (source target : String) (st : Copying) :
    CopyStep copy arrange source target st (copyNode copy arrange source target st) := by
  rw [copyNode]
  dsimp only
  cases hstat : st.files.stat source with
  | error e => exact .stopped (.inl rfl)
  | ok n =>
    cases n with
    | file bytes =>
      rcases hparent : makeParent target st.files with ⟨_ | _, files⟩
      · exact .stopped (.inr (.inl (by rw [hparent])))
      · dsimp only
        rcases hcopy : files.copyFile source target with ⟨e | _, copied⟩
        · exact .broken hparent hcopy
        · exact .file hstat hparent hcopy
    | dir children =>
      rcases hmade : st.files.makeDirs target with ⟨_ | _, files⟩
      · exact .stopped (.inr (.inr (by rw [hmade])))
      · dsimp only
        cases hlist : files.list source with
        | error e => exact .stopped (.inr (.inr (by rw [hmade])))
        | ok names => exact .entries hstat hmade hlist

theorem copyStep (fuel : Nat) (source target : String) (st : Copying) :
    CopyStep (copyTree fuel) id source target st (copyTree (fuel + 1) source target st) :=
  copyTree_succ fuel source target st ▸ copyStep_copyNode (copyTree fuel) id source target st

/-! ## Going through names -/

variable {names : List String}

/-- What copying any of the names keeps, going through them keeps. -/
theorem copyEntries_keeps (keeps : Copying → Prop)
    (hstep : ∀ name ∈ names, ∀ st, keeps st →
      keeps (copy (Path.join source name) (Path.join target name) st).2)
    (h : keeps st) : keeps (copyEntries copy source target names st).2 := by
  induction names generalizing st with
  | nil => exact h
  | cons name rest ih =>
    obtain ⟨hname, hrest⟩ := List.forall_mem_cons.mp hstep
    have hfirst := hname st h
    rw [copyEntries]
    rcases hcopy : copy (Path.join source name) (Path.join target name) st with ⟨_ | _, next⟩
    · rw [hcopy] at hfirst
      exact hfirst
    · rw [hcopy] at hfirst
      exact ih hrest hfirst

/-- Two ways to copy come to the same for a list of names where they do for each, in all
states that the first one keeps to. -/
theorem copyEntries_congr {copy' : String → String → Copying → Except Fault Unit × Copying}
    (keeps : Copying → Prop)
    (hstep : ∀ name ∈ names, ∀ st, keeps st →
      keeps (copy (Path.join source name) (Path.join target name) st).2 ∧
        copy (Path.join source name) (Path.join target name) st =
          copy' (Path.join source name) (Path.join target name) st)
    (h : keeps st) :
    copyEntries copy source target names st = copyEntries copy' source target names st := by
  induction names generalizing st with
  | nil => rfl
  | cons name rest ih =>
    obtain ⟨hname, hrest⟩ := List.forall_mem_cons.mp hstep
    obtain ⟨hkeeps, heq⟩ := hname st h
    rw [copyEntries, copyEntries, ← heq]
    rcases hcopy : copy (Path.join source name) (Path.join target name) st with ⟨_ | _, next⟩
    · rfl
    · rw [hcopy] at hkeeps
      exact ih hrest hkeeps

/-- Where going through names succeeds, copying any one of them has, and so has going
through those before it and those behind it. -/
theorem copyEntries_split {before after : List String} {name : String} {done : Copying}
    (h : copyEntries copy source target (before ++ name :: after) st = (.ok (), done)) :
    ∃ now next, copyEntries copy source target before st = (.ok (), now) ∧
      copy (Path.join source name) (Path.join target name) now = (.ok (), next) ∧
      copyEntries copy source target after next = (.ok (), done) := by
  induction before generalizing st with
  | nil =>
    rw [List.nil_append, copyEntries] at h
    rcases hcopy : copy (Path.join source name) (Path.join target name) st with ⟨_ | _, next⟩
    · rw [hcopy] at h
      cases h
    · rw [hcopy] at h
      exact ⟨st, next, rfl, hcopy, h⟩
  | cons first before ih =>
    rw [List.cons_append, copyEntries] at h
    rw [copyEntries]
    rcases hcopy : copy (Path.join source first) (Path.join target first) st with ⟨_ | _, between⟩
    · rw [hcopy] at h
      cases h
    · rw [hcopy] at h
      exact ih h

/-! ## What a copy fills -/

/-- The places that a copy may change when what it copies has a shape: below the
directory in which its target is anchored, those on the way to the target, and below it
those of the shape. -/
def Fills (R : List String) (shape : List String → Prop) (T q : List String) : Prop :=
  Below R q ∧ (q <+: T ∨ ∃ p, shape p ∧ q = T ++ p)

/-- A copy in a sound tree, from the place `S` to the place `T`.  What is in its source
has the shape, also where what it fills lies in the source. -/
structure Filling (shape : List String → Prop) (fs : FileSystem) (R : List String)
    (source target : String) (S T : List String) : Prop where
  sound : fs.Sound
  anchored : fs.Anchored R target
  source_eq : fs.place source = S
  target_eq : fs.place target = T
  fits (k : List String) (h : fs.root.at? (S ++ k) ≠ none) : shape k
  settled (k : List String) (h : Fills R shape T (S ++ k)) : shape k

variable {shape : List String → Prop} {fs' : FileSystem} {S T : List String} {name : String}

/-- A way to copy that changes files only where it fills its target. -/
def Confined (R : List String)
    (copy : String → String → Copying → Except Fault Unit × Copying) : Prop :=
  ∀ ⦃shape source target S T⦄ ⦃st : Copying⦄, Filling shape st.files R source target S T →
    Changes (Fills R shape T) st.files (copy source target st).2.files

/-- Whatever it copies, a copy has some shape. -/
theorem filling_true (hfs : fs.Sound) (h : fs.Anchored R target) (source : String) :
    Filling (fun _ => True) fs R source target (fs.place source) (fs.place target) :=
  ⟨hfs, h, rfl, rfl, fun _ _ => trivial, fun _ _ => trivial⟩

namespace Filling

/-- What is filled does not show where the shape has nothing. -/
theorem of_changes (h : Filling shape fs R source target S T)
    (hchanges : Changes (Fills R shape T) fs fs') : Filling shape fs' R source target S T := by
  refine ⟨hchanges.sound h.sound, h.anchored.of_changes hchanges,
    (hchanges.place_eq source).trans h.source_eq, (hchanges.place_eq target).trans h.target_eq,
    fun k hk => ?_, h.settled⟩
  by_contra hshape
  have hnone : fs.root.at? (S ++ k) = none := by
    by_contra hthere
    exact hshape (h.fits k hthere)
  exact hk (hchanges.eq_none hnone fun hfills => hshape (h.settled k hfills))

/-- What stands in a directory can be a name. -/
theorem isName (h : Filling shape fs R source target S T)
    (hname : fs.root.at? (S ++ [name]) ≠ none) : Path.IsName name := by
  obtain ⟨n, hn⟩ := Option.ne_none_iff_exists'.mp hname
  obtain ⟨children, hchildren, hmem⟩ := Node.dir_of_at?_append hn
  exact h.sound.names S children hchildren name hmem

/-- A copy of what stands under a name in the source fills a part of it. -/
theorem fills_of_child {q : List String} (h : Filling shape fs R source target S T)
    (hname : fs.root.at? (S ++ [name]) ≠ none)
    (hq : Fills R (fun k => shape (name :: k)) (T ++ [name]) q) : Fills R shape T q := by
  refine ⟨hq.1, ?_⟩
  rcases hq.2 with hpre | ⟨p, hp, rfl⟩
  · rcases List.prefix_concat_iff.mp hpre with rfl | hpre
    · exact .inr ⟨[name], h.fits [name] hname, rfl⟩
    · exact .inl hpre
  · exact .inr ⟨name :: p, hp, by rw [List.append_assoc, List.singleton_append]⟩

/-- Copies of what stands under names in the source fill parts of it. -/
theorem fills_of_names {q : List String} (h : Filling shape fs R source target S T)
    (hnames : ∀ name ∈ names, fs.root.at? (S ++ [name]) ≠ none)
    (hq : ∃ name ∈ names, Fills R (fun k => shape (name :: k)) (T ++ [name]) q) :
    Fills R shape T q := by
  obtain ⟨name, hname, hq⟩ := hq
  exact h.fills_of_child (hnames name hname) hq

/-- What stands under a name in the source is copied to that name in the target. -/
theorem child (h : Filling shape fs R source target S T)
    (hname : fs.root.at? (S ++ [name]) ≠ none) :
    Filling (fun k => shape (name :: k)) fs R (Path.join source name) (Path.join target name)
      (S ++ [name]) (T ++ [name]) := by
  have happend (k : List String) : S ++ [name] ++ k = S ++ name :: k := by
    rw [List.append_assoc, List.singleton_append]
  refine ⟨h.sound, h.anchored.join_name (h.isName hname), ?_, ?_, fun k hk => ?_, fun k hk => ?_⟩
  · rw [FileSystem.place_join_name fs source (h.isName hname), h.source_eq]
  · rw [FileSystem.place_join_name fs target (h.isName hname), h.target_eq]
  · rw [happend] at hk
    exact h.fits _ hk
  · rw [happend] at hk
    exact h.settled _ (h.fills_of_child hname hk)

/-- The names that are listed are those that stand in the source. -/
theorem mem_names_iff (h : Filling shape fs R source target S T)
    (hlist : fs.list source = .ok names) : name ∈ names ↔ fs.root.at? (S ++ [name]) ≠ none := by
  obtain ⟨children, hchildren, rfl⟩ := FileSystem.list_eq_ok hlist
  rw [h.source_eq] at hchildren
  rw [Node.at?_append, hchildren, Option.bind_some, Node.at?_singleton,
    ← Keyed.contains_iff_mem_keys, Keyed.contains, Option.isSome_iff_ne_none]
  rfl

/-- Making the way to the target fills a part of it. -/
theorem fills_of_onWay {q : List String} (h : Filling shape fs R source target S T)
    (hq : fs.OnWay R target q) : Fills R shape T q :=
  ⟨hq.1, .inl (h.target_eq ▸ hq.2)⟩

theorem changes_makeParent (h : Filling shape fs R source target S T) :
    Changes (Fills R shape T) fs (makeParent target fs).2 :=
  (OutputDir.changes_makeParent h.anchored).mono fun _ => h.fills_of_onWay

theorem changes_makeDirs (h : Filling shape fs R source target S T) :
    Changes (Fills R shape T) fs (fs.makeDirs target).2 :=
  (h.anchored.changes_makeDirs rfl List.prefix_rfl).mono fun _ => h.fills_of_onWay

/-- After the target of a directory was made, the copy of the directory goes on. -/
theorem made {files : FileSystem} (h : Filling shape fs R source target S T)
    (hmade : fs.makeDirs target = (.ok (), files)) :
    Changes (Fills R shape T) fs files ∧ Filling shape files R source target S T := by
  have hchanges := h.changes_makeDirs
  rw [hmade] at hchanges
  exact ⟨hchanges, h.of_changes hchanges⟩

/-- After the directory for the target was made, the copy of a file goes on. -/
theorem parent_made {files : FileSystem} (h : Filling shape fs R source target S T)
    (hmade : makeParent target fs = (.ok (), files)) :
    Changes (Fills R shape T) fs files ∧ Filling shape files R source target S T := by
  have hchanges := h.changes_makeParent
  rw [hmade] at hchanges
  exact ⟨hchanges, h.of_changes hchanges⟩

theorem changes_copyFile (h : Filling shape fs R source target S T) :
    Changes (Fills R shape T) fs (fs.copyFile source target).2 :=
  fs.changes_copyFile source target fun _ hwrites => h.fills_of_onWay (h.anchored.onWay hwrites)

/-- Going through names of the source changes files only where the copies of what stands
under the names do. -/
theorem changes_copyEntries (hcopy : Confined R copy)
    (h : Filling shape fs R source target S T)
    (hnames : ∀ name ∈ names, fs.root.at? (S ++ [name]) ≠ none) (visited : Nat) :
    Changes (fun q => ∃ name ∈ names, Fills R (fun k => shape (name :: k)) (T ++ [name]) q)
      fs (copyEntries copy source target names ⟨fs, visited⟩).2.files := by
  refine copyEntries_keeps (fun now => Changes _ fs now.files)
    (fun name hname now hnow => ?_) (.refl fs)
  have hfilling := h.of_changes (hnow.mono fun _ => h.fills_of_names hnames)
  have hcopied := hcopy (hfilling.child (hnow.ne_none (hnames name hname)))
  exact hnow.trans (hcopied.mono fun q hq => ⟨name, hname, hq⟩)

end Filling

/-- One call changes files only where it fills its target, if the copies of what a
directory holds do. -/
theorem Confined.copyNode (hcopy : Confined R copy)
    (harrange : ∀ names, (arrange names).Perm names) : Confined R (copyNode copy arrange) := by
  intro shape source target S T st h
  have hstep := copyStep_copyNode copy arrange source target st
  generalize OutputDir.copyNode copy arrange source target st = out at hstep ⊢
  cases hstep with
  | stopped hfiles =>
    rcases hfiles with rfl | rfl | rfl
    · exact .refl st.files
    · exact h.changes_makeParent
    · exact h.changes_makeDirs
  | broken hmade hcopied | file _ hmade hcopied =>
    obtain ⟨hparent, hready⟩ := h.parent_made hmade
    have hfile := hready.changes_copyFile
    rw [hcopied] at hfile
    exact hparent.trans hfile
  | @entries children files names hstat hmade hlist =>
    obtain ⟨hdirs, hlisted⟩ := h.made hmade
    have hthere (name : String) (hname : name ∈ arrange names) :=
      (hlisted.mem_names_iff hlist).mp ((harrange names).mem_iff.mp hname)
    have hcopied := hlisted.changes_copyEntries hcopy hthere (st.visited + 1)
    exact hdirs.trans (hcopied.mono fun _ => hlisted.fills_of_names hthere)

/-- A copy changes files only where it fills its target. -/
theorem confined_copyTree (R : List String) (fuel : Nat) : Confined R (copyTree fuel) := by
  induction fuel with
  | zero => exact fun _ _ _ _ _ st _ => .refl st.files
  | succ fuel ih => exact ih.copyNode fun names => .refl names

namespace Filling

/-- A copy changes files only where it fills its target. -/
theorem changes_copyTree (fuel : Nat) (h : Filling shape st.files R source target S T) :
    Changes (Fills R shape T) st.files (copyTree fuel source target st).2.files :=
  confined_copyTree R fuel h

/-- The copy of what stands under a name in the source fills a part of the target. -/
theorem changes_child (hcopy : Confined R copy) (h : Filling shape st.files R source target S T)
    (hname : st.files.root.at? (S ++ [name]) ≠ none) :
    Changes (Fills R shape T) st.files
      (copy (Path.join source name) (Path.join target name) st).2.files :=
  (hcopy (h.child hname)).mono fun _ => h.fills_of_child hname

/-- Going through names of the source that succeeds changes files only where the copies of
what stands under them do. -/
theorem changes_names {visited : Nat} {done : Copying} (hcopy : Confined R copy)
    (h : Filling shape fs R source target S T)
    (hnames : ∀ name ∈ names, fs.root.at? (S ++ [name]) ≠ none)
    (hdone : copyEntries copy source target names ⟨fs, visited⟩ = (.ok (), done)) :
    Changes (fun q => ∃ name ∈ names, Fills R (fun k => shape (name :: k)) (T ++ [name]) q)
      fs done.files := by
  have hchanges := h.changes_copyEntries hcopy hnames visited
  rwa [hdone] at hchanges

end Filling

/-- A copy changes files only below the directory in which its target is anchored. -/
theorem changes_copyTree (fuel : Nat) (source target : String) (st : Copying)
    (hfs : st.files.Sound) (h : st.files.Anchored R target) :
    Changes (Below R) st.files (copyTree fuel source target st).2.files :=
  ((filling_true hfs h source).changes_copyTree fuel).mono fun _ hq => hq.1

end PluginChain.OutputDir
