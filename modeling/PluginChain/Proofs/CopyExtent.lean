import Mathlib.Data.List.Sort
import PluginChain.Proofs.Containment
set_option autoImplicit false

/-!
# How far a copy goes

A copy lists a directory when it reaches it, after its target was made.  So whether it
ends is told by where its target lies.  It goes no deeper than its source where the
target is not below the source, and visits no more than the source held where it puts
nothing new into the source.  Where the target of a directory is below it, every
directory that is reached holds the next target, and the copy never comes to its end.
-/

namespace PluginChain

namespace Node

/-- Every directory of the tree has its names in order. -/
def Ordered (n : Node) : Prop :=
  ∀ p children, n.at? p = some (.dir children) → (Keyed.keys children).Pairwise (· < ·)

theorem Ordered.at? {n m : Node} {p : List String} (h : n.Ordered) (hm : n.at? p = some m) :
    m.Ordered := by
  intro q children hq
  refine h (p ++ q) children ?_
  rw [at?_append, hm, Option.bind_some, hq]

theorem size_eq (n : Node) : n.size = 1 + sizes n.entries := by
  cases n <;> rfl

theorem size_pos (n : Node) : 0 < n.size := by
  rw [size_eq]
  exact Nat.lt_add_right _ Nat.zero_lt_one

theorem Ordered.entries {n : Node} (h : n.Ordered) : (Keyed.keys n.entries).Pairwise (· < ·) := by
  cases n with
  | file bytes => exact List.Pairwise.nil
  | dir children => exact h [] children rfl

theorem size_le_sizes {children : List (String × Node)} {name : String} {c : Node}
    (h : Keyed.get? name children = some c) : c.size ≤ sizes children := by
  induction children with
  | nil => simp at h
  | cons first rest ih =>
    obtain ⟨s, d⟩ := first
    rw [Keyed.get?] at h
    rw [sizes]
    split_ifs at h
    · obtain rfl := Option.some.inj h
      exact Nat.le_add_right _ _
    · exact (ih h).trans (Nat.le_add_left _ _)

/-- A tree holds what stands in it, and what leads there. -/
theorem length_add_size_le {n m : Node} {p : List String} (h : n.at? p = some m) :
    p.length + m.size ≤ n.size := by
  induction p generalizing n with
  | nil =>
    rw [at?_nil, Option.some.injEq] at h
    simp [h]
  | cons name rest ih =>
    rw [at?_cons] at h
    cases n with
    | file bytes => simp [child?] at h
    | dir children =>
      obtain ⟨c, hc, hm⟩ := Option.bind_eq_some_iff.mp h
      have hrest := ih hm
      have hsize := size_le_sizes hc
      simp only [size, List.length_cons]
      omega

end Node

namespace OutputDir

open FileSystem (Anchored Below Changes Sound)

variable {fs : FileSystem} {R S T : List String} {source target : String} {st : Copying}
  {shape : List String → Prop} {names : List String}

/-! ## Depth -/

/-- Two amounts of fuel come to the same where they do for the names that are listed. -/
theorem copyTree_congr {f g : Nat}
    (h : ∀ files, st.files.makeDirs target = (.ok (), files) →
      ∀ names, files.list source = .ok names →
        copyEntries (copyTree f) source target names ⟨files, st.visited + 1⟩ =
          copyEntries (copyTree g) source target names ⟨files, st.visited + 1⟩) :
    copyTree (f + 1) source target st = copyTree (g + 1) source target st := by
  rw [copyTree, copyTree]
  dsimp only
  cases st.files.stat source with
  | error e => rfl
  | ok n =>
    cases n with
    | file bytes => rfl
    | dir children =>
      dsimp only
      rcases hmade : st.files.makeDirs target with ⟨_ | _, files⟩
      · rfl
      · dsimp only
        cases hlist : files.list source with
        | error e => rfl
        | ok names => exact h files hmade names hlist

/-- A copy is as deep as that at most: its source is, or its paths get too long. -/
def Shallow (shape : List String → Prop) (fs : FileSystem) (source : String) (d : Nat) : Prop :=
  (∀ k, shape k → k.length ≤ d) ∨ fs.pathMax ≤ source.utf8ByteSize + d

/-- What stands under a name in the source is less deep. -/
theorem Shallow.child {fs' : FileSystem} {name : String} {d : Nat}
    (h : Shallow shape fs source (d + 1)) (hname : Path.IsName name)
    (hmax : fs'.pathMax = fs.pathMax) :
    Shallow (fun k => shape (name :: k)) fs' (Path.join source name) d := by
  rcases h with hshape | hlong
  · exact .inl fun k hk => Nat.le_of_succ_le_succ (hshape _ hk)
  · have hgrows := hname.utf8ByteSize_lt_join source
    exact .inr (by omega)

/-- A copy needs no more fuel than it gets deep. -/
theorem Filling.copyTree_eq {d f g : Nat} (h : Filling shape st.files R source target S T)
    (hdepth : Shallow shape st.files source d) (hf : d ≤ f) (hg : d ≤ g) :
    copyTree (f + 1) source target st = copyTree (g + 1) source target st := by
  induction d generalizing f g shape source target S T st with
  | zero =>
    refine copyTree_congr fun files hmade names hlist => ?_
    obtain ⟨hdirs, hlisted⟩ := h.made hmade
    rcases hdepth with hshape | hlong
    · cases names with
      | nil => rfl
      | cons name rest =>
        have hthere := (hlisted.mem_names_iff hlist).mp List.mem_cons_self
        exact absurd (hshape [name] (hlisted.fits [name] hthere)) (by simp)
    · rw [← hdirs.pathMax_eq] at hlong
      exact absurd hlist (FileSystem.list_ne_ok (.inr hlong))
  | succ d ih =>
    obtain ⟨f, rfl⟩ := Nat.exists_eq_add_of_le' (Nat.one_le_of_lt hf)
    obtain ⟨g, rfl⟩ := Nat.exists_eq_add_of_le' (Nat.one_le_of_lt hg)
    refine copyTree_congr fun files hmade names hlist => ?_
    obtain ⟨hdirs, hlisted⟩ := h.made hmade
    refine copyEntries_congr (fun now => Changes (Fills R shape T) files now.files)
      (fun name hname now hnow => ?_) (.refl files)
    have hfilling := hlisted.of_changes hnow
    have hthere := hnow.ne_none ((hlisted.mem_names_iff hlist).mp hname)
    refine ⟨hnow.trans (hfilling.changes_child (confined_copyTree R (f + 1)) hthere), ?_⟩
    exact ih (hfilling.child hthere)
      (hdepth.child (hfilling.isName hthere) (hdirs.trans hnow).pathMax_eq)
      (Nat.le_of_succ_le_succ hf) (Nat.le_of_succ_le_succ hg)

/-! ## Visits -/

/-- Going through the names of children visits no more than they hold, if copying each
does. -/
theorem visited_copyEntries_le {copy : String → String → Copying → Except Fault Unit × Copying}
    {children : List (String × Node)} (keeps : Copying → Prop)
    (hstep : ∀ p ∈ children, ∀ st, keeps st →
      keeps (copy (Path.join source p.1) (Path.join target p.1) st).2 ∧
        (copy (Path.join source p.1) (Path.join target p.1) st).2.visited ≤ st.visited + p.2.size)
    (h : keeps st) :
    (copyEntries copy source target (Keyed.keys children) st).2.visited ≤
      st.visited + Node.sizes children := by
  induction children generalizing st with
  | nil => exact Nat.le_refl _
  | cons p rest ih =>
    obtain ⟨hp, hrest⟩ := List.forall_mem_cons.mp hstep
    obtain ⟨hkeeps, hvisited⟩ := hp st h
    change (copyEntries copy source target (p.1 :: Keyed.keys rest) st).2.visited ≤ _
    rw [copyEntries, Node.sizes]
    rcases hcopy : copy (Path.join source p.1) (Path.join target p.1) st with ⟨_ | _, next⟩
    · rw [hcopy] at hvisited
      exact hvisited.trans (Nat.add_le_add_left (Nat.le_add_right _ _) _)
    · rw [hcopy] at hkeeps hvisited
      calc (copyEntries copy source target (Keyed.keys rest) next).2.visited
          ≤ next.visited + Node.sizes rest := ih hrest hkeeps
        _ ≤ st.visited + p.2.size + Node.sizes rest := Nat.add_le_add_right hvisited _
        _ = st.visited + (p.2.size + Node.sizes rest) := Nat.add_assoc _ _ _

/-- What stands in a tree, as a shape. -/
def treeShape (n : Node) (k : List String) : Prop := n.at? k ≠ none

theorem treeShape_child {n c : Node} {name : String} (hc : n.at? [name] = some c) :
    (fun k => treeShape n (name :: k)) = treeShape c := by
  funext k
  rw [treeShape, treeShape, ← List.singleton_append, Node.at?_append, hc, Option.bind_some]

/-- The names that are listed are those of the tree, where just what is in the tree
stands in the source. -/
theorem Filling.names_eq {n : Node} (h : Filling (treeShape n) fs R source target S T)
    (hordered : n.Ordered) (hthere : ∀ k, treeShape n k → fs.root.at? (S ++ k) ≠ none)
    (hlist : fs.list source = .ok names) : names = Keyed.keys n.entries := by
  have hmem (name : String) : name ∈ names ↔ name ∈ Keyed.keys n.entries := by
    rw [h.mem_names_iff hlist, ← Keyed.contains_iff_mem_keys, Keyed.contains,
      Option.isSome_iff_ne_none, ← Node.at?_singleton]
    exact ⟨h.fits [name], hthere [name]⟩
  obtain ⟨children, hchildren, rfl⟩ := FileSystem.list_eq_ok hlist
  exact List.Pairwise.eq_of_mem_iff (h.sound.sorted _ children hchildren) hordered.entries hmem

/-- A copy visits no more than the tree in its source holds. -/
theorem Filling.visited_copyTree_le {n : Node} (fuel : Nat)
    (h : Filling (treeShape n) st.files R source target S T) (hordered : n.Ordered)
    (hthere : ∀ k, treeShape n k → st.files.root.at? (S ++ k) ≠ none) :
    (copyTree fuel source target st).2.visited ≤ st.visited + n.size := by
  induction fuel generalizing n source target S T st with
  | zero => exact Nat.le_add_right _ _
  | succ fuel ih =>
    have hstep := copyStep fuel source target st
    generalize copyTree (fuel + 1) source target st = out at hstep ⊢
    rw [n.size_eq, ← Nat.add_assoc]
    cases hstep with
    | stopped | broken | file => exact Nat.le_add_right _ _
    | @entries _ files names hstat hmade hlist =>
      obtain ⟨hdirs, hlisted⟩ := h.made hmade
      have hstill (k : List String) (hk : treeShape n k) := hdirs.ne_none (hthere k hk)
      obtain rfl := hlisted.names_eq hordered hstill hlist
      refine visited_copyEntries_le (fun now => Changes (Fills R (treeShape n) T) files now.files)
        (fun p hp now hnow => ?_) (.refl files)
      have hc : n.at? [p.1] = some p.2 :=
        (n.at?_singleton p.1).trans (Keyed.get?_of_mem hordered.entries hp)
      have hfilling := hlisted.of_changes hnow
      have hname := hnow.ne_none (hstill [p.1] (by simp [treeShape, hc]))
      have hchild := hfilling.child hname
      refine ⟨hnow.trans (hfilling.changes_child (confined_copyTree R fuel) hname), ?_⟩
      rw [treeShape_child hc] at hchild
      refine ih hchild (hordered.at? hc) fun k hk => ?_
      rw [← treeShape_child hc] at hk
      rw [List.append_assoc]
      exact hnow.ne_none (hstill (p.1 :: k) hk)

/-! ## Copies into themselves -/

/-- A file is not copied to a place below it: it would stand above its copy. -/
theorem Filling.not_below_of_copyFile {bytes : ByteArray} {files copied : FileSystem}
    (h : Filling shape fs R source target S T) (hstat : fs.stat source = .ok (.file bytes))
    (hmade : makeParent target fs = (.ok (), files))
    (hcopy : files.copyFile source target = (.ok (), copied)) : ¬ Below S T := by
  intro hbelow
  have hfile := FileSystem.at?_of_stat hstat
  obtain ⟨hparent, hready⟩ := h.parent_made hmade
  obtain ⟨opened, hwrites, -⟩ := FileSystem.copyFile_eq_ok hcopy
  have hwritten := hwrites.at?_written bytes
  have hchanges : Changes (fun _ => True) fs (opened.put (files.place target) (.file bytes)) :=
    (hparent.mono fun _ _ => trivial).trans (hwrites.changes trivial bytes)
  rw [hready.target_eq] at hwritten hchanges
  rw [h.source_eq] at hfile
  obtain ⟨n, hn, hkind⟩ := hchanges.isDir_eq hfile
  obtain ⟨children, hchildren⟩ := FileSystem.isDirAt_of_below hwritten hbelow
  rw [hn, Option.some.injEq] at hchildren
  subst hchildren
  cases hkind

/-- Nothing is copied to a place below it: no fuel is enough. -/
theorem Filling.not_ok_of_below (fuel : Nat)
    (h : Filling (fun _ => True) st.files R source target S T) (hbelow : Below S T) :
    (copyTree fuel source target st).1 ≠ .ok () := by
  induction fuel generalizing source target S T st with
  | zero => exact nofun
  | succ fuel ih =>
    have hstep := copyStep fuel source target st
    generalize copyTree (fuel + 1) source target st = out at hstep ⊢
    cases hstep with
    | stopped | broken => exact nofun
    | file hstat hmade hcopy => exact absurd hbelow (h.not_below_of_copyFile hstat hmade hcopy)
    | @entries _ files names hstat hmade hlist =>
      intro hok
      obtain ⟨-, hlisted⟩ := h.made hmade
      -- The target that was made shows in the source, under the first name of the way to it.
      obtain ⟨name, rest, rfl⟩ : ∃ name rest, T = S ++ name :: rest :=
        FileSystem.exists_cons_of_prefix hbelow.1 fun hT =>
          hbelow.2 (hT.eq_of_length_le hbelow.1.length_le)
      have hmadeDir := (FileSystem.goes_of_makeDirs h.anchored.isDirAt_start hmade).isDirAt
      change files.IsDirAt (files.place target) at hmadeDir
      rw [hlisted.target_eq] at hmadeDir
      obtain ⟨children, hchildren⟩ : files.IsDirAt (S ++ [name]) := hmadeDir.of_prefix (by simp)
      have hthere : files.root.at? (S ++ [name]) ≠ none := by simp [hchildren]
      obtain ⟨before, after, rfl⟩ := List.append_of_mem ((hlisted.mem_names_iff hlist).mpr hthere)
      obtain ⟨now, next, hbefore, hcopy, -⟩ := copyEntries_split (Prod.ext hok rfl)
      have hnames (s : String) (hs : s ∈ before) :=
        (hlisted.mem_names_iff hlist).mp (List.mem_append_left _ hs)
      have hchanges := (hlisted.changes_names (confined_copyTree R fuel) hnames hbefore).mono
        fun _ => hlisted.fills_of_names hnames
      refine ih ((hlisted.of_changes hchanges).child (hchanges.ne_none hthere))
        ⟨by simp, by simp⟩ ?_
      rw [hcopy]

/-! ## Copies into an output directory -/

variable {out : OutputDir} {path : String} {n : Node}

/-- What is put where the source has something already, or beside the source, adds
nothing to the source. -/
theorem treeShape_of_fills
    (hwithin : ∀ p k, n.at? p ≠ none → T ++ p = S ++ k → n.at? k ≠ none) {k : List String}
    (hk : Fills R (treeShape n) T (S ++ k)) : treeShape n k := by
  rcases hk.2 with ⟨rest, hrest⟩ | ⟨p, hp, heq⟩
  · intro hnone
    refine hwithin [] (k ++ rest) (by simp) ?_ ?_
    · rw [List.append_nil, ← hrest, List.append_assoc]
    · rw [Node.at?_append, hnone, Option.bind_none]
  · exact hwithin p k hp heq.symm

/-- What is put into the source by a copy to a place that is not below it stands no
deeper in the source than where it came from. -/
theorem length_lt_of_fills {d : Nat} (hd : 0 < d) (hbelow : ¬ Below S T) {k : List String}
    (hk : Fills R (fun p => p.length < d) T (S ++ k)) : k.length < d := by
  have hshort (h : S <+: T) : T.length ≤ S.length := by
    by_contra hlt
    exact hbelow ⟨h, fun heq => hlt (heq ▸ Nat.le_refl _)⟩
  rcases hk.2 with hpre | ⟨p, hp, heq⟩
  · have hlength := hpre.length_le
    rw [List.length_append] at hlength
    have := hshort ((List.prefix_append S k).trans hpre)
    omega
  · have hlength := congrArg List.length heq
    simp only [List.length_append] at hlength
    have : T.length ≤ S.length := by
      by_contra hlt
      refine hlt (hshort ?_)
      exact List.prefix_of_prefix_length_le (heq ▸ List.prefix_append S k)
        (List.prefix_append T p) (Nat.le_of_not_le hlt)
    omega

/-- What a path leads to is told by the number of files and directories that it holds. -/
theorem exists_of_stat_size {size : Nat}
    (h : ((fs.stat source).toOption.map Node.size) = some size) :
    ∃ n, fs.stat source = .ok n ∧ n.size = size := by
  cases hstat : fs.stat source with
  | error e => simp [hstat, Except.toOption] at h
  | ok n =>
    refine ⟨n, rfl, ?_⟩
    simpa [hstat, Except.toOption] using h

/-- Take a copy of something that is there to a target that an output directory accepts.
If the target is not below the source, the copy ends by itself: it goes less deep than
the number of files and directories in the source, and more fuel changes nothing.  If it
puts nothing into the source that is not there, it visits no more than these.  But where
the target is below the source, no fuel is enough. -/
theorem copy_extent (hfs : fs.Sound) (hroot : out.Rooted fs)
    (htarget : out.resolve path = .ok target) (hstat : fs.stat source = .ok n) :
    (¬ Below (fs.place source) (fs.place target) → ∀ fuel, n.size ≤ fuel →
      copyTree fuel source target { files := fs } =
        copyTree n.size source target { files := fs }) ∧
    ((∀ p k, n.at? p ≠ none → fs.place target ++ p = fs.place source ++ k → n.at? k ≠ none) →
      ∀ fuel, (copyTree fuel source target { files := fs }).2.visited ≤ n.size) ∧
    (Below (fs.place source) (fs.place target) →
      ∀ fuel, (copyTree fuel source target { files := fs }).1 ≠ .ok ()) := by
  obtain ⟨R, hR⟩ := hroot
  have hanchored := anchored_of_resolve hR htarget
  have hn := FileSystem.at?_of_stat hstat
  have hat (k : List String) : fs.root.at? (fs.place source ++ k) = n.at? k := by
    rw [Node.at?_append, hn, Option.bind_some]
  refine ⟨fun hbelow fuel hfuel => ?_, fun hwithin fuel => ?_, fun hbelow fuel =>
    (filling_true hfs hanchored source).not_ok_of_below fuel hbelow⟩
  · have hfilling : Filling (fun k => k.length < n.size) (Copying.files { files := fs }) R source
        target (fs.place source) (fs.place target) := by
      refine ⟨hfs, hanchored, rfl, rfl, fun k hk => ?_, fun k hk =>
        length_lt_of_fills n.size_pos hbelow hk⟩
      obtain ⟨m, hm⟩ := Option.ne_none_iff_exists'.mp (hat k ▸ hk)
      have hlength := Node.length_add_size_le hm
      have := m.size_pos
      omega
    obtain ⟨d, hd⟩ := Nat.exists_eq_add_of_le' n.size_pos
    obtain ⟨f, rfl⟩ := Nat.exists_eq_add_of_le' (n.size_pos.trans_le hfuel)
    rw [hd]
    exact hfilling.copyTree_eq (.inl fun k hk => by omega) (by omega) (Nat.le_refl d)
  · have hfilling : Filling (treeShape n) (Copying.files { files := fs }) R source target
        (fs.place source) (fs.place target) :=
      ⟨hfs, hanchored, rfl, rfl, fun k hk => by rwa [hat] at hk,
        fun k hk => treeShape_of_fills hwithin hk⟩
    have hordered : n.Ordered := fun p children hp => hfs.sorted _ children ((hat p).trans hp)
    have hvisited := hfilling.visited_copyTree_le fuel hordered fun k hk => (hat k).symm ▸ hk
    rwa [Nat.zero_add] at hvisited

/-- A copy of two files, one in a directory, beside its source: the source holds four
files and directories, and no more are visited. -/
theorem copy_extent_beside :
    ∃ fs target n,
      create "site" ((({} : FileSystem).plant "src/a" (some "x".toUTF8)).plant "src/d/b"
        (some "y".toUTF8)) = (.ok ⟨"site"⟩, fs) ∧
      resolve ⟨"site"⟩ "c" = .ok target ∧ fs.stat "src" = .ok n ∧ n.size = 4 ∧
      ∀ fuel, (copyTree fuel "src" target { files := fs }).2.visited ≤ 4 := by
  have hcreate : create "site" ((({} : FileSystem).plant "src/a" (some "x".toUTF8)).plant "src/d/b"
      (some "y".toUTF8)) = _ := create_eq_of_isOk (by decide +kernel)
  have hplanted : ((({} : FileSystem).plant "src/a" (some "x".toUTF8)).plant "src/d/b"
      (some "y".toUTF8)).Sound := ((FileSystem.sound_of_empty rfl rfl).plant _ _).plant _ _
  have htarget : resolve ⟨"site"⟩ "c" = .ok (Path.join "site" "c") :=
    resolve_eq_ok_iff.mpr ⟨by decide +kernel, rfl⟩
  generalize hfs : (create "site" ((({} : FileSystem).plant "src/a" (some "x".toUTF8)).plant
    "src/d/b" (some "y".toUTF8))).2 = fs at hcreate
  have hplaces : fs.place "src" = ["src"] ∧ fs.place (Path.join "site" "c") = ["site", "c"] := by
    rw [← hfs]
    decide +kernel
  have hstat : ∃ n, fs.stat "src" = .ok n ∧ n.size = 4 := exists_of_stat_size (by
    rw [← hfs]
    decide +kernel)
  obtain ⟨n, hn, hsize⟩ := hstat
  have hextent := (copy_extent ((changes_of_create hcreate).2.2.sound hplanted)
    (rooted_of_create hplanted hcreate) htarget hn).2.1
  rw [hplaces.1, hplaces.2] at hextent
  exact ⟨fs, _, n, hcreate, htarget, hn, hsize, fun fuel => hsize ▸ hextent (by simp) fuel⟩

/-- A directory into which an output directory was made, and to which it is copied, holds
two files and directories, but more are visited, and no fuel is enough. -/
theorem copy_into_source_endless :
    ∃ fs target n,
      create "src/out" (({ pathMax := 16 } : FileSystem).plant "src" none) = (.ok ⟨"src/out"⟩, fs) ∧
      resolve ⟨"src/out"⟩ "c" = .ok target ∧ fs.stat "src" = .ok n ∧ n.size = 2 ∧
      2 < (copy "src" target fs).2.visited ∧
      ∀ fuel, (copyTree fuel "src" target { files := fs }).1 ≠ .ok () := by
  have hcreate : create "src/out" (({ pathMax := 16 } : FileSystem).plant "src" none) = _ :=
    create_eq_of_isOk (by decide +kernel)
  have hplanted : (({ pathMax := 16 } : FileSystem).plant "src" none).Sound :=
    (FileSystem.sound_of_empty rfl rfl).plant "src" none
  have htarget : resolve ⟨"src/out"⟩ "c" = .ok (Path.join "src/out" "c") :=
    resolve_eq_ok_iff.mpr ⟨by decide +kernel, rfl⟩
  generalize hfs : (create "src/out" (({ pathMax := 16 } : FileSystem).plant "src" none)).2 = fs
    at hcreate
  have hplaces : fs.place "src" = ["src"] ∧
      fs.place (Path.join "src/out" "c") = ["src", "out", "c"] := by
    rw [← hfs]
    decide +kernel
  have hvisited : 2 < (copy "src" (Path.join "src/out" "c") fs).2.visited := by
    rw [← hfs]
    decide +kernel
  obtain ⟨n, hn, hsize⟩ : ∃ n, fs.stat "src" = .ok n ∧ n.size = 2 := exists_of_stat_size (by
    rw [← hfs]
    decide +kernel)
  refine ⟨fs, _, n, hcreate, htarget, hn, hsize, hvisited, fun fuel => ?_⟩
  have hsound := (changes_of_create hcreate).2.2.sound hplanted
  have hanchored := anchored_of_resolve (anchored_of_create hplanted hcreate) htarget
  refine (filling_true hsound hanchored "src").not_ok_of_below fuel ?_
  rw [hplaces.1, hplaces.2]
  exact ⟨⟨["out", "c"], rfl⟩, by simp⟩

end OutputDir

end PluginChain
