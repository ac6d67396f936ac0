import PluginChain.Proofs.CopySuccess
set_option autoImplicit false

/-!
# A copy lays its source over its target

Take a copy to a place beside its source.  If it succeeds, the tree at the target is the one
that was there with the source laid over it, in whatever order directories are listed:
everything in the source is delivered, and what lies apart from all places of the source
stays.  Two trees that show the same are the same, so nothing else is left open.  And it
succeeds if the source is there and no file and no directory meet (`Clash`), as
long as no path is too long for what it is.
-/

namespace PluginChain.OutputDir

open FileSystem (Anchored Below Changes Permits)

variable {ω : Type} {fs : FileSystem} {R S T : List String} {source target path : String}
  {st done : Copying} {n : Node} {order order' : ListingOrder} {out : OutputDir} {fuel : Nat}
  {host host' host'' : Host ω}

/-- The ways in which a file and a directory meet where a tree is to be put at a place. -/
inductive Clash (fs : FileSystem) (T : List String) (n : Node) : Prop
  /-- A directory is to be put where a file is. -/
  | onFile {p : List String} {children : List (String × Node)} {bytes : ByteArray}
      (hn : n.at? p = some (.dir children)) (hfile : fs.root.at? (T ++ p) = some (.file bytes))
  /-- A file is to be put where a directory is. -/
  | onDir {p : List String} {bytes : ByteArray} {children : List (String × Node)}
      (hn : n.at? p = some (.file bytes)) (hdir : fs.root.at? (T ++ p) = some (.dir children))
  /-- A file stands above the place. -/
  | below {q : List String} {bytes : ByteArray} (hq : Below q T)
      (hfile : fs.root.at? q = some (.file bytes))

theorem not_clash_iff :
    ¬ Clash fs T n ↔ n.Agrees (fs.root.at? T) ∧
      ∀ q, Below q T → ∀ bytes, fs.root.at? q ≠ some (.file bytes) := by
  constructor
  · intro h
    refine ⟨fun p m k hm hk => ?_, fun q hq bytes hfile => h (.below hq hfile)⟩
    rw [← Node.at?_append] at hk
    cases m with
    | file bytes =>
      cases k with
      | file bytes' => rfl
      | dir children => exact absurd (.onDir hm hk) h
    | dir children =>
      cases k with
      | file bytes => exact absurd (.onFile hm hk) h
      | dir children' => rfl
  · rintro ⟨hagrees, habove⟩ hclash
    cases hclash with
    | onFile hn hfile => cases hagrees _ _ _ hn (by rw [← Node.at?_append, hfile])
    | onDir hn hdir => cases hagrees _ _ _ hn (by rw [← Node.at?_append, hdir])
    | below hq hfile => exact habove _ hq _ hfile

/-! ## What is seen after a copy -/

/-- What is filled beside a place does not lie in it. -/
theorem not_prefix_of_fills {shape : List String → Prop} (hST : ¬ S <+: T) (hTS : ¬ T <+: S)
    (q : List String) (hq : Fills R shape T q) : ¬ S <+: q :=
  fun hS => (hq.prefix_or_prefix hS).elim hST hTS

/-- What a path leads to can be copied beside it. -/
theorem filling_of_stat (hfs : fs.Sound) (hanchored : fs.Anchored R target)
    (hST : ¬ fs.place source <+: fs.place target) (hTS : ¬ fs.place target <+: fs.place source)
    (hstat : fs.stat source = .ok n) :
    Filling (treeShape n) fs R source target (fs.place source) (fs.place target) := by
  refine ⟨hfs, hanchored, rfl, rfl, fun k hk => ?_, fun k hk => ?_⟩
  · rwa [Node.at?_append, FileSystem.at?_of_stat hstat, Option.bind_some] at hk
  · exact absurd (List.prefix_append _ k) (not_prefix_of_fills hST hTS _ hk)

section

variable (h : Filling (treeShape n) st.files R source target S T)
  (hapart : ∀ q, Fills R (treeShape n) T q → ¬ S <+: q) (hn : st.files.root.at? S = some n)
  (hdone : copyTreeIn order fuel source target st = (.ok (), done))

include h hdone in
theorem Filling.changes_copied : Changes (Fills R (treeShape n) T) st.files done.files := by
  have hchanges := confined_copyTreeIn order R fuel h
  rwa [hdone] at hchanges

include h hdone in
/-- Neither below the target nor above it anything changes. -/
theorem Filling.at?_apart {q : List String} (habove : ¬ q <+: T) (hbelow : ¬ T <+: q) :
    done.files.root.at? q = st.files.root.at? q := by
  exact (h.changes_copied hdone).at?_same fun r hr hpre =>
    (hr.prefix_or_prefix hpre).elim habove hbelow

include h hdone in
/-- Where the source has nothing, the target has what it had. -/
theorem Filling.at?_missing {p : List String} (hp : n.at? p = none) :
    done.files.root.at? (T ++ p) = st.files.root.at? (T ++ p) := by
  refine (h.changes_copied hdone).at?_same fun r hr hpre => ?_
  rcases hr.2 with habove | ⟨p', hp', rfl⟩
  · have hlength := (hpre.trans habove).length_le
    rw [List.length_append] at hlength
    obtain rfl : p = [] := List.length_eq_zero_iff.mp (by omega)
    cases hp
  · obtain ⟨rest, rfl⟩ := (List.prefix_append_right_inj T).mp hpre
    apply hp'
    rw [Node.at?_append, hp, Option.bind_none]

include h hapart hn hdone in
/-- At the target and below it shows what is in the source, and where nothing is, what was
there. -/
theorem Filling.shown_copied (p : List String) :
    done.files.shown (T ++ p) =
      ((n.at? p).or (st.files.root.at? (T ++ p))).map Node.content? := by
  cases hp : n.at? p with
  | some m => exact h.delivered_in fuel hapart hn hdone hp
  | none => rw [FileSystem.shown, h.at?_missing hdone hp, Option.none_or]

include h hapart hn hdone in
/-- A copy that succeeds has met nothing of another kind. -/
theorem Filling.not_clash : ¬ Clash st.files T n := by
  have hchanges := h.changes_copied hdone
  have hshown := h.shown_copied hapart hn hdone
  refine not_clash_iff.mpr ⟨fun p m k hm hk => ?_, fun q hq bytes hfile => ?_⟩
  · rw [← Node.at?_append] at hk
    obtain ⟨k', hk', hkind⟩ := hchanges.isDir_eq hk
    have hcontent := hshown p
    rw [FileSystem.shown, hk', hm] at hcontent
    rw [← hkind]
    exact (Node.isDir_eq_of_content (Option.some.inj hcontent)).symm
  · have hhere := hshown []
    rw [List.append_nil, Node.at?_nil] at hhere
    obtain ⟨t, ht, -⟩ := Option.map_eq_some_iff.mp hhere
    obtain ⟨held, hheld⟩ := FileSystem.isDirAt_of_below ht hq
    obtain ⟨k', hk', hkind⟩ := hchanges.isDir_eq hfile
    rw [hheld, Option.some.injEq] at hk'
    subst hk'
    cases hkind

include h hapart hn hdone in
/-- The tree at the target is the one that was there with the source laid over it. -/
theorem Filling.at?_target :
    done.files.root.at? T = some (n.overlay (st.files.root.at? T)) := by
  have hshown := h.shown_copied hapart hn hdone
  have hagrees := (not_clash_iff.mp (h.not_clash hapart hn hdone)).1
  have hsound := (h.changes_copied hdone).sound h.sound
  have hhere := hshown []
  rw [List.append_nil, Node.at?_nil] at hhere
  obtain ⟨t, ht, -⟩ := Option.map_eq_some_iff.mp hhere
  rw [ht]
  congr 1
  refine Node.eq_of_content (fun p children hp => ?_) (Node.ordered_overlay n fun old hold => ?_)
    fun p => ?_
  · refine hsound.sorted (T ++ p) children ?_
    rw [Node.at?_append, ht, Option.bind_some, hp]
  · intro p children hp
    refine h.sound.sorted (T ++ p) children ?_
    rw [Node.at?_append, hold, Option.bind_some, hp]
  · rw [Node.shown_overlay hagrees, ← Node.at?_append, ← hshown p, FileSystem.shown,
      Node.at?_append, ht, Option.bind_some]

end

/-- Two copies from the same files, in whatever orders, leave the same. -/
theorem Filling.files_eq {done' : Copying} (h : Filling (treeShape n) st.files R source target S T)
    (hapart : ∀ q, Fills R (treeShape n) T q → ¬ S <+: q) (hn : st.files.root.at? S = some n)
    (hdone : copyTreeIn order fuel source target st = (.ok (), done))
    (hdone' : copyTreeIn order' fuel source target st = (.ok (), done')) :
    done.files = done'.files := by
  have hchanges := h.changes_copied hdone
  have hchanges' := h.changes_copied hdone'
  refine hchanges.eq_of_root hchanges' ?_
  refine Node.eq_of_content (hchanges.sound h.sound).sorted (hchanges'.sound h.sound).sorted
    fun q => ?_
  change done.files.shown q = done'.files.shown q
  by_cases hbelow : T <+: q
  · obtain ⟨p, rfl⟩ := hbelow
    rw [h.shown_copied hapart hn hdone, h.shown_copied hapart hn hdone']
  · by_cases habove : q <+: T
    · -- Above the target there are directories, whatever was there.
      have hq : Below q T := ⟨habove, fun heq => hbelow (heq ▸ List.prefix_rfl)⟩
      obtain ⟨held, hheld⟩ :=
        FileSystem.isDirAt_of_below (h.at?_target hapart hn hdone) hq
      obtain ⟨held', hheld'⟩ :=
        FileSystem.isDirAt_of_below (h.at?_target hapart hn hdone') hq
      rw [FileSystem.shown, FileSystem.shown, hheld, hheld']
      rfl
    · rw [FileSystem.shown, FileSystem.shown, h.at?_apart hdone habove hbelow,
        h.at?_apart hdone' habove hbelow]

/-! ## Copies into an output directory -/

/-- A copy that succeeds has found its source. -/
theorem exists_stat_of_copied (hdone : copyTreeIn order fuel source target st = (.ok (), done)) :
    ∃ n, st.files.stat source = .ok n := by
  cases fuel with
  | zero => cases hdone
  | succ fuel =>
    have hstep := copyStep_copyNode (copyTreeIn order fuel) (order.arrange (st.visited + 1))
      source target st
    rw [copyTreeIn] at hdone
    rw [hdone] at hstep
    generalize hout : ((.ok (), done) : Except Fault Unit × Copying) = out at hstep
    cases hstep with
    | stopped | broken => cases hout
    | file hstat hparent hcopy => exact ⟨_, hstat⟩
    | entries hstat hmade hlist => exact ⟨_, hstat⟩

/-- A target that is accepted ends in a name, if its path has moves and nothing that says
nothing stands at the end. -/
theorem endsIn_of_resolve (h : out.resolve path = .ok target) (hmoves : Path.moves path ≠ [])
    (hslash : ¬ ['/'] <:+ path.toList) (hpoint : ¬ ['/', '.'] <:+ path.toList) :
    ∃ name, Path.IsName name ∧ FileSystem.EndsIn target name := by
  obtain ⟨habsolute, hup, rfl⟩ := moves_of_resolve h
  obtain ⟨last, hlast⟩ := FileSystem.exists_endsIn hmoves hslash hpoint
  obtain ⟨before, hsteps, hms⟩ := hlast.moves_eq
  obtain ⟨-, -, hspeaks⟩ := id hlast
  have hmem : last ∈ FileSystem.steps path :=
    hsteps ▸ List.mem_append_right before List.mem_cons_self
  refine ⟨last, Path.isName_of_mem_allSegments (FileSystem.mem_allSegments_of_mem_steps hmem)
    hspeaks fun heq => hup ?_, hlast.join habsolute out.root⟩
  rw [hms, ← heq]
  exact List.mem_append_right _ List.mem_cons_self

/-- That the paths of a source are permitted is told by going through its places. -/
theorem permits_of_places {places : List (List String)} {p : List String}
    (hplaces : (fs.stat source).toOption.map Node.places = some places)
    (hpermits : ∀ p ∈ places, fs.Permits (along source p) ∧ fs.Permits (along target p))
    (hn : fs.stat source = .ok n) (hp : n.at? p ≠ none) :
    fs.Permits (along source p) ∧ fs.Permits (along target p) := by
  obtain ⟨m, hm⟩ := Option.ne_none_iff_exists'.mp hp
  rw [hn] at hplaces
  exact hpermits p (Option.some.inj hplaces ▸ Node.mem_places hm)

/-- Take a copy to a target that an output directory accepts, and let neither of its source
and its target lie in the other.

* If it succeeds, whatever the order in which directories are listed, the tree at the target
  is the one that was there with the source laid over it: every file of the source is at its
  place with its bytes, every directory of the source is there, and any other place below the
  target is as it was.  Nothing goes away, and what is neither below the target nor above it
  stays as it was.
* In two orders in which it succeeds it leaves the same.
* Where the path of the target has a move, and neither a slash nor a slash and a point stand
  at its end, it succeeds, in every order, exactly if the source is there and no file and no
  directory meet, as long as all paths in the tree are permitted and no write is broken off.

The copy that plugins are handed is the one in the order in which directories hold their
names. -/
theorem copy_overlays (hfs : host.files.Sound) (hroot : out.Rooted host.files)
    (htarget : out.resolve path = .ok target)
    (hST : ¬ host.files.place source <+: host.files.place target)
    (hTS : ¬ host.files.place target <+: host.files.place source) :
    let fs := host.files
    let T := fs.place target
    (∀ (order : ListingOrder) (host' : Host ω),
      out.copyIntoIn order source path host = (.ok (), host') →
        ∃ n, fs.stat source = .ok n ∧
          host'.files.root.at? T = some (n.overlay (fs.root.at? T)) ∧
          (∀ p bytes, n.at? p = some (.file bytes) →
            host'.files.root.at? (T ++ p) = some (.file bytes)) ∧
          (∀ p children, n.at? p = some (.dir children) → host'.files.IsDirAt (T ++ p)) ∧
          (∀ p, n.at? p = none → host'.files.root.at? (T ++ p) = fs.root.at? (T ++ p)) ∧
          (∀ q, fs.root.at? q ≠ none → host'.files.root.at? q ≠ none) ∧
          ∀ q, ¬ q <+: T → ¬ T <+: q → host'.files.root.at? q = fs.root.at? q) ∧
    (∀ (order order' : ListingOrder) (host' host'' : Host ω),
      out.copyIntoIn order source path host = (.ok (), host') →
        out.copyIntoIn order' source path host = (.ok (), host'') → host' = host'') ∧
    (Path.moves path ≠ [] → ¬ ['/'] <:+ path.toList → ¬ ['/', '.'] <:+ path.toList →
      fs.Unbroken → (∀ n p, fs.stat source = .ok n → n.at? p ≠ none →
        fs.Permits (along source p) ∧ fs.Permits (along target p)) →
      ∀ order : ListingOrder, (out.copyIntoIn order source path host).1 = .ok () ↔
        ∃ n, fs.stat source = .ok n ∧ ¬ Clash fs T n) ∧
    out.copyIntoIn .asListed source path host = out.copyInto source path host := by
  intro fs T
  obtain ⟨R, hR⟩ := hroot
  have hanchored : fs.Anchored R target := anchored_of_resolve hR htarget
  have hapart {n : Node} (q : List String) (hq : Fills R (treeShape n) T q) :
      ¬ fs.place source <+: q := not_prefix_of_fills hST hTS q hq
  have hfilling {n : Node} (hn : fs.stat source = .ok n) :
      Filling (treeShape n) (Copying.files { files := fs }) R source target (fs.place source) T :=
    filling_of_stat hfs hanchored hST hTS hn
  refine ⟨fun order host' hcopy => ?_, fun order order' host' host'' hcopy hcopy' => ?_,
    fun hmoves hslash hpoint hunbroken hpermits order => ?_,
    congrFun (copyIntoIn_asListed out source path) host⟩
  · obtain ⟨done, hdone, rfl⟩ := copyIntoIn_eq_ok htarget hcopy
    obtain ⟨n, hn⟩ := exists_stat_of_copied hdone
    have hat := FileSystem.at?_of_stat hn
    have hchanges := (hfilling hn).changes_copied hdone
    refine ⟨n, hn, (hfilling hn).at?_target hapart hat hdone, fun p bytes hp => ?_,
      fun p children hp => ?_, fun p hp => ?_, fun q hq => hchanges.ne_none hq,
      fun q habove hbelow => ?_⟩
    · exact FileSystem.shown_eq_file_iff.mp
        ((hfilling hn).delivered_in fs.pathMax hapart hat hdone hp)
    · exact FileSystem.shown_eq_dir_iff.mp
        ((hfilling hn).delivered_in fs.pathMax hapart hat hdone hp)
    · exact (hfilling hn).at?_missing hdone hp
    · exact (hfilling hn).at?_apart hdone habove hbelow
  · obtain ⟨done, hdone, rfl⟩ := copyIntoIn_eq_ok htarget hcopy
    obtain ⟨done', hdone', rfl⟩ := copyIntoIn_eq_ok htarget hcopy'
    obtain ⟨n, hn⟩ := exists_stat_of_copied hdone
    rw [(hfilling hn).files_eq hapart (FileSystem.at?_of_stat hn) hdone hdone']
  · rw [fst_copyIntoIn htarget]
    constructor
    · intro hok
      have hdone : copyTreeIn order fs.pathMax source target { files := fs } = (.ok (), _) :=
        Prod.ext hok rfl
      obtain ⟨n, hn⟩ := exists_stat_of_copied hdone
      exact ⟨n, hn, (hfilling hn).not_clash hapart (FileSystem.at?_of_stat hn) hdone⟩
    · rintro ⟨n, hn, hclash⟩
      obtain ⟨hagrees, habove⟩ := not_clash_iff.mp hclash
      have hready : Ready n (Copying.files { files := fs }) R source target (fs.place source) T :=
        ⟨hfilling hn, hapart, hn, hunbroken, fun p => hpermits n p hn,
          endsIn_of_resolve htarget hmoves hslash hpoint, hagrees, habove⟩
      obtain ⟨done, hdone⟩ : ∃ done, copyTreeIn order fs.pathMax source target { files := fs } =
          (.ok (), done) := hready.copyTreeIn_ok (Nat.le_add_left _ _)
      exact congrArg Prod.fst hdone

/-- A directory with two files, one in a directory, and an empty directory is copied to a
place where two files are, one of them under the same name and one in a directory of the same
name: in every order the first is replaced, and the other is there with what was copied. -/
theorem copy_overlays_site :
    ∃ fs, create "site" ((((((({} : FileSystem).plant "src/a" (some "x".toUTF8)).plant "src/d/b"
        (some "y".toUTF8)).plant "src/e" none).plant "site/c/a" (some "old".toUTF8)).plant
          "site/c/d/k" (some "kept".toUTF8))) = (.ok ⟨"site"⟩, fs) ∧
      ∀ order : ListingOrder, ∃ host',
        copyIntoIn order ⟨"site"⟩ "src" "c" ({ files := fs, memory := () } : Host Unit) =
            (.ok (), host') ∧
          host'.files.root.at? ["site", "c", "a"] = some (.file "x".toUTF8) ∧
          host'.files.root.at? ["site", "c", "d", "b"] = some (.file "y".toUTF8) ∧
          host'.files.root.at? ["site", "c", "d", "k"] = some (.file "kept".toUTF8) ∧
          host'.files.IsDirAt ["site", "c", "e"] := by
  generalize hplanted : ((((({} : FileSystem).plant "src/a" (some "x".toUTF8)).plant "src/d/b"
    (some "y".toUTF8)).plant "src/e" none).plant "site/c/a" (some "old".toUTF8)).plant
      "site/c/d/k" (some "kept".toUTF8) = planted
  have hsound : planted.Sound := by
    rw [← hplanted]
    exact ((((FileSystem.sound_of_empty rfl rfl).plant _ _).plant _ _).plant _ _).plant _ _
      |>.plant _ _
  have hunbroken : planted.Unbroken := by
    have hempty : FileSystem.Unbroken {} := fun _ _ _ => rfl
    rw [← hplanted]
    exact ((((hempty.plant _ _).plant _ _).plant _ _).plant _ _).plant _ _
  have hcreate : create "site" planted = _ := create_eq_of_isOk (by
    rw [← hplanted]
    decide +kernel)
  generalize hfs : (create "site" planted).2 = fs at hcreate
  have htarget : resolve ⟨"site"⟩ "c" = .ok (Path.join "site" "c") :=
    resolve_eq_ok_iff.mpr ⟨by decide +kernel, rfl⟩
  have hplaces : fs.place "src" = ["src"] ∧ fs.place (Path.join "site" "c") = ["site", "c"] := by
    rw [← hfs, ← hplanted]
    decide +kernel
  have hlisted : (fs.stat "src").toOption.map Node.places =
      some [[], ["a"], ["d"], ["d", "b"], ["e"]] := by
    rw [← hfs, ← hplanted]
    decide +kernel
  have hpermits : ∀ p ∈ [[], ["a"], ["d"], ["d", "b"], ["e"]],
      fs.Permits (along "src" p) ∧ fs.Permits (along (Path.join "site" "c") p) := by
    rw [← hfs, ← hplanted]
    decide +kernel
  have hsource : fs.shown ["src", "a"] = some (some "x".toUTF8) ∧
      fs.shown ["src", "d", "b"] = some (some "y".toUTF8) ∧ fs.shown ["src", "d", "k"] = none ∧
      fs.shown ["src", "e"] = some none ∧
      fs.shown ["site", "c", "d", "k"] = some (some "kept".toUTF8) := by
    rw [← hfs, ← hplanted]
    decide +kernel
  have hapart : ¬ fs.place "src" <+: fs.place (Path.join "site" "c") ∧
      ¬ fs.place (Path.join "site" "c") <+: fs.place "src" := by
    rw [hplaces.1, hplaces.2]
    decide
  have hhost : ({ files := fs, memory := () } : Host Unit).files.Sound :=
    (changes_of_create hcreate).2.2.sound hsound
  obtain ⟨hlaw, -, hiff, hasListed⟩ := copy_overlays hhost (rooted_of_create hsound hcreate) htarget
    hapart.1 hapart.2
  have hiff := hiff (by decide +kernel) (by decide +kernel) (by decide +kernel)
    ((changes_of_create hcreate).2.2.unbroken hunbroken) fun n p => permits_of_places hlisted hpermits
  obtain ⟨⟨⟩, hcopy⟩ := eq_ok_of_isOk (x := copyInto ⟨"site"⟩ "src" "c"
    ({ files := fs, memory := () } : Host Unit)) (by
      rw [← hfs, ← hplanted]
      decide +kernel)
  -- That it succeeds in one order says that nothing clashes, and so it does in every order.
  have hclear := (hiff .asListed).mp (by rw [hasListed, hcopy])
  refine ⟨fs, hcreate, fun order => ?_⟩
  have hok := (hiff order).mpr hclear
  obtain ⟨n, hn, -, hfiles, hdirs, hmissing, -⟩ := hlaw order _ (Prod.ext hok rfl)
  have hat (p : List String) : n.at? p = fs.root.at? (["src"] ++ p) := by
    rw [Node.at?_append, ← hplaces.1, FileSystem.at?_of_stat hn, Option.bind_some]
  dsimp only at hfiles hdirs hmissing
  simp only [hplaces.2, hat] at hfiles hdirs hmissing
  obtain ⟨ha, hb, hk, he, hkept⟩ := hsource
  obtain ⟨children, he⟩ := FileSystem.shown_eq_dir_iff.mp he
  refine ⟨_, Prod.ext hok rfl, hfiles ["a"] _ (FileSystem.shown_eq_file_iff.mp ha),
    hfiles ["d", "b"] _ (FileSystem.shown_eq_file_iff.mp hb), ?_, hdirs ["e"] children he⟩
  exact (hmissing ["d", "k"] (Option.map_eq_none_iff.mp hk)).trans
    (FileSystem.shown_eq_file_iff.mp hkept)

end PluginChain.OutputDir
