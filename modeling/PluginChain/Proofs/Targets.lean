import PluginChain.OutputDir
import PluginChain.Proofs.Changes
set_option autoImplicit false

/-!
# Targets of writes

A target is anchored in a directory if its way goes to that directory first, and only
by names from there on.  Every target that an output directory accepts is anchored in
it.  Whatever is made on the way to an anchored target, and there, lies below the
directory in which it is anchored.
-/

namespace PluginChain.FileSystem

open PluginChain.Path (moves)

variable {fs fs' : FileSystem} {allowed : List String → Prop} {P Q R ms : List String}
  {path : String}

/-- The way of the path goes to the directory at `R`, and by names from there on. -/
structure Anchored (fs : FileSystem) (R : List String) (path : String) : Prop where
  way : ∃ before after, moves path = before ++ after ∧ ".." ∉ after ∧
    fs.Goes (fs.start path) before ∧ walk (fs.start path) before = R

theorem Anchored.isDirAt_start (h : fs.Anchored R path) : fs.IsDirAt (fs.start path) := by
  obtain ⟨before, after, -, -, hgoes, -⟩ := h.way
  exact hgoes.isDirAt_start

/-- An anchored path stays anchored. -/
theorem Anchored.of_changes (h : fs.Anchored R path) (hchanges : Changes allowed fs fs') :
    fs'.Anchored R path := by
  obtain ⟨before, after, hmoves, hup, hgoes, hwalk⟩ := h.way
  rw [← hchanges.start_eq] at hgoes hwalk
  exact ⟨before, after, hmoves, hup, hchanges.goes hgoes, hwalk⟩

/-- Continued by an inner path, an anchored path is anchored. -/
theorem Anchored.join {other : String} (h : fs.Anchored R path)
    (habsolute : Path.isAbsolute other = false) (hup : ".." ∉ moves other) :
    fs.Anchored R (Path.join path other) := by
  obtain ⟨before, after, hmoves, hup', hgoes, hwalk⟩ := h.way
  have hstart : fs.start (Path.join path other) = fs.start path := by
    rw [start, start, Path.isAbsolute_join path habsolute]
  refine ⟨before, after ++ moves other, ?_, ?_, ?_, ?_⟩
  · rw [Path.moves_join path habsolute, hmoves, List.append_assoc]
  · simp [hup, hup']
  · rwa [hstart]
  · rwa [hstart]

/-- Continued by a name, an anchored path is anchored. -/
theorem Anchored.join_name {name : String} (h : fs.Anchored R path) (hname : Path.IsName name) :
    fs.Anchored R (Path.join path name) :=
  h.join hname.isAbsolute_eq (by simpa [hname.moves_eq] using hname.not_up.symm)

/-- Continued by another, a path means the place to which the other leads from there. -/
theorem place_join (fs : FileSystem) (path : String) {other : String}
    (habsolute : Path.isAbsolute other = false) :
    fs.place (Path.join path other) = walk (fs.place path) (moves other) := by
  rw [place, place, Path.moves_join path habsolute, walk_append, start, start,
    Path.isAbsolute_join path habsolute]

/-- Continued by a name, a path means the name below its place. -/
theorem place_join_name (fs : FileSystem) (path : String) {name : String}
    (h : Path.IsName name) : fs.place (Path.join path name) = fs.place path ++ [name] := by
  rw [place_join fs path h.isAbsolute_eq, h.moves_eq,
    walk_of_up_not_mem _ (by simpa using h.not_up.symm)]

/-! ## Making directories -/

/-- A directory is made at the place of its path. -/
theorem change_of_makeDir (h : fs.makeDir path = .ok fs') (hmay : allowed (fs.place path)) :
    Change allowed fs fs' := by
  obtain ⟨parent, name, hopens, hnone, rfl⟩ := makeDir_eq_ok h
  rw [hopens.place_eq] at hmay
  exact .made hopens.isDirAt hopens.isName hmay hnone

/-- A directory that was made is led to. -/
theorem goes_of_makeDir (h : fs.makeDir path = .ok fs') :
    fs'.Goes (fs'.start path) (moves path) := by
  have hchange : Change (fun _ => True) fs fs' := change_of_makeDir h trivial
  obtain ⟨parent, name, hopens, -, rfl⟩ := makeDir_eq_ok h
  have hplace := hopens.place_eq
  obtain ⟨siblings, hsiblings⟩ := hopens.isDirAt
  obtain ⟨before, hmoves, hgoes, -⟩ := hopens.way
  have hstart := (Changes.single hchange).start_eq path
  rw [hstart, hmoves]
  refine ((Changes.single hchange).goes hgoes).concat ?_
  rw [← hmoves]
  change IsDirAt _ (fs.place path)
  rw [hplace]
  exact ⟨[], Node.at?_put_self hsiblings .emptyDir⟩

/-- What making a chain comes to: in the files as they were, or as the chain above has
left them, the first directory is made, or nothing is done; that counts as success where
the directory is there. -/
theorem makeChain_cons_cases (fs : FileSystem) (path : String) (above : List String) :
    ∃ between, (between = fs ∨ between = (fs.makeChain above).2) ∧
      ((∃ made, between.makeDir path = .ok made ∧ fs.makeChain (path :: above) = (.ok (), made)) ∨
        (fs.makeChain (path :: above)).2 = between ∧
          ((fs.makeChain (path :: above)).1 = .ok () → path = "" ∨ between.isDir path = true)) := by
  by_cases hempty : path = ""
  · refine ⟨fs, .inl rfl, .inr ?_⟩
    rw [makeChain, if_pos hempty]
    exact ⟨rfl, fun _ => .inl hempty⟩
  · rw [makeChain, if_neg hempty]
    cases hmake : fs.makeDir path with
    | ok made => exact ⟨fs, .inl rfl, .inl ⟨made, hmake, rfl⟩⟩
    | error e =>
      dsimp only
      by_cases hmissing : e = .notFound
      · rw [if_pos hmissing]
        rcases habove : fs.makeChain above with ⟨_ | _, between⟩
        · exact ⟨between, .inr rfl, .inr ⟨rfl, nofun⟩⟩
        · refine ⟨between, .inr rfl, ?_⟩
          dsimp only
          cases hagain : between.makeDir path with
          | ok made => exact .inl ⟨made, rfl, rfl⟩
          | error e' =>
            refine .inr ⟨rfl, fun hok => .inr ?_⟩
            dsimp only at hok
            by_contra hdir
            rw [if_neg hdir] at hok
            cases hok
      · rw [if_neg hmissing]
        refine ⟨fs, .inl rfl, .inr ⟨rfl, fun hok => .inr ?_⟩⟩
        dsimp only at hok
        by_contra hdir
        rw [if_neg hdir] at hok
        cases hok

/-- Making a chain of directories makes them only at their places, and only where there
is none. -/
theorem changes_makeChain {chain : List String}
    (h : ∀ b ∈ chain, fs.IsDirAt (fs.place b) ∨ allowed (fs.place b)) :
    Changes allowed fs (fs.makeChain chain).2 := by
  induction chain with
  | nil => exact .refl fs
  | cons b above ih =>
    obtain ⟨hb, habove⟩ := List.forall_mem_cons.mp h
    obtain ⟨between, hbetween, hcases⟩ := makeChain_cons_cases fs b above
    have hchanges : Changes allowed fs between := by
      rcases hbetween with rfl | rfl
      · exact .refl between
      · exact ih habove
    rcases hcases with ⟨made, hmade, hout⟩ | ⟨hsame, -⟩
    · rw [hout]
      rw [← hchanges.place_eq] at hb
      rcases hb with hdir | hmay
      · obtain ⟨parent, name, hopens, hnone, -⟩ := makeDir_eq_ok hmade
        rw [hopens.place_eq] at hdir
        obtain ⟨children, hchildren⟩ := hchanges.isDirAt hdir
        rw [hnone] at hchildren
        cases hchildren
      · exact hchanges.trans (.single (change_of_makeDir hmade hmay))
    · rw [hsame]
      exact hchanges

/-- Where a chain of directories is made, its first path leads to a directory. -/
theorem goes_of_makeChain {above : List String} (hhere : fs.IsDirAt (fs.start path))
    (h : fs.makeChain (path :: above) = (.ok (), fs')) :
    fs'.Goes (fs'.start path) (moves path) := by
  obtain ⟨between, hbetween, hcases⟩ := makeChain_cons_cases fs path above
  rw [h] at hcases
  rcases hcases with ⟨made, hmade, hout⟩ | ⟨hsame, hok⟩
  · obtain rfl := (Prod.mk.inj hout).2
    exact goes_of_makeDir hmade
  · obtain rfl : fs' = between := hsame
    rcases hok rfl with rfl | hdir
    · have hchanges : Changes (fun _ => True) fs fs' := by
        rcases hbetween with rfl | rfl
        · exact .refl fs'
        · exact changes_makeChain fun _ _ => .inr trivial
      intro k hk
      rw [List.prefix_nil.mp hk, walk_nil, hchanges.start_eq]
      exact hchanges.isDirAt hhere
    · exact goes_of_isDir hdir

/-- A path and the directories above it begin alike, and have the first moves in
common. -/
theorem of_mem_ancestors {n : Nat} {b : String} (h : b ∈ ancestors n path) :
    Path.isAbsolute b = Path.isAbsolute path ∧ moves b <+: moves path := by
  induction n generalizing path with
  | zero =>
    obtain rfl := List.mem_singleton.mp h
    exact ⟨rfl, List.prefix_rfl⟩
  | succ n ih =>
    rw [ancestors] at h
    split at h
    · next up hup =>
      rcases List.mem_cons.mp h with rfl | h
      · exact ⟨rfl, List.prefix_rfl⟩
      · obtain ⟨habsolute, hpre⟩ := ih h
        refine ⟨habsolute.trans (Path.isAbsolute_of_parent? hup), hpre.trans ?_⟩
        rcases Path.moves_of_parent? hup with ⟨-, rfl⟩ | ⟨last, hlast⟩
        · exact List.nil_prefix
        · rw [hlast]
          exact List.prefix_append _ _
    · obtain rfl := List.mem_singleton.mp h
      exact ⟨rfl, List.prefix_rfl⟩

/-- The way to an anchored path goes through directories first, and then below the one in
which it is anchored. -/
theorem Anchored.way_cases {k : List String} (h : fs.Anchored R path) (hk : k <+: moves path) :
    fs.IsDirAt (walk (fs.start path) k) ∨
      Below R (walk (fs.start path) k) ∧ walk (fs.start path) k <+: fs.place path := by
  obtain ⟨before, after, hmoves, hup, hgoes, hwalk⟩ := h.way
  rw [hmoves] at hk
  by_cases hshort : k <+: before
  · exact .inl (hgoes k hshort)
  · right
    obtain ⟨rest, rfl⟩ : before <+: k :=
      (List.prefix_or_prefix_of_prefix hk (List.prefix_append before after)).resolve_left hshort
    rw [List.prefix_append_right_inj] at hk
    have hrest : walk (fs.start path) (before ++ rest) = R ++ rest := by
      rw [walk_append, hwalk, walk_of_up_not_mem _ fun hmem => hup (hk.subset hmem)]
    have hpath : fs.place path = R ++ after := by
      rw [place, hmoves, walk_append, hwalk, walk_of_up_not_mem _ hup]
    rw [hrest, hpath]
    refine ⟨⟨List.prefix_append R rest, fun hnil => hshort ?_⟩,
      (List.prefix_append_right_inj R).mpr hk⟩
    obtain rfl : rest = [] := List.append_cancel_left (hnil.trans (List.append_nil R).symm)
    simp

/-- A path that shares its first moves with an anchored one means a directory, or else a
place below the directory in which that is anchored. -/
theorem Anchored.isDirAt_or_below {b : String} (h : fs.Anchored R path)
    (habsolute : Path.isAbsolute b = Path.isAbsolute path) (hpre : moves b <+: moves path) :
    fs.IsDirAt (fs.place b) ∨ Below R (fs.place b) ∧ fs.place b <+: fs.place path := by
  have hplace : fs.place b = walk (fs.start path) (moves b) := by
    rw [place, start, start, habsolute]
  rw [hplace]
  exact h.way_cases hpre

/-- The places that making the way to a path, or something there, may change. -/
def OnWay (fs : FileSystem) (R : List String) (path : String) (q : List String) : Prop :=
  Below R q ∧ q <+: fs.place path

/-- Making a directory that shares its way with an anchored path changes that way only. -/
theorem Anchored.changes_makeDirs {b : String} (h : fs.Anchored R path)
    (habsolute : Path.isAbsolute b = Path.isAbsolute path) (hpre : moves b <+: moves path) :
    Changes (fs.OnWay R path) fs (fs.makeDirs b).2 := by
  refine changes_makeChain fun c hc => ?_
  obtain ⟨hcabsolute, hcpre⟩ := of_mem_ancestors hc
  exact h.isDirAt_or_below (hcabsolute.trans habsolute) (hcpre.trans hpre)

theorem exists_ancestors_eq (n : Nat) (path : String) :
    ∃ above, ancestors n path = path :: above := by
  cases n with
  | zero => exact ⟨[], rfl⟩
  | succ n =>
    rw [ancestors]
    cases Path.parent? path with
    | none => exact ⟨[], rfl⟩
    | some up => exact ⟨_, rfl⟩

/-- A directory that is made, with those above it, is led to. -/
theorem goes_of_makeDirs (hhere : fs.IsDirAt (fs.start path))
    (h : fs.makeDirs path = (.ok (), fs')) : fs'.Goes (fs'.start path) (moves path) := by
  obtain ⟨above, habove⟩ := exists_ancestors_eq path.length path
  rw [makeDirs, habove] at h
  exact goes_of_makeChain hhere h

/-! ## Writing files -/

/-- What opening a file for writing comes to, and writing it then: changes at its place,
where it stands at the end. -/
structure Writes (fs : FileSystem) (path : String) (opened : FileSystem) : Prop where
  free : ¬ fs.IsDirAt (fs.place path)
  change_opened (allowed : List String → Prop) (hmay : allowed (fs.place path)) :
    Change allowed fs opened
  change_written (allowed : List String → Prop) (hmay : allowed (fs.place path))
    (bytes : ByteArray) : Change allowed opened (opened.put (fs.place path) (.file bytes))
  at?_written (bytes : ByteArray) :
    (opened.put (fs.place path) (.file bytes)).root.at? (fs.place path) = some (.file bytes)

theorem writes_of_openForWriting {opened : FileSystem}
    (h : fs.openForWriting path = .ok (P, opened)) : P = fs.place path ∧ fs.Writes path opened := by
  obtain ⟨parent, name, hopens, rfl, hfree, rfl⟩ := openForWriting_eq_ok h
  have hchange (allowed : List String → Prop) (hmay : allowed (parent ++ [name])) :
      Change allowed fs (fs.put (parent ++ [name]) (.file ByteArray.empty)) :=
    .written _ hopens.isDirAt hopens.isName hmay hfree
  have hparent := (hchange (fun _ => True) trivial).isDirAt hopens.isDirAt
  have hfile :
      ¬ (fs.put (parent ++ [name]) (.file ByteArray.empty)).IsDirAt (parent ++ [name]) := by
    obtain ⟨siblings, hsiblings⟩ := hopens.isDirAt
    rintro ⟨children, hchildren⟩
    rw [put, Node.at?_put_self hsiblings] at hchildren
    cases hchildren
  refine ⟨hopens.place_eq.symm, ?_⟩
  constructor
  · rwa [hopens.place_eq]
  · rw [hopens.place_eq]
    exact hchange
  · rw [hopens.place_eq]
    exact fun allowed hmay bytes => .written bytes hparent hopens.isName hmay hfile
  · rw [hopens.place_eq]
    obtain ⟨siblings, hsiblings⟩ := hparent
    exact fun bytes => Node.at?_put_self hsiblings _

/-- A file that is written changes its place, twice. -/
theorem Writes.changes {opened : FileSystem} (h : fs.Writes path opened)
    (hmay : allowed (fs.place path)) (bytes : ByteArray) :
    Changes allowed fs (opened.put (fs.place path) (.file bytes)) :=
  (Changes.single (h.change_opened _ hmay)).trans (.single (h.change_written _ hmay bytes))

/-- A file that is opened at an anchored path lies on its way. -/
theorem Anchored.onWay {opened : FileSystem} (h : fs.Anchored R path)
    (hwrites : fs.Writes path opened) : fs.OnWay R path (fs.place path) :=
  (h.isDirAt_or_below rfl List.prefix_rfl).resolve_left hwrites.free

/-- Filling a file that was opened is a write of its place, with all bytes or a beginning of
them. -/
theorem Writes.changes_fill {opened : FileSystem} (h : fs.Writes path opened)
    (hmay : allowed (fs.place path)) (bytes : ByteArray) :
    Changes allowed fs (opened.fill (fs.place path) bytes).2 := by
  rcases opened.fill_cases (fs.place path) bytes with hall | ⟨e, kept, -, hpart⟩
  · rw [hall]
    exact h.changes hmay bytes
  · rw [hpart]
    exact h.changes hmay (bytes.extract 0 kept)

/-- What writing a file comes to: nothing, or the file is opened and then filled. -/
theorem write_cases (fs : FileSystem) (path : String) (bytes : ByteArray) :
    (∃ e, fs.write path bytes = (.error e, fs)) ∨
      ∃ opened, fs.Writes path opened ∧
        fs.write path bytes = opened.fill (fs.place path) bytes := by
  unfold write
  cases hopen : fs.openForWriting path with
  | error e => exact .inl ⟨e, rfl⟩
  | ok opened =>
    obtain ⟨P, opened⟩ := opened
    obtain ⟨rfl, hwrites⟩ := writes_of_openForWriting hopen
    exact .inr ⟨opened, hwrites, rfl⟩

/-- A file that is written is opened before. -/
theorem write_eq_ok {bytes : ByteArray} (h : fs.write path bytes = (.ok (), fs')) :
    ∃ opened, fs.Writes path opened ∧ fs' = opened.put (fs.place path) (.file bytes) := by
  rcases fs.write_cases path bytes with ⟨e, hfailed⟩ | ⟨opened, hwrites, hfill⟩
  · rw [hfailed] at h
    cases h
  · exact ⟨opened, hwrites, fill_eq_ok (hfill ▸ h)⟩

/-- Writing a file changes its place only, whatever the outcome. -/
theorem changes_write (fs : FileSystem) (path : String) (bytes : ByteArray)
    (hmay : ∀ opened, fs.Writes path opened → allowed (fs.place path)) :
    Changes allowed fs (fs.write path bytes).2 := by
  rcases fs.write_cases path bytes with ⟨e, hfailed⟩ | ⟨opened, hwrites, hfill⟩
  · rw [hfailed]
    exact .refl fs
  · rw [hfill]
    exact hwrites.changes_fill (hmay opened hwrites) bytes

/-- What copying a file comes to: nothing, or its target is opened, and then filled with
what the source holds by then, if that is still a file. -/
theorem copyFile_cases (fs : FileSystem) (source target : String) :
    (∃ e, fs.copyFile source target = (.error e, fs)) ∨
      ∃ opened, fs.Writes target opened ∧
        ((∃ bytes, opened.root.at? (fs.place source) = some (.file bytes) ∧
            fs.copyFile source target = opened.fill (fs.place target) bytes) ∨
          fs.copyFile source target = (.ok (), opened) ∧
            ∀ bytes, opened.root.at? (fs.place source) ≠ some (.file bytes)) := by
  unfold copyFile
  cases hreach : fs.reach source with
  | error e => exact .inl ⟨e, rfl⟩
  | ok found =>
    obtain ⟨rfl, -⟩ := reach_eq_ok hreach
    dsimp only [look]
    cases fs.root.at? (fs.place source) with
    | none => exact .inl ⟨_, rfl⟩
    | some n =>
      cases hopen : fs.openForWriting target with
      | error e => exact .inl ⟨e, rfl⟩
      | ok opened =>
        obtain ⟨P, opened⟩ := opened
        obtain ⟨rfl, hwrites⟩ := writes_of_openForWriting hopen
        refine .inr ⟨opened, hwrites, ?_⟩
        dsimp only
        split
        · next bytes hbytes => exact .inl ⟨bytes, hbytes, rfl⟩
        · next hother => exact .inr ⟨rfl, hother⟩

/-- A copy of a file that succeeds opens its target, and then puts there what the source
holds by then, if that is still a file. -/
theorem copyFile_eq_ok {source target : String} (h : fs.copyFile source target = (.ok (), fs')) :
    ∃ opened, fs.Writes target opened ∧
      ((∃ bytes, opened.root.at? (fs.place source) = some (.file bytes) ∧
          fs' = opened.put (fs.place target) (.file bytes)) ∨
        fs' = opened ∧ ∀ bytes, opened.root.at? (fs.place source) ≠ some (.file bytes)) := by
  rcases fs.copyFile_cases source target with
    ⟨e, hfailed⟩ | ⟨opened, hwrites, ⟨bytes, hbytes, hfill⟩ | ⟨hempty, hother⟩⟩
  · rw [hfailed] at h
    cases h
  · exact ⟨opened, hwrites, .inl ⟨bytes, hbytes, fill_eq_ok (hfill ▸ h)⟩⟩
  · rw [hempty] at h
    exact ⟨opened, hwrites, .inr ⟨(congrArg Prod.snd h).symm, hother⟩⟩

/-- Copying a file changes its target only, whatever the outcome. -/
theorem changes_copyFile (fs : FileSystem) (source target : String)
    (hmay : ∀ opened, fs.Writes target opened → allowed (fs.place target)) :
    Changes allowed fs (fs.copyFile source target).2 := by
  rcases fs.copyFile_cases source target with
    ⟨e, hfailed⟩ | ⟨opened, hwrites, ⟨bytes, -, hfill⟩ | ⟨hempty, -⟩⟩
  · rw [hfailed]
    exact .refl fs
  · rw [hfill]
    exact hwrites.changes_fill (hmay opened hwrites) bytes
  · rw [hempty]
    exact .single (hwrites.change_opened _ (hmay opened hwrites))

/-! ## Trees that are planted -/

/-- What is planted changes files only. -/
theorem changes_plant (fs : FileSystem) (path : String) (bytes? : Option ByteArray) :
    Changes (fun _ => True) fs (fs.plant path bytes?) := by
  have hdirs (fs : FileSystem) (path : String) : Changes (fun _ => True) fs (fs.makeDirs path).2 :=
    changes_makeChain fun _ _ => .inr trivial
  have hwrite (fs : FileSystem) (bytes : ByteArray) :
      Changes (fun _ => True) fs (fs.write path bytes).2 :=
    fs.changes_write path bytes fun _ _ => trivial
  unfold plant
  cases bytes? with
  | none => exact hdirs fs path
  | some bytes =>
    cases Path.parent? path with
    | none => exact hwrite fs bytes
    | some parent => exact (hdirs fs parent).trans (hwrite _ bytes)

/-- What is planted in a sound tree leaves it sound. -/
theorem Sound.plant (hfs : fs.Sound) (path : String) (bytes? : Option ByteArray) :
    (fs.plant path bytes?).Sound :=
  (fs.changes_plant path bytes?).sound hfs

/-- What is planted changes nothing about the device. -/
theorem Unbroken.plant (hfs : fs.Unbroken) (path : String) (bytes? : Option ByteArray) :
    (fs.plant path bytes?).Unbroken :=
  (fs.changes_plant path bytes?).unbroken hfs

end PluginChain.FileSystem
