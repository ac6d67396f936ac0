import PluginChain.Proofs.Containment
import PluginChain.Text.Utf8
set_option autoImplicit false

/-!
# What is read back from an output directory

What was written into an output directory is read back, however its path is spelt, until
something else is put in its place.  Two things carry this.  A way that can be followed can
be followed after any changes, as directories stay (`Changes.reach`).  And a file stays as
it is where no file is opened: making directories touches none (`file_makeChain`), and a
copy writes only at its target and below it (`Filling.file_kept`).

A write that is broken off is a change from outside: it is the device that cuts the file
short.  The file is open by then, so what it held is gone, and a beginning of what was to be
written is all that is left (`WriteStep.broken`).  A device that takes all bytes leaves no
such write (`not_breaksOff_of_unbroken`).
-/

namespace PluginChain

namespace FileSystem

variable {fs fs' : FileSystem} {allowed : List String → Prop} {P Q : List String}
  {path : String} {bytes : ByteArray}

/-! ## Ways that stay -/

theorem Changes.nameMax_eq (h : Changes allowed fs fs') : fs'.nameMax = fs.nameMax := by
  induction h with
  | refl => rfl
  | tail _ hchange ih =>
    rw [← ih]
    cases hchange <;> rfl

/-- Files after changes are told by their tree. -/
theorem Changes.eq_of_root {fs₁ fs₂ : FileSystem} {also : List String → Prop}
    (h₁ : Changes allowed fs fs₁) (h₂ : Changes also fs fs₂) (hroot : fs₁.root = fs₂.root) :
    fs₁ = fs₂ := by
  have hcwd := h₁.cwd_eq.trans h₂.cwd_eq.symm
  have hname := h₁.nameMax_eq.trans h₂.nameMax_eq.symm
  have hpath := h₁.pathMax_eq.trans h₂.pathMax_eq.symm
  have hdevice := h₁.breaksOff?_eq.trans h₂.breaksOff?_eq.symm
  cases fs₁
  cases fs₂
  simp_all

theorem Changes.checkPath_eq (h : Changes allowed fs fs') (path : String) :
    fs'.checkPath path = fs.checkPath path := by
  unfold checkPath
  rw [h.pathMax_eq]

/-- A segment that can be followed can be followed after changes, to the same place. -/
theorem Changes.enter {segment : String} {next : Reached} (h : Changes allowed fs fs')
    (henter : fs.enter (fs.look P) segment = .ok next) :
    fs'.enter (fs'.look P) segment = .ok (fs'.look next.place) := by
  obtain ⟨⟨children, hdir⟩, -⟩ := enter_eq_ok henter
  obtain ⟨children', hdir'⟩ := h.isDirAt ⟨children, hdir⟩
  unfold FileSystem.enter at henter ⊢
  simp only [look, hdir, hdir', h.nameMax_eq] at henter ⊢
  split_ifs at henter ⊢ with hsilent hup hlong
  · rw [← Except.ok.inj henter, hdir']
  · rw [← Except.ok.inj henter]
  · rw [← Except.ok.inj henter, Node.at?_append, hdir', Option.bind_some, Node.at?_singleton]
    rfl

/-- Segments that can be followed can be followed after changes, to the same place. -/
theorem Changes.follow {segments : List String} {r : Reached} (h : Changes allowed fs fs')
    (hfollow : fs.follow (fs.look P) segments = .ok r) :
    fs'.follow (fs'.look P) segments = .ok (fs'.look r.place) := by
  induction segments generalizing P with
  | nil =>
    rw [← Except.ok.inj hfollow]
    rfl
  | cons segment rest ih =>
    rw [FileSystem.follow] at hfollow ⊢
    cases henter : fs.enter (fs.look P) segment with
    | error e => simp [henter] at hfollow
    | ok next =>
      rw [h.enter henter]
      rw [henter, (enter_eq_ok henter).2] at hfollow
      rw [(enter_eq_ok henter).2]
      exact ih hfollow

/-- A path that leads somewhere leads there after changes. -/
theorem Changes.reach {r : Reached} (h : Changes allowed fs fs') (hreach : fs.reach path = .ok r) :
    fs'.reach path = .ok (fs'.look (fs.place path)) := by
  have hplace : r.place = fs.place path := congrArg Reached.place (reach_eq_ok hreach).1
  rw [← hplace]
  unfold FileSystem.reach at hreach ⊢
  rw [h.checkPath_eq]
  cases hcheck : fs.checkPath path with
  | error e => simp [hcheck] at hreach
  | ok _ =>
    rw [hcheck, origin_eq] at hreach
    rw [origin_eq, h.start_eq]
    exact h.follow hreach

/-! ## Reading -/

/-- A path is read where its way can be followed and leads to a file. -/
theorem read_eq_ok_iff :
    fs.read path = .ok bytes ↔
      (∃ r, fs.reach path = .ok r) ∧ fs.root.at? (fs.place path) = some (.file bytes) := by
  unfold read stat
  cases hreach : fs.reach path with
  | error e => simp
  | ok r =>
    rw [(reach_eq_ok hreach).1]
    dsimp only [look]
    cases fs.root.at? (fs.place path) with
    | none => simp
    | some n => cases n <;> simp

/-- A text is read where its bytes are. -/
theorem readText_eq_ok_iff {content : String} :
    fs.readText path = .ok content ↔ fs.read path = .ok content.toUTF8 := by
  have hutf8 (bytes : ByteArray) :
      String.fromUTF8? bytes = some content ↔ bytes = content.toUTF8 := by
    constructor
    · intro h
      unfold String.fromUTF8? at h
      split_ifs at h
      rw [← Option.some.inj h]
      rfl
    · rintro rfl
      exact Utf8.ofBytes?_toUTF8 content
  unfold readText
  cases hread : fs.read path with
  | error e => simp
  | ok bytes =>
    dsimp only
    rw [Except.ok.injEq, ← hutf8]
    cases String.fromUTF8? bytes <;> simp

/-! ## Writing -/

/-- Without a slash behind it, the last segment of a way is its last name. -/
theorem eq_append_of_splitLast {segments before : List String} {name : String}
    (h : splitLast segments = (before, .name name false)) : segments = before ++ [name] := by
  obtain ⟨slashes, -, hsegments⟩ := exists_empty_segments segments
  have hpre := hsegments ▸ List.prefix_append _ slashes
  unfold splitLast at h
  generalize (segments.reverse.dropWhile (· = "")).reverse = trimmed at h hpre
  dsimp only at h
  cases hlast : trimmed.getLast? with
  | none => simp [hlast] at h
  | some s =>
    obtain ⟨front, rfl⟩ := List.getLast?_eq_some_iff.mp hlast
    simp only [hlast, List.dropLast_concat] at h
    split_ifs at h with hspecial
    · cases h
    · obtain ⟨rfl, hlast⟩ := Prod.mk.inj h
      injection hlast with hname hslashed
      rw [decide_eq_false_iff_not, Nat.not_lt] at hslashed
      rw [← hname]
      exact (hpre.eq_of_length_le hslashed).symm

/-- The way to a file that is opened for writing can be followed. -/
theorem reach_of_openForWriting {opened : FileSystem}
    (h : fs.openForWriting path = .ok (P, opened)) : ∃ r, fs.reach path = .ok r := by
  unfold openForWriting reachParent at h
  unfold reach
  cases hcheck : fs.checkPath path with
  | error e => simp [hcheck] at h
  | ok _ =>
    rw [hcheck] at h
    dsimp only at h ⊢
    generalize hsplit : splitLast (steps path) = parts at h
    obtain ⟨before, last⟩ := parts
    dsimp only at h
    cases hfollow : fs.follow (fs.origin path) before with
    | error e => simp [hfollow] at h
    | ok dir =>
      rw [hfollow] at h
      cases last with
      | special =>
        dsimp only at h
        split at h <;> cases h
      | name s slashed =>
        dsimp only at h
        split at h
        · cases h
        · split_ifs at h with hslashed
          obtain rfl : slashed = false := by simpa using hslashed
          rw [eq_append_of_splitLast hsplit, follow_append, hfollow]
          dsimp only [follow]
          cases henter : fs.enter dir s with
          | error e => simp [henter] at h
          | ok next => exact ⟨next, rfl⟩

/-- A file that was opened is read as it is filled. -/
theorem read_of_openForWriting {opened : FileSystem}
    (h : fs.openForWriting path = .ok (P, opened)) (bytes : ByteArray) :
    (opened.put (fs.place path) (.file bytes)).read path = .ok bytes := by
  obtain ⟨-, hwrites⟩ := writes_of_openForWriting h
  obtain ⟨r, hreach⟩ := reach_of_openForWriting h
  have hchanges : Changes (fun _ => True) fs (opened.put (fs.place path) (.file bytes)) :=
    hwrites.changes trivial bytes
  apply read_eq_ok_iff.mpr
  rw [hchanges.place_eq]
  exact ⟨⟨_, hchanges.reach hreach⟩, hwrites.at?_written bytes⟩

/-- What was written is read. -/
theorem read_of_write (h : fs.write path bytes = (.ok (), fs')) : fs'.read path = .ok bytes := by
  unfold write at h
  split at h
  · cases h
  · next place opened hopen =>
    obtain ⟨rfl, -⟩ := writes_of_openForWriting hopen
    rw [fill_eq_ok h]
    exact read_of_openForWriting hopen bytes

/-! ## Files that stay -/

/-- A file stays as it is if it stands at no allowed place. -/
theorem Change.file_kept (h : Change allowed fs fs') (hQ : ¬ allowed Q)
    (hfile : fs.root.at? Q = some (.file bytes)) : fs'.root.at? Q = some (.file bytes) := by
  obtain ⟨parent, name, new, hparent, -, hmay, hfree, -, rfl⟩ := h.cases_put
  have hne : Q ≠ parent ++ [name] := by
    intro heq
    exact hQ (heq ▸ hmay)
  have hbelow : ¬ parent ++ [name] <+: Q := by
    intro hpre
    exact hne (eq_of_prefix_of_not_isDirAt hfree hpre hfile)
  have habove : ¬ Q <+: parent ++ [name] := by
    intro hpre
    obtain ⟨children, hchildren⟩ :=
      hparent.of_prefix ((List.prefix_concat_iff.mp hpre).resolve_left hne)
    rw [hchildren] at hfile
    cases hfile
  rw [at?_root_put_of_disjoint fs hbelow habove]
  exact hfile

/-- A file stays as it is if it stands at no allowed place. -/
theorem Changes.file_kept (h : Changes allowed fs fs') (hQ : ¬ allowed Q)
    (hfile : fs.root.at? Q = some (.file bytes)) : fs'.root.at? Q = some (.file bytes) := by
  induction h with
  | refl => exact hfile
  | tail _ hchange ih => exact hchange.file_kept hQ ih

theorem file_makeDir (h : fs.makeDir path = .ok fs')
    (hfile : fs.root.at? Q = some (.file bytes)) : fs'.root.at? Q = some (.file bytes) := by
  have hchange : Change (· = fs.place path) fs fs' := change_of_makeDir h rfl
  apply hchange.file_kept _ hfile
  intro hQ
  obtain ⟨parent, name, hopens, hnone, -⟩ := makeDir_eq_ok h
  rw [hQ, hopens.place_eq, hnone] at hfile
  cases hfile

/-- Making directories leaves every file as it is. -/
theorem file_makeChain {chain : List String} (hfile : fs.root.at? Q = some (.file bytes)) :
    (fs.makeChain chain).2.root.at? Q = some (.file bytes) := by
  induction chain with
  | nil => exact hfile
  | cons b above ih =>
    obtain ⟨between, hbetween, hcases⟩ := makeChain_cons_cases fs b above
    have hstays : between.root.at? Q = some (.file bytes) := by
      rcases hbetween with rfl | rfl
      · exact hfile
      · exact ih
    rcases hcases with ⟨made, hmade, hout⟩ | ⟨hsame, -⟩
    · rw [hout]
      exact file_makeDir hmade hstays
    · rw [hsame]
      exact hstays

/-- Copying a file leaves those at other places than its target as they are. -/
theorem file_copyFile (source : String) (hQ : Q ≠ fs.place path)
    (hfile : fs.root.at? Q = some (.file bytes)) :
    (fs.copyFile source path).2.root.at? Q = some (.file bytes) := by
  have hchanges : Changes (· = fs.place path) fs (fs.copyFile source path).2 :=
    fs.changes_copyFile source path fun _ _ => rfl
  exact hchanges.file_kept hQ hfile

end FileSystem

namespace OutputDir

open FileSystem (Below Changes Sound)

variable {ω : Type} {fs fs₁ : FileSystem} {out : OutputDir} {host : Host ω} {P Q R S T : List String}
  {bytes : ByteArray} {source target root path other content text : String}

/-! ## Files that a copy does not reach -/

theorem file_makeParent (hfile : fs.root.at? Q = some (.file bytes)) :
    (makeParent target fs).2.root.at? Q = some (.file bytes) := by
  unfold makeParent
  split
  · exact hfile
  · next parent _ =>
    have hstays : (fs.makeDirs parent).2.root.at? Q = some (.file bytes) :=
      FileSystem.file_makeChain hfile
    rcases hmade : fs.makeDirs parent with ⟨_ | _, files⟩
    · rw [hmade] at hstays
      exact hstays
    · rw [hmade] at hstays
      exact hstays

/-- A copy leaves every file as it is that is not at its target or below. -/
theorem Filling.file_kept {shape : List String → Prop} {st : Copying} (fuel : Nat)
    (h : Filling shape st.files R source target S T) (hapart : ¬ T <+: Q)
    (hfile : st.files.root.at? Q = some (.file bytes)) :
    (copyTree fuel source target st).2.files.root.at? Q = some (.file bytes) := by
  induction fuel generalizing shape source target S T st with
  | zero => exact hfile
  | succ fuel ih =>
    have hstep := copyStep fuel source target st
    generalize copyTree (fuel + 1) source target st = out at hstep ⊢
    cases hstep with
    | stopped hfiles =>
      rcases hfiles with rfl | rfl | rfl
      · exact hfile
      · exact file_makeParent hfile
      · exact FileSystem.file_makeChain hfile
    | broken hmade hcopy | file _ hmade hcopy =>
      obtain ⟨-, hready⟩ := h.parent_made hmade
      have hstays : (makeParent target st.files).2.root.at? Q = some (.file bytes) :=
        file_makeParent hfile
      have hne : Q ≠ T := by
        rintro rfl
        exact hapart List.prefix_rfl
      rw [hmade] at hstays
      rw [← hready.target_eq] at hne
      have hcopied := FileSystem.file_copyFile source hne hstays
      rwa [hcopy] at hcopied
    | @entries children files names hstat hmade hlist =>
      obtain ⟨-, hlisted⟩ := h.made hmade
      have hstays : files.root.at? Q = some (.file bytes) := by
        have hdirs : (st.files.makeDirs target).2.root.at? Q = some (.file bytes) :=
          FileSystem.file_makeChain hfile
        rwa [hmade] at hdirs
      -- The copies of the names change files, so each of them starts from a filling of its own.
      suffices hkeeps : Changes (Fills R shape T) files
          (copyEntries (copyTree fuel) source target names ⟨files, st.visited + 1⟩).2.files ∧
            (copyEntries (copyTree fuel) source target names
              ⟨files, st.visited + 1⟩).2.files.root.at? Q = some (.file bytes) from hkeeps.2
      refine copyEntries_keeps (fun now => Changes (Fills R shape T) files now.files ∧
          now.files.root.at? Q = some (.file bytes)) ?_ ⟨.refl files, hstays⟩
      · intro name hname now hnow
        obtain ⟨hchanges, hnow⟩ := hnow
        have hfilling := hlisted.of_changes hchanges
        have hthere := hchanges.ne_none ((hlisted.mem_names_iff hlist).mp hname)
        refine ⟨hchanges.trans (hfilling.changes_child (confined_copyTree R fuel) hthere), ?_⟩
        apply ih (hfilling.child hthere) _ hnow
        intro hpre
        exact hapart ((List.prefix_append T [name]).trans hpre)

/-! ## Single calls -/

/-- A path is read where it is accepted and leads to a file with that text. -/
theorem read_eq_ok_iff :
    (out.read path host).1 = .ok text ↔
      ∃ target, out.resolve path = .ok target ∧ host.files.read target = .ok text.toUTF8 := by
  unfold read
  cases hresolve : out.resolve path with
  | error f => simp
  | ok target =>
    simp only [Except.ok.injEq, exists_eq_left', ← FileSystem.readText_eq_ok_iff]
    cases host.files.readText target <;> simp

/-- Whether a call that writes gets to open its file: the path is accepted, and the
directory for it is made. -/
def Opens (out : OutputDir) (path : String) (host : Host ω) : Prop :=
  ∃ target made opened, out.resolve path = .ok target ∧
    makeParent target host.files = (.ok (), made) ∧ made.openForWriting target = .ok opened

/-- What a call that writes comes to. -/
inductive WriteStep (out : OutputDir) (path content : String) (host : Host ω) :
    Except Fault Unit → FileSystem → Prop
  /-- It stops before a file is opened. -/
  | stopped {f : Fault} {files : FileSystem}
      (hfiles : files = host.files ∨ ∃ target, files = (makeParent target host.files).2)
      (hopens : ¬ out.Opens path host) : WriteStep out path content host (.error f) files
  /-- It is broken off: a beginning of the text is in the file. -/
  | broken {f : Fault} {target : String} {made opened : FileSystem} {P : List String} {kept : Nat}
      (hresolve : out.resolve path = .ok target)
      (hmade : makeParent target host.files = (.ok (), made))
      (hopen : made.openForWriting target = .ok (P, opened))
      (hkept : kept < content.toUTF8.size) :
      WriteStep out path content host (.error f)
        (opened.put (made.place target) (.file (content.toUTF8.extract 0 kept)))
  /-- The text is in the file. -/
  | done {target : String} {made opened : FileSystem} {P : List String}
      (hresolve : out.resolve path = .ok target)
      (hmade : makeParent target host.files = (.ok (), made))
      (hopen : made.openForWriting target = .ok (P, opened)) :
      WriteStep out path content host (.ok ())
        (opened.put (made.place target) (.file content.toUTF8))

theorem writeStep (out : OutputDir) (path content : String) (host : Host ω) :
    WriteStep out path content host (out.write path content host).1
      (out.write path content host).2.files := by
  unfold write
  cases hresolve : out.resolve path with
  | error f =>
    refine .stopped (.inl rfl) ?_
    rintro ⟨target, -, -, htarget, -⟩
    rw [hresolve] at htarget
    cases htarget
  | ok target =>
    dsimp only
    rcases hmade : makeParent target host.files with ⟨f | _, made⟩
    · refine .stopped (.inr ⟨target, by rw [hmade]⟩) ?_
      rintro ⟨target', made', opened, htarget, hparent, -⟩
      rw [hresolve] at htarget
      cases htarget
      rw [hmade] at hparent
      cases hparent
    · dsimp only
      unfold FileSystem.write
      cases hopen : made.openForWriting target with
      | error e =>
        refine .stopped (.inr ⟨target, by rw [hmade]⟩) ?_
        rintro ⟨target', made', opened, htarget, hparent, hopened⟩
        rw [hresolve] at htarget
        cases htarget
        rw [hmade] at hparent
        cases hparent
        rw [hopen] at hopened
        cases hopened
      | ok opened =>
        obtain ⟨P, opened⟩ := opened
        obtain ⟨rfl, -⟩ := FileSystem.writes_of_openForWriting hopen
        dsimp only
        rcases opened.fill_cases (made.place target) content.toUTF8 with
          hall | ⟨e, kept, hkept, hpart⟩
        · rw [hall]
          exact .done hresolve hmade hopen
        · rw [hpart]
          exact .broken hresolve hmade hopen hkept

/-- What was written is read. -/
theorem read_of_write (hok : (out.write path content host).1 = .ok ()) :
    (out.read path (out.write path content host).2).1 = .ok content := by
  have hstep := writeStep out path content host
  rw [hok] at hstep
  apply read_eq_ok_iff.mpr
  generalize (out.write path content host).2.files = files at hstep ⊢
  cases hstep with
  | done hresolve hmade hopen =>
    exact ⟨_, hresolve, FileSystem.read_of_openForWriting hopen content.toUTF8⟩

end OutputDir

end PluginChain
