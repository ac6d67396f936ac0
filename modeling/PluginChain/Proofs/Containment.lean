import PluginChain.Proofs.CopySteps
set_option autoImplicit false

/-!
# Nothing is written outside an output directory

A run of calls of an output directory, in any order and with any outcomes, changes
files only below the directory: a target that is accepted is anchored in it, a target
that is refused touches nothing, and sources are only read.
-/

namespace PluginChain

namespace OutputDir

open FileSystem (Anchored Below Change Changes Sound)

variable {ω : Type} {fs fs' : FileSystem} {out : OutputDir} {path root source target : String}

/-! ## Output directories that stand -/

/-- The way to the output directory goes through directories, and by names alone from
where it leaves them.  It does so from its creation on. -/
def Rooted (out : OutputDir) (fs : FileSystem) : Prop := ∃ R, fs.Anchored R out.root

/-- Making an output directory changes files only, and its way leads to it then. -/
theorem changes_of_create (h : create root fs = (.ok out, fs')) :
    out = ⟨root⟩ ∧ fs.makeDirs root = (.ok (), fs') ∧ Changes (fun _ => True) fs fs' := by
  have hchanges : Changes (fun _ => True) fs (fs.makeDirs root).2 :=
    FileSystem.changes_makeChain fun _ _ => .inr trivial
  unfold create at h
  rcases hmade : fs.makeDirs root with ⟨_ | _, files⟩
  · rw [hmade] at h
    cases h
  · rw [hmade] at h hchanges
    obtain ⟨hout, rfl⟩ := Prod.mk.inj h
    exact ⟨(Except.ok.inj hout).symm, rfl, hchanges⟩

/-- An operation that succeeds has a result. -/
theorem eq_ok_of_isOk {ε α β : Type} {x : Except ε α × β} (h : x.1.isOk = true) :
    ∃ a, x = (.ok a, x.2) := by
  obtain ⟨_ | a, b⟩ := x
  · cases h
  · exact ⟨a, rfl⟩

/-- An output directory that was made is the one at the path. -/
theorem create_eq_of_isOk (h : (create root fs).1.isOk = true) :
    create root fs = (.ok ⟨root⟩, (create root fs).2) := by
  obtain ⟨out, hcreate⟩ := eq_ok_of_isOk h
  rw [hcreate, (changes_of_create hcreate).1]

/-- The working directory is there, and so is the root above it. -/
theorem isDirAt_start (hfs : fs.Sound) (path : String) : fs.IsDirAt (fs.start path) := by
  unfold FileSystem.start
  split
  · exact hfs.here.of_prefix List.nil_prefix
  · exact hfs.here

/-- From its creation on, an output directory is anchored at its own place. -/
theorem anchored_of_create (hfs : fs.Sound) (h : create root fs = (.ok out, fs')) :
    fs'.Anchored (fs'.place root) root := by
  obtain ⟨-, hmade, -⟩ := changes_of_create h
  have hgoes := FileSystem.goes_of_makeDirs (isDirAt_start hfs root) hmade
  exact ⟨Path.moves root, [], by simp, by simp, hgoes, rfl⟩

theorem rooted_of_create (hfs : fs.Sound) (h : create root fs = (.ok out, fs')) :
    out.Rooted fs' := by
  obtain ⟨rfl, -⟩ := changes_of_create h
  exact ⟨_, anchored_of_create hfs h⟩

theorem Rooted.of_changes {allowed : List String → Prop} (h : out.Rooted fs)
    (hchanges : Changes allowed fs fs') : out.Rooted fs' := by
  obtain ⟨R, hR⟩ := h
  exact ⟨R, hR.of_changes hchanges⟩

/-! ## Targets that are accepted -/

/-- A path is accepted exactly if it does not begin with a slash and none of its segments
leads upwards. -/
theorem resolve_ok_iff (out : OutputDir) (path : String) :
    (∃ target, out.resolve path = .ok target) ↔
      path.toList.head? ≠ some '/' ∧ ".." ∉ Path.allSegments path := by
  rw [← Path.isAbsolute_eq_false_iff, ← Path.isInner_iff]
  constructor
  · rintro ⟨target, h⟩
    exact (resolve_eq_ok_iff.mp h).1
  · exact fun h => ⟨_, resolve_eq_ok_iff.mpr ⟨h, rfl⟩⟩

/-- An accepted path begins at no root, and its moves are names. -/
theorem moves_of_resolve (h : out.resolve path = .ok target) :
    Path.isAbsolute path = false ∧ ".." ∉ Path.moves path ∧ target = Path.join out.root path := by
  obtain ⟨hinner, rfl⟩ := resolve_eq_ok_iff.mp h
  obtain ⟨habsolute, hup⟩ := (Path.isInner_iff path).mp hinner
  exact ⟨habsolute, fun hmem => hup (List.mem_filter.mp hmem).1, rfl⟩

/-- The target of an accepted path lies below the root by the names of the path. -/
theorem place_of_resolve (fs : FileSystem) (h : out.resolve path = .ok target) :
    fs.place target = fs.place out.root ++ Path.moves path := by
  obtain ⟨habsolute, hup, rfl⟩ := moves_of_resolve h
  rw [FileSystem.place_join fs out.root habsolute, FileSystem.walk_of_up_not_mem _ hup]

/-- An accepted target is anchored where the root is. -/
theorem anchored_of_resolve {R : List String} (hroot : fs.Anchored R out.root)
    (h : out.resolve path = .ok target) : fs.Anchored R target := by
  obtain ⟨habsolute, hup, rfl⟩ := moves_of_resolve h
  exact hroot.join habsolute hup

/-! ## Runs of calls -/

/-- What lies on the way to a target lies below the directory in which it is anchored. -/
theorem changes_below {R : List String} (h : Changes (fs.OnWay R target) fs fs') :
    Changes (Below R) fs fs' :=
  h.mono fun _ hq => hq.1

/-- A call of one of the operations that plugins are handed. -/
inductive Call where
  | write (path content : String)
  | copy (source path : String)
  | read (path : String)
  deriving Repr

/-- What a call leaves, whatever its outcome. -/
def Call.perform (out : OutputDir) (host : Host ω) : Call → Host ω
  | .write path content => (out.write path content host).2
  | .copy source path => (out.copyInto source path host).2
  | .read path => (out.read path host).2

/-- What a run of calls leaves. -/
def serve (out : OutputDir) (host : Host ω) (calls : List Call) : Host ω :=
  calls.foldl (Call.perform out) host

variable {R : List String} {host : Host ω}

/-- A call that writes changes files below the root only. -/
theorem changes_write (hroot : host.files.Anchored R out.root) (path content : String) :
    Changes (Below R) host.files (out.write path content host).2.files := by
  cases hresolve : out.resolve path with
  | error f =>
    rw [write_of_refused hresolve]
    exact .refl _
  | ok target =>
    have htarget := anchored_of_resolve hroot hresolve
    have hparent := changes_below (changes_makeParent htarget)
    rw [write, hresolve]
    dsimp only
    rcases hmade : makeParent target host.files with ⟨_ | _, files⟩
    · rw [hmade] at hparent
      exact hparent
    · rw [hmade] at hparent
      dsimp only
      have htarget := htarget.of_changes hparent
      have hwritten := changes_below (files.changes_write target content.toUTF8
        fun _ => htarget.onWay)
      rcases hwrite : files.write target content.toUTF8 with ⟨_ | _, written⟩
      · rw [hwrite] at hwritten
        exact hparent.trans hwritten
      · rw [hwrite] at hwritten
        exact hparent.trans hwritten

/-- A call that copies changes files below the root only. -/
theorem changes_copyInto (hfs : host.files.Sound) (hroot : host.files.Anchored R out.root)
    (source path : String) :
    Changes (Below R) host.files (out.copyInto source path host).2.files := by
  cases hresolve : out.resolve path with
  | error f =>
    rw [copyInto_of_refused hresolve]
    exact .refl _
  | ok target =>
    have hcopy := changes_copyTree host.files.pathMax source target { files := host.files } hfs
      (anchored_of_resolve hroot hresolve)
    rw [copyInto, hresolve]
    dsimp only
    rw [copy]
    rcases hdone : copyTree host.files.pathMax source target { files := host.files } with
      ⟨_ | _, st⟩
    · rw [hdone] at hcopy
      exact hcopy
    · rw [hdone] at hcopy
      exact hcopy

/-- A call changes files below the root only. -/
theorem changes_perform (hfs : host.files.Sound) (hroot : host.files.Anchored R out.root)
    (call : Call) : Changes (Below R) host.files (call.perform out host).files := by
  cases call with
  | write path content => exact changes_write hroot path content
  | copy source path => exact changes_copyInto hfs hroot source path
  | read path =>
    rw [Call.perform, host_read]
    exact .refl _

/-- A run of calls changes files below the root only. -/
theorem changes_serve (hfs : host.files.Sound) (hroot : host.files.Anchored R out.root)
    (calls : List Call) : Changes (Below R) host.files (out.serve host calls).files := by
  induction calls generalizing host with
  | nil => exact .refl _
  | cons call rest ih =>
    have hcall := changes_perform hfs hroot call
    exact hcall.trans (ih (hcall.sound hfs) (hroot.of_changes hcall))

/-- Take an output directory that was made, and any run of calls of it, with whatever
outcomes.  Every place that does not lie below the root then shows what it showed: nothing,
a file with its bytes, or a directory.  A path is accepted exactly if it does not begin
with a slash and none of its segments leads upwards; its target then begins where the
root does and has the root's moves and behind them the path's, all of them names. -/
theorem containment {fs fs₁ : FileSystem} {root : String} {out : OutputDir} (hfs : fs.Sound)
    (hcreate : create root fs = (.ok out, fs₁)) :
    (∀ (host : Host ω) (calls : List Call), host.files = fs₁ →
      ∀ q, ¬ Below (fs₁.place root) q → (out.serve host calls).files.shown q = fs₁.shown q) ∧
    (∀ path, (∃ target, out.resolve path = .ok target) ↔
      path.toList.head? ≠ some '/' ∧ ".." ∉ Path.allSegments path) ∧
    ∀ path target, out.resolve path = .ok target →
      Path.isAbsolute target = Path.isAbsolute root ∧
        Path.moves target = Path.moves root ++ Path.moves path ∧
        fs₁.place target = fs₁.place root ++ Path.moves path := by
  obtain ⟨rfl, -, hmade⟩ := changes_of_create hcreate
  refine ⟨?_, resolve_ok_iff _, fun path target h => ?_⟩
  · rintro host calls rfl q hq
    have hchanges := changes_serve (hmade.sound hfs) (anchored_of_create hfs hcreate) calls
    refine hchanges.shown_eq fun r hr hrq => hq ⟨hr.1.trans hrq, fun heq => hr.2 ?_⟩
    -- A place below the root does not lie above it.
    exact (hr.1.eq_of_length_le (heq ▸ hrq.length_le)).symm
  · obtain ⟨habsolute, -, rfl⟩ := moves_of_resolve h
    exact ⟨Path.isAbsolute_join root habsolute, Path.moves_join root habsolute,
      place_of_resolve fs₁ h⟩

/-- Where an output directory is made beside a file, no run of calls changes the file. -/
theorem containment_beside :
    ∃ fs₁, create "site" (({} : FileSystem).plant "a.txt" (some "x".toUTF8)) = (.ok ⟨"site"⟩, fs₁) ∧
      ∀ (host : Host Unit) (calls : List Call), host.files = fs₁ →
        (serve ⟨"site"⟩ host calls).files.shown ["a.txt"] = some (some "x".toUTF8) := by
  have hcreate : create "site" (({} : FileSystem).plant "a.txt" (some "x".toUTF8)) = _ :=
    create_eq_of_isOk (by decide +kernel)
  have hplace : (create "site" (({} : FileSystem).plant "a.txt" (some "x".toUTF8))).2.place "site" =
      ["site"] := by decide +kernel
  refine ⟨_, hcreate, fun host calls hhost => ?_⟩
  have hkept := (containment ((FileSystem.sound_of_empty rfl rfl).plant _ _) hcreate).1 host calls
    hhost ["a.txt"] (by rw [hplace]; simp [Below])
  rw [hkept]
  decide +kernel

end OutputDir

end PluginChain
