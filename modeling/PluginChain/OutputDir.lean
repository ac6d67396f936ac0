import PluginChain.Host
set_option autoImplicit false

/-!
# Output directories

A published run is written into one directory.  `OutputDir` is that directory,
and its three operations are what plugins are handed at publish time.  A target is
a path inside the directory: one that begins at the root or leads upwards is
refused before any file is touched.  A source of a copy is any path of the host.

`copyTree` copies what it finds while it goes: a directory is listed when it is
reached, after its target has been made.
-/

namespace PluginChain

/-- A directory that receives output. -/
structure OutputDir where
  root : String
  deriving DecidableEq, Repr, Inhabited

namespace OutputDir

variable {ω : Type}

/-- The fault for an action on a path that failed. -/
def fileFault (action path : String) (e : FileError) : Fault :=
  .because .io ("Failed to " ++ action ++ " '" ++ path ++ "': " ++ e.message) e.message

/-- Makes a directory for output, if it is not there. -/
def create (root : String) (fs : FileSystem) : Except Fault OutputDir × FileSystem :=
  match fs.makeDirs root with
  | (.ok (), fs) => (.ok ⟨root⟩, fs)
  | (.error e, fs) => (.error (fileFault "create" root e), fs)

/-- The path of a target inside the directory. -/
def resolve (out : OutputDir) (path : String) : Except Fault String :=
  if Path.isInner path then .ok (Path.join out.root path)
  else .error (.new .io ("Path '" ++ path ++ "' is outside the output directory"))

/-- Makes the directory that a target is to stand in. -/
def makeParent (target : String) (fs : FileSystem) : Except Fault Unit × FileSystem :=
  match Path.parent? target with
  | none => (.ok (), fs)
  | some parent =>
    match fs.makeDirs parent with
    | (.ok (), fs) => (.ok (), fs)
    | (.error e, fs) => (.error (fileFault "create" parent e), fs)

/-! ## Copying -/

/-- A copy on its way: the files, and how many files and directories it has
visited. -/
structure Copying where
  files : FileSystem
  visited : Nat := 0
  deriving Inhabited

/-- Copies each named entry of a directory into another. -/
def copyEntries (copy : String → String → Copying → Except Fault Unit × Copying)
    (source target : String) : List String → Copying → Except Fault Unit × Copying
  | [], st => (.ok (), st)
  | name :: rest, st =>
    match copy (Path.join source name) (Path.join target name) st with
    | (.ok (), st) => copyEntries copy source target rest st
    | (.error f, st) => (.error f, st)

/-- Copies a file, or a directory with all that is in it.  `fuel` bounds the
depth; a source below as many directories as a path has bytes has too long a
path. -/
def copyTree : Nat → String → String → Copying → Except Fault Unit × Copying
  | 0, source, _, st => (.error (fileFault "stat" source .nameTooLong), st)
  | fuel + 1, source, target, st =>
    let st := { st with visited := st.visited + 1 }
    match st.files.stat source with
    | .error e => (.error (fileFault "stat" source e), st)
    | .ok (.file _) =>
      match makeParent target st.files with
      | (.error f, files) => (.error f, { st with files })
      | (.ok (), files) =>
        match files.copyFile source target with
        | (.error e, files) => (.error (fileFault "copy" source e), { st with files })
        | (.ok (), files) => (.ok (), { st with files })
    | .ok (.dir _) =>
      match st.files.makeDirs target with
      | (.error e, files) => (.error (fileFault "create" target e), { st with files })
      | (.ok (), files) =>
        match files.list source with
        | .error e => (.error (fileFault "list" source e), { st with files })
        | .ok names => copyEntries (copyTree fuel) source target names { st with files }

/-- Copies a file or a directory tree, to the depth that paths allow. -/
def copy (source target : String) (fs : FileSystem) : Except Fault Unit × Copying :=
  copyTree fs.pathMax source target { files := fs }

/-! ## The operations handed to plugins -/

/-- Writes a file inside the directory. -/
def write (out : OutputDir) (path content : String) : Effect ω Unit := fun h =>
  match out.resolve path with
  | .error f => (.error f, h)
  | .ok target =>
    match makeParent target h.files with
    | (.error f, files) => (.error f, { h with files })
    | (.ok (), files) =>
      match files.write target content.toUTF8 with
      | (.error e, files) => (.error (fileFault "write" target e), { h with files })
      | (.ok (), files) =>
        (.ok (), { h with files }.note (.debug .output "File written"
          [("path", .str target), ("bytes", .int content.utf8ByteSize)]))

/-- Copies a file or a directory tree of the host into the directory. -/
def copyInto (out : OutputDir) (source path : String) : Effect ω Unit := fun h =>
  match out.resolve path with
  | .error f => (.error f, h)
  | .ok target =>
    match copy source target h.files with
    | (.error f, st) => (.error f, { h with files := st.files })
    | (.ok (), st) =>
      (.ok (), { h with files := st.files }.note
        (.debug .output "Copied" [("src", .str source), ("dest", .str target)]))

/-- The text of a file inside the directory. -/
def read (out : OutputDir) (path : String) : Effect ω String := fun h =>
  match out.resolve path with
  | .error f => (.error f, h)
  | .ok target =>
    match h.files.readText target with
    | .error e => (.error (fileFault "read" target e), h)
    | .ok content => (.ok content, h)

/-! ## Laws -/

/-- A path is accepted exactly where it stays inside, and is then continued from the root
of the directory. -/
theorem resolve_eq_ok_iff {out : OutputDir} {path target : String} :
    out.resolve path = .ok target ↔
      Path.isInner path = true ∧ target = Path.join out.root path := by
  unfold resolve
  cases Path.isInner path <;> simp [eq_comm]

/-- A refused target leaves the host as it was. -/
theorem write_of_refused {out : OutputDir} {path : String} {f : Fault}
    (h : out.resolve path = .error f) (content : String) (host : Host ω) :
    out.write path content host = (.error f, host) := by
  simp [write, h]

/-- A refused target leaves the host as it was. -/
theorem copyInto_of_refused {out : OutputDir} {path : String} {f : Fault}
    (h : out.resolve path = .error f) (source : String) (host : Host ω) :
    out.copyInto source path host = (.error f, host) := by
  simp [copyInto, h]

/-- Reading changes nothing. -/
theorem host_read (out : OutputDir) (path : String) (host : Host ω) :
    (out.read path host).2 = host := by
  unfold read
  split
  · rfl
  · split <;> rfl

end OutputDir

end PluginChain
