import PluginChain.Cli.Program
set_option autoImplicit false

/-!
# The command line

Takes the arguments, the environment and the files of the working directory to a call
of the program, writes back the files that the call has changed, and prints what it
has to say.  Of the files outside the working directory the program sees those that
an argument names from the root.
-/

namespace PluginChain.CommandLine

/-- The file or directory at a path with all that is in it, where there is one. -/
partial def load (path : String) : IO (Option Node) := do
  let found ← try pure (some (← IO.FS.realPath path)) catch _ => pure none
  match found with
  | none => return none
  | some place =>
    if ← place.isDir then
      let mut children : Keyed Node := []
      for entry in ← place.readDir do
        if let some child ← load (Path.join path entry.fileName) then
          children := Keyed.insert entry.fileName child children
      return some (.dir children)
    else
      try return some (.file (← IO.FS.readBinFile path)) catch _ => return none

/-- The names that lead to a path from the root. -/
def place (path : String) : List String := (Path.allSegments path).filter (· ≠ "")

/-- The files of the working directory, and those at paths from the root. -/
def snapshot (cwd : String) (paths : List String) : IO FileSystem := do
  let mut fs : FileSystem := { cwd := place cwd }
  for path in paths.filter Path.isAbsolute ++ [cwd] do
    if let some node ← load path then
      fs := fs.put (place path) node
  return fs

/-- Whether two nodes are alike without regard to what directories hold. -/
def alike : Node → Node → Bool
  | .file a, .file b => a.toList == b.toList
  | .dir _, .dir _ => true
  | _, _ => false

/-- Writes the files and directories that a tree has and another had not. -/
def store (before after : Node) : IO Unit := do
  for (path, node) in after.listing "/" do
    unless (before.at? (place path)).any (alike node) do
      match node with
      | .dir _ => IO.FS.createDirAll path
      | .file bytes => IO.FS.writeBinFile path bytes

/-- The variables in the block of an environment, which ends each with a null
character. -/
def parseEnvironment (block : String) : Environment :=
  (block.splitOn (String.singleton (Char.ofNat 0))).filterMap fun entry =>
    match entry.splitOn "=" with
    | name :: value :: more => some (name, "=".intercalate (value :: more))
    | _ => none

/-- The environment of the program. -/
def environment : IO Environment :=
  try return parseEnvironment (Utf8.ofBytesLossy (← IO.FS.readBinFile "/proc/self/environ"))
  catch _ => return []

/-- A log record in one line. -/
def recordLine (asJson : Bool) (r : LogRecord) : String :=
  let fields := Json.ofFields (("message", .str r.message) :: r.fields)
  if asJson then
    (Json.obj [("level", .str r.level.label), ("fields", fields),
      ("target", .str r.source.path)]).compact
  else
    r.level.label ++ " " ++ r.source.path ++ ": " ++ r.message ++ " "
      ++ (Json.ofFields r.fields).compact

end PluginChain.CommandLine

open PluginChain PluginChain.CommandLine in
/-- Carries out the call that the arguments spell. -/
def main (args : List String) : IO UInt32 := do
  let fs ← snapshot (← IO.currentDir).toString args
  let outcome := Cli.call args (← environment) fs
  store fs.root outcome.files.root
  IO.eprint outcome.notes
  for r in outcome.log do
    IO.eprintln (recordLine outcome.logAsJson r)
  IO.print outcome.output
  IO.eprint outcome.errors
  return outcome.status.toUInt32
