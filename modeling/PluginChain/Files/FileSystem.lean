import PluginChain.Files.FileError
import PluginChain.Files.Node
import PluginChain.Files.Path
set_option autoImplicit false

/-!
# File systems

A `FileSystem` is a tree of files, a working directory, the greatest length of a name and
of a path, and a device that may take only a part of what is written.  The tree has no
links, neither symbolic nor hard: every file has one name.  The operations take paths as
text, relative to the working directory unless they begin with a slash, and follow them
segment by segment: every segment asks that what was reached before it is a directory,
also an empty one or a `.`.

An operation on one file or directory changes the tree at the place its path leads to and
nowhere else.  One that fails leaves the tree as it was, but for a write that is broken off
once its file is open: what the file held is gone then, and a beginning of what it was to
hold may be there (`FileSystem.fill`).  Of the other ways in which a device or a lack of
rights may stop an operation before it changes anything none is modelled.
-/

namespace PluginChain

/-- How the writing of bytes is broken off: how many of them get into the file, and why the
others do not. -/
structure BreakOff (bytes : ByteArray) where
  kept : Nat
  short : kept < bytes.size
  error : FileError

/-- A tree of files, and from where it is looked at. -/
structure FileSystem where
  root : Node := .emptyDir
  /-- The place of the working directory. -/
  cwd : List String := []
  /-- The greatest number of bytes in a name. -/
  nameMax : Nat := 255
  /-- The number of bytes that a path must stay below. -/
  pathMax : Nat := 4096
  /-- Where the device cuts in from outside and breaks off the writing of a file, as it is
  full, the file gets too large or the device fails.  It may hang on the whole tree. -/
  breaksOff? : Node → List String → (bytes : ByteArray) → Option (BreakOff bytes) :=
    fun _ _ _ => none
  deriving Inhabited

namespace FileSystem

/-- The working directory as a path. -/
def cwdPath (fs : FileSystem) : String := "/" ++ "/".intercalate fs.cwd

/-- A place that a path leads to, and what stands there, if anything. -/
structure Reached where
  place : List String
  node? : Option Node
  deriving Inhabited

/-- What stands at a place. -/
def look (fs : FileSystem) (place : List String) : Reached := ⟨place, fs.root.at? place⟩

/-- Follows one segment. -/
def enter (fs : FileSystem) (spot : Reached) (segment : String) : Except FileError Reached :=
  match spot.node? with
  | none => .error .notFound
  | some (.file _) => .error .notDirectory
  | some (.dir children) =>
    if segment = "" ∨ segment = "." then .ok spot
    else if segment = ".." then .ok (fs.look spot.place.dropLast)
    else if fs.nameMax < segment.utf8ByteSize then .error .nameTooLong
    else .ok ⟨spot.place ++ [segment], Keyed.get? segment children⟩

/-- Follows segments one after the other. -/
def follow (fs : FileSystem) : Reached → List String → Except FileError Reached
  | spot, [] => .ok spot
  | spot, segment :: rest =>
    match fs.enter spot segment with
    | .ok next => follow fs next rest
    | .error e => .error e

/-- Refuses a text that can be no path. -/
def checkPath (fs : FileSystem) (path : String) : Except FileError Unit :=
  if path.toList.contains (Char.ofNat 0) then .error .nulInPath
  else if path = "" then .error .notFound
  else if fs.pathMax ≤ path.utf8ByteSize then .error .nameTooLong
  else .ok ()

/-- Where the path begins. -/
def origin (fs : FileSystem) (path : String) : Reached :=
  if Path.isAbsolute path then fs.look [] else fs.look fs.cwd

/-- The segments to follow: a leading slash is no segment. -/
def steps (path : String) : List String :=
  if Path.isAbsolute path then (Path.allSegments path).drop 1 else Path.allSegments path

/-- Where a path leads, if its way exists. -/
def reach (fs : FileSystem) (path : String) : Except FileError Reached :=
  match fs.checkPath path with
  | .error e => .error e
  | .ok () => fs.follow (fs.origin path) (steps path)

/-- What stands where a path leads. -/
def stat (fs : FileSystem) (path : String) : Except FileError Node :=
  match fs.reach path with
  | .error e => .error e
  | .ok reached =>
    match reached.node? with
    | some n => .ok n
    | none => .error .notFound

/-- Whether a path leads to a file. -/
def isFile (fs : FileSystem) (path : String) : Bool :=
  match fs.stat path with
  | .ok (.file _) => true
  | _ => false

/-- Whether a path leads to a directory. -/
def isDir (fs : FileSystem) (path : String) : Bool :=
  match fs.stat path with
  | .ok (.dir _) => true
  | _ => false

/-- The bytes of the file at a path. -/
def read (fs : FileSystem) (path : String) : Except FileError ByteArray :=
  match fs.stat path with
  | .ok (.file bytes) => .ok bytes
  | .ok (.dir _) => .error .isDirectory
  | .error e => .error e

/-- The text of the file at a path. -/
def readText (fs : FileSystem) (path : String) : Except FileError String :=
  match fs.read path with
  | .error e => .error e
  | .ok bytes =>
    match String.fromUTF8? bytes with
    | some s => .ok s
    | none => .error .notUtf8

/-- The names in the directory at a path. -/
def list (fs : FileSystem) (path : String) : Except FileError (List String) :=
  match fs.stat path with
  | .ok (.dir children) => .ok (Keyed.keys children)
  | .ok (.file _) => .error .notDirectory
  | .error e => .error e

/-- The tree with something else at a place. -/
def put (fs : FileSystem) (place : List String) (n : Node) : FileSystem :=
  { fs with root := fs.root.put place n }

/-- What the last segment of a path asks for. -/
inductive Last where
  /-- A name, and whether slashes follow it. -/
  | name (s : String) (slashed : Bool)
  /-- No name: the root, a `.` or a `..`. -/
  | special

/-- The last segment of a path, and those before it. -/
def splitLast (segments : List String) : List String × Last :=
  let trimmed := (segments.reverse.dropWhile (· = "")).reverse
  match trimmed.getLast? with
  | none => ([], .special)
  | some s =>
    if s = "." ∨ s = ".." then (trimmed.dropLast, .special)
    else (trimmed.dropLast, .name s (decide (trimmed.length < segments.length)))

/-- Where something new is to be made: the directory, reached through all
segments but the last, and the last one. -/
def reachParent (fs : FileSystem) (path : String) : Except FileError (Reached × Last) :=
  match fs.checkPath path with
  | .error e => .error e
  | .ok () =>
    let (before, last) := splitLast (steps path)
    match fs.follow (fs.origin path) before with
    | .error e => .error e
    | .ok dir => .ok (dir, last)

/-- Makes a directory. -/
def makeDir (fs : FileSystem) (path : String) : Except FileError FileSystem :=
  match fs.reachParent path with
  | .error e => .error e
  | .ok (dir, .special) =>
    match fs.enter dir "." with
    | .error e => .error e
    | .ok _ => .error .alreadyExists
  | .ok (dir, .name s _) =>
    match fs.enter dir s with
    | .error e => .error e
    | .ok ⟨_, some _⟩ => .error .alreadyExists
    | .ok ⟨place, none⟩ => .ok (fs.put place .emptyDir)

/-- Opens a file for writing, made or emptied as need be: the place of the file
and the tree with it. -/
def openForWriting (fs : FileSystem) (path : String) :
    Except FileError (List String × FileSystem) :=
  match fs.reachParent path with
  | .error e => .error e
  | .ok (dir, .special) =>
    match fs.enter dir "." with
    | .error e => .error e
    | .ok _ => .error .isDirectory
  | .ok (dir, .name s slashed) =>
    match fs.enter dir "." with
    | .error e => .error e
    | .ok _ =>
      if slashed then .error .isDirectory
      else
        match fs.enter dir s with
        | .error e => .error e
        | .ok ⟨_, some (.dir _)⟩ => .error .isDirectory
        | .ok ⟨place, _⟩ => .ok (place, fs.put place (.file ByteArray.empty))

/-- Puts bytes into a file that was opened: all of them, or those that get in before the
device breaks off. -/
def fill (fs : FileSystem) (place : List String) (bytes : ByteArray) :
    Except FileError Unit × FileSystem :=
  match fs.breaksOff? fs.root place bytes with
  | none => (.ok (), fs.put place (.file bytes))
  | some broken => (.error broken.error, fs.put place (.file (bytes.extract 0 broken.kept)))

/-- Writes a file, in place of what it held.  The file is opened, and so emptied, before
any byte is written. -/
def write (fs : FileSystem) (path : String) (bytes : ByteArray) :
    Except FileError Unit × FileSystem :=
  match fs.openForWriting path with
  | .error e => (.error e, fs)
  | .ok (place, fs) => fs.fill place bytes

/-- Copies a file.  The target is opened, and so emptied, before the source is
read. -/
def copyFile (fs : FileSystem) (source target : String) : Except FileError Unit × FileSystem :=
  match fs.reach source with
  | .error e => (.error e, fs)
  | .ok found =>
    match found.node? with
    | none => (.error .notFound, fs)
    | some _ =>
      match fs.openForWriting target with
      | .error e => (.error e, fs)
      | .ok (place, fs) =>
        match fs.root.at? found.place with
        | some (.file bytes) => fs.fill place bytes
        | _ => (.ok (), fs)

/-- A path and the paths of the directories above it, the innermost first. -/
def ancestors : Nat → String → List String
  | 0, path => [path]
  | fuel + 1, path =>
    match Path.parent? path with
    | some up => path :: ancestors fuel up
    | none => [path]

/-- Makes the first of the directories, after those above it where they are
missing.  A directory that is there already is fine, and the directories that were
made stay when a later one fails. -/
def makeChain (fs : FileSystem) : List String → Except FileError Unit × FileSystem
  | [] => (.error .notFound, fs)
  | path :: above =>
    if path = "" then (.ok (), fs)
    else
      match fs.makeDir path with
      | .ok made => (.ok (), made)
      | .error e =>
        if e = .notFound then
          match makeChain fs above with
          | (.error e, fs) => (.error e, fs)
          | (.ok (), fs) =>
            match fs.makeDir path with
            | .ok made => (.ok (), made)
            | .error e => (if fs.isDir path then .ok () else .error e, fs)
        else (if fs.isDir path then .ok () else .error e, fs)

/-- Makes a directory and the directories above it that are missing. -/
def makeDirs (fs : FileSystem) (path : String) : Except FileError Unit × FileSystem :=
  fs.makeChain (ancestors path.length path)

/-- The files with one more file, or where there are no bytes with a directory, and
with the directories above it, as far as there is room for them. -/
def plant (fs : FileSystem) (path : String) : Option ByteArray → FileSystem
  | none => (fs.makeDirs path).2
  | some bytes =>
    let fs := match Path.parent? path with
      | some parent => (fs.makeDirs parent).2
      | none => fs
    (fs.write path bytes).2

/-! ## Laws -/

/-- Segments in two parts are followed part by part. -/
theorem follow_append (fs : FileSystem) (spot : Reached) (before after : List String) :
    fs.follow spot (before ++ after) =
      match fs.follow spot before with
      | .ok next => fs.follow next after
      | .error e => .error e := by
  induction before generalizing spot with
  | nil => rfl
  | cons segment rest ih =>
    simp only [List.cons_append, follow]
    cases fs.enter spot segment with
    | error e => rfl
    | ok next => exact ih next

/-- Whether nothing cuts in from outside: the device takes all bytes of whatever is
written. -/
def Unbroken (fs : FileSystem) : Prop :=
  ∀ root place bytes, fs.breaksOff? root place bytes = none

/-- What a file holds that was to be filled: all bytes, or a beginning of them. -/
theorem fill_cases (fs : FileSystem) (place : List String) (bytes : ByteArray) :
    fs.fill place bytes = (.ok (), fs.put place (.file bytes)) ∨
      ∃ e kept, kept < bytes.size ∧
        fs.fill place bytes = (.error e, fs.put place (.file (bytes.extract 0 kept))) := by
  unfold fill
  cases fs.breaksOff? fs.root place bytes with
  | none => exact .inl rfl
  | some broken => exact .inr ⟨_, _, broken.short, rfl⟩

theorem fill_eq_ok {fs fs' : FileSystem} {place : List String} {bytes : ByteArray}
    (h : fs.fill place bytes = (.ok (), fs')) : fs' = fs.put place (.file bytes) := by
  rcases fs.fill_cases place bytes with hall | ⟨e, kept, -, hpart⟩
  · rw [hall] at h
    exact (congrArg Prod.snd h).symm
  · rw [hpart] at h
    cases h

theorem fill_of_unbroken {fs : FileSystem} (h : fs.Unbroken) (place : List String)
    (bytes : ByteArray) : fs.fill place bytes = (.ok (), fs.put place (.file bytes)) := by
  unfold fill
  rw [h fs.root place bytes]

/-- What is changed at a place shows at no place apart from it. -/
theorem at?_root_put_of_disjoint (fs : FileSystem) {p q : List String} (hpq : ¬ p <+: q)
    (hqp : ¬ q <+: p) (n : Node) : (fs.put p n).root.at? q = fs.root.at? q :=
  Node.at?_put_of_disjoint hpq hqp n

end FileSystem

end PluginChain
