import PluginChain.Registry
set_option autoImplicit false

/-!
# Resolvers

A resolver turns identifiers into loaded plugins and remembers what it loaded: an
identifier that was resolved once yields the same instance ever after.  For an
identifier it has not seen, it asks the registry; failing that, it looks for a
library, under the working directory where the identifier is a path and in one
directory of its own where it names a package.  A library that is found is not
loaded: this is a build without support for that.  The working directory is taken as
known: it is part of the files, so asking for it never fails.
-/

namespace PluginChain

/-! ## Libraries -/

/-- The file name of the library of a plugin. -/
def libraryFileName (name : String) : String := "lib" ++ name ++ ".so"

/-- The path itself where it leads to a file, or else its sibling with the name of
a library, where that leads to one. -/
def locateLibrary (fs : FileSystem) (path : String) : Option String :=
  if fs.isFile path then some path
  else
    match Path.fileName? path with
    | none => none
    | some name =>
      let candidate := Path.withFileName path (libraryFileName name)
      if fs.isFile candidate then some candidate else none

/-! ## Resolution -/

/-- Loaded plugins, and where to find others. -/
structure Resolver (σ ω : Type) where
  registry : Registry σ ω
  /-- The plugins resolved so far, by identifier. -/
  cache : Keyed (Instance σ ω) := []
  /-- Where the libraries of packages are looked for. -/
  localDir : String := "./plugins"
  states : PrivateStates σ := []

namespace Resolver

/-- Why an identifier has no plugin. -/
inductive Failure where
  /-- Neither a registered plugin nor a library. -/
  | notFound (identifier candidate : String)
  /-- A library, which cannot be loaded. -/
  | loadingDisabled (path : String)
  deriving DecidableEq, Repr, Inhabited

namespace Failure

/-- The failure in words. -/
def message : Failure → String
  | .notFound identifier candidate =>
    "Plugin '" ++ identifier ++ "' not found (not registered, no library at '" ++ candidate ++ "')"
  | .loadingDisabled path =>
    "Cannot load '" ++ path
      ++ "': dynamic plugin loading is disabled (enable the `dynamic` feature)"

/-- The failure as a fault. -/
def fault (f : Failure) : Fault := .new .resolution f.message

end Failure

variable {σ ω : Type}

/-- The path at which the library of an identifier would be. -/
def candidate (r : Resolver σ ω) (fs : FileSystem) (identifier : String) : String :=
  match IdentifierKind.of identifier with
  | .path => Path.join fs.cwdPath identifier
  | .package => Path.join r.localDir identifier

/-- Why an identifier that is not registered has no plugin. -/
def missing (r : Resolver σ ω) (fs : FileSystem) (identifier : String) : Failure :=
  match locateLibrary fs (r.candidate fs identifier) with
  | some path => .loadingDisabled path
  | none => .notFound identifier (r.candidate fs identifier)

/-- The plugin of an identifier. -/
def resolve (r : Resolver σ ω) (identifier : String) (h : Host ω) :
    Except Fault (Instance σ ω) × Resolver σ ω × Host ω :=
  match Keyed.get? identifier r.cache with
  | some i => (.ok i, r, h)
  | none =>
    match r.registry.create identifier with
    | (some i, registry) =>
      let h := h.note (.debug .resolver "Resolved from compiled-in registry"
        [("plugin", .str identifier)])
      let h := h.note (.info .resolver "Plugin resolved"
        [("plugin", .str identifier), ("name", .str i.plugin.name)])
      (.ok i, { r with registry, cache := Keyed.insert identifier i r.cache }, h)
    | (none, registry) =>
      let f := (r.missing h.files identifier).fault
      let h := h.note (.warn .resolver "Plugin resolution failed"
        [("plugin", .str identifier), ("error", .str f.display)])
      (.error f, { r with registry }, h)

/-- Whether an identifier has been resolved. -/
def isLoaded (r : Resolver σ ω) (identifier : String) : Bool :=
  Keyed.contains identifier r.cache

/-- The identifiers resolved so far, in increasing order. -/
def loaded (r : Resolver σ ω) : List String := Keyed.keys r.cache

/-- The private state of an instance. -/
def stateOf (r : Resolver σ ω) (i : Instance σ ω) : σ := r.states.of i

/-- The resolver with another private state of an instance. -/
def setState (r : Resolver σ ω) (i : Instance σ ω) (s : σ) : Resolver σ ω :=
  { r with states := r.states.set i.id s }

/-- Where an identifier is resolved from, in words. -/
def source (r : Resolver σ ω) (identifier : String) : String :=
  if r.registry.contains identifier then "builtin"
  else
    match IdentifierKind.of identifier with
    | .path => "path"
    | .package => "library in " ++ r.localDir

/-! ## Laws -/

/-- What has been resolved is found again, and nothing changes. -/
theorem resolve_of_cached {r : Resolver σ ω} {identifier : String} {i : Instance σ ω}
    (hc : Keyed.get? identifier r.cache = some i) (h : Host ω) :
    r.resolve identifier h = (.ok i, r, h) := by
  simp [resolve, hc]

end Resolver

end PluginChain
