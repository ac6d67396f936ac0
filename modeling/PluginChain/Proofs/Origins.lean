import PluginChain.Proofs.LastNames
import PluginChain.Proofs.Resolution
set_option autoImplicit false

/-!
# Where plugins come from

An identifier that has not been resolved yet comes from the registry, or its library is looked
for at one path, under the working directory or in the directory for packages.  `LibraryAt` says
which file is the library at a path, and `Unloaded` how a resolution fails that has looked there.

The words in which a resolver describes the origin of an identifier are made without resolving
it.  They fit what a resolution does: each of the three origins is described exactly if it is the
one that is used (`Resolver.origin_is_described`).
-/

namespace PluginChain

variable {σ ω : Type}

/-! ## Libraries -/

/-- The library at a path: the file there, or, where there is none, a file beside it that has the
last name of the path in the name of a library. -/
inductive LibraryAt (fs : FileSystem) (path : String) : String → Prop
  | itself (file : fs.isFile path = true) : LibraryAt fs path path
  | beside {parent name : String} (noFile : fs.isFile path = false)
      (last : Path.lastName? path = some name) (above : Path.parent? path = some parent)
      (file : fs.isFile (Path.join parent (libraryFileName name)) = true) :
      LibraryAt fs path (Path.join parent (libraryFileName name))

variable {fs : FileSystem} {path library identifier candidate : String}

/-- The library that is found for a path is the one at the path. -/
theorem locateLibrary_eq_some_iff :
    locateLibrary fs path = some library ↔ LibraryAt fs path library := by
  unfold locateLibrary
  constructor
  · intro h
    split_ifs at h with hfile
    · obtain rfl := Option.some.inj h
      exact .itself hfile
    · cases hlast : Path.fileName? path with
      | none =>
        rw [hlast] at h
        cases h
      | some name =>
        obtain ⟨parent, hparent, -⟩ := Path.moves_of_fileName? hlast
        rw [hlast] at h
        dsimp only at h
        rw [Path.withFileName, hlast, hparent, Option.getD_some] at h
        split_ifs at h with hbeside
        obtain rfl := Option.some.inj h
        rw [Path.fileName?_eq_lastName?] at hlast
        exact .beside (Bool.eq_false_iff.mpr hfile) hlast hparent hbeside
  · intro h
    cases h with
    | itself hfile => rw [if_pos hfile]
    | beside hno hlast hparent hfile =>
      rw [← Path.fileName?_eq_lastName?] at hlast
      rw [if_neg (Bool.eq_false_iff.mp hno), hlast]
      dsimp only
      rw [Path.withFileName, hlast, hparent, Option.getD_some, if_pos hfile]

/-! ## Failures -/

/-- The message that a library cannot be loaded. -/
def disabledMessage (library : String) : String :=
  "Cannot load '" ++ library ++ "': dynamic plugin loading is disabled (enable the `dynamic` feature)"

/-- The message that there is no library for an identifier at a path. -/
def notFoundMessage (identifier candidate : String) : String :=
  "Plugin '" ++ identifier ++ "' not found (not registered, no library at '" ++ candidate ++ "')"

theorem disabledMessage_injective : Function.Injective disabledMessage := by
  intro a b h
  exact (String.append_right_inj _).mp ((String.append_left_inj _).mp h)

theorem notFoundMessage_ne (identifier candidate library : String) :
    notFoundMessage identifier candidate ≠ disabledMessage library := by
  intro h
  -- The equation lemmas of long texts take long to make; their bodies are all that is needed.
  delta notFoundMessage disabledMessage at h
  have hfirst := congrArg (fun s => s.toList.head?) h
  simp at hfirst

/-- How a resolution fails that has looked for a library at a path: it names the library there
as one that cannot be loaded, or says that there is none. -/
structure Unloaded (fs : FileSystem) (identifier candidate : String) (f : Fault) : Prop where
  kind : f.kind = .resolution
  causes : f.causes = []
  disabled : ∀ library, f.message = disabledMessage library ↔ LibraryAt fs candidate library
  notFound : f.message = notFoundMessage identifier candidate ↔
    ∀ library, ¬ LibraryAt fs candidate library

/-! ## Origins -/

/-- Where the plugin of an identifier is to come from. -/
inductive Origin where
  | registry
  | workingDirectory
  | localDirectory
  deriving DecidableEq, Repr

namespace Origin

/-- The origin in words, given the directory for packages. -/
def words (localDir : String) : Origin → String
  | .registry => "builtin"
  | .workingDirectory => "path"
  | .localDirectory => "library in " ++ localDir

/-- Different origins are described differently. -/
theorem words_injective (localDir : String) : Function.Injective (words localDir) := by
  -- The first characters tell them apart.
  have hfirst (o : Origin) : (words localDir o).toList.head? = some (match o with
      | .registry => 'b'
      | .workingDirectory => 'p'
      | .localDirectory => 'l') := by
    cases o <;> simp [words]
  intro a b h
  have hsame := hfirst a
  rw [h, hfirst b] at hsame
  clear h
  revert hsame
  cases a <;> cases b <;> decide

end Origin

/-- The identifiers that are paths are those that begin with a point or a slash. -/
theorem IdentifierKind.of_eq_path_iff :
    IdentifierKind.of identifier = .path ↔
      identifier.toList.head? = some '.' ∨ identifier.toList.head? = some '/' := by
  unfold IdentifierKind.of
  split
  · next h => simp [h]
  · next h => simp [h]
  · next hpoint hslash =>
    simp only [reduceCtorEq, List.head?_eq_some_iff, false_iff, not_or, not_exists]
    exact ⟨hpoint, hslash⟩

namespace Resolver

variable {r : Resolver σ ω} {h : Host ω}

/-- A resolution without a plugin has looked at the path of the identifier. -/
theorem unloaded_missing (r : Resolver σ ω) (fs : FileSystem) (identifier : String) :
    Unloaded fs identifier (r.candidate fs identifier) (r.missing fs identifier).fault := by
  cases hlocate : locateLibrary fs (r.candidate fs identifier) with
  | some library =>
    have hmissing : r.missing fs identifier = .loadingDisabled library := by
      delta missing
      rw [hlocate]
    have hmessage : (r.missing fs identifier).fault.message = disabledMessage library := by
      rw [hmissing]
      rfl
    refine ⟨rfl, rfl, fun other => ?_, ?_⟩
    · rw [hmessage, disabledMessage_injective.eq_iff, ← locateLibrary_eq_some_iff, hlocate,
        Option.some.injEq]
    · rw [hmessage]
      exact iff_of_false (notFoundMessage_ne _ _ _).symm fun hnone =>
        hnone library (locateLibrary_eq_some_iff.mp hlocate)
  | none =>
    have hmissing : r.missing fs identifier = .notFound identifier (r.candidate fs identifier) := by
      delta missing
      rw [hlocate]
    have hmessage : (r.missing fs identifier).fault.message =
        notFoundMessage identifier (r.candidate fs identifier) := by
      rw [hmissing]
      rfl
    have hnone (library : String) : ¬ LibraryAt fs (r.candidate fs identifier) library := by
      rw [← locateLibrary_eq_some_iff, hlocate]
      nofun
    refine ⟨rfl, rfl, fun other => ?_, ?_⟩
    · rw [hmessage]
      exact iff_of_false (notFoundMessage_ne _ _ _) (hnone other)
    · rw [hmessage]
      exact iff_of_true rfl hnone

/-- Whether a resolution uses an origin: it succeeds from the registry, or fails after it has
looked at the path of the identifier under the working directory, where the identifier begins
with a point or a slash, or in the directory for packages, where it does not. -/
inductive ResolvesFrom (r : Resolver σ ω) (identifier : String) (h : Host ω) : Origin → Prop
  | registry {i : Instance σ ω} (registered : r.registry.contains identifier = true)
      (answer : (r.resolve identifier h).1 = .ok i) : ResolvesFrom r identifier h .registry
  | workingDirectory {f : Fault} (free : r.registry.contains identifier = false)
      (path : identifier.toList.head? = some '.' ∨ identifier.toList.head? = some '/')
      (answer : (r.resolve identifier h).1 = .error f)
      (failure : Unloaded h.files identifier (Path.join h.files.cwdPath identifier) f) :
      ResolvesFrom r identifier h .workingDirectory
  | localDirectory {f : Fault} (free : r.registry.contains identifier = false)
      (package : ¬ (identifier.toList.head? = some '.' ∨ identifier.toList.head? = some '/'))
      (answer : (r.resolve identifier h).1 = .error f)
      (failure : Unloaded h.files identifier (Path.join r.localDir identifier) f) :
      ResolvesFrom r identifier h .localDirectory

/-- The origin of an identifier, told without resolving it. -/
def origin (r : Resolver σ ω) (identifier : String) : Origin :=
  if r.registry.contains identifier then .registry
  else
    match IdentifierKind.of identifier with
    | .path => .workingDirectory
    | .package => .localDirectory

theorem source_eq_words (r : Resolver σ ω) (identifier : String) :
    r.source identifier = (r.origin identifier).words r.localDir := by
  unfold source origin
  split
  · rfl
  · cases IdentifierKind.of identifier <;> rfl

/-- An identifier that has not been resolved, or is registered, stands for an instance exactly if
it is registered. -/
theorem isSome_instance?
    (hcache : Keyed.get? identifier r.cache = none ∨ r.registry.contains identifier = true) :
    (r.instance? identifier).isSome = r.registry.contains identifier := by
  cases hcached : Keyed.get? identifier r.cache with
  | none => rw [instance?_of_not_cached hcached, Registry.isSome_create]
  | some i =>
    rw [hcached] at hcache
    rw [instance?_of_cached hcached, hcache.resolve_left (Option.some_ne_none i)]
    rfl

/-- It resolves exactly if it is registered. -/
theorem exists_resolve_eq_ok_iff
    (hcache : Keyed.get? identifier r.cache = none ∨ r.registry.contains identifier = true) :
    (∃ i, (r.resolve identifier h).1 = .ok i) ↔ r.registry.contains identifier = true := by
  rw [← isSome_instance? hcache, Option.isSome_iff_exists]
  exact exists_congr fun i => resolve_eq_ok_iff

/-- An identifier that has not been resolved and is not registered fails at its path. -/
theorem resolve_of_free
    (hcache : Keyed.get? identifier r.cache = none ∨ r.registry.contains identifier = true)
    (hfree : r.registry.contains identifier = false) :
    (r.resolve identifier h).1 = .error (r.missing h.files identifier).fault := by
  rw [← isSome_instance? hcache, Option.isSome_eq_false_iff, Option.isNone_iff_eq_none] at hfree
  rw [resolve_fst, hfree]

/-- A resolution uses the origin that is told. -/
theorem resolvesFrom_origin
    (hcache : Keyed.get? identifier r.cache = none ∨ r.registry.contains identifier = true) :
    ResolvesFrom r identifier h (r.origin identifier) := by
  unfold origin
  cases hregistered : r.registry.contains identifier with
  | true =>
    obtain ⟨i, hi⟩ := (exists_resolve_eq_ok_iff (h := h) hcache).mpr hregistered
    exact .registry hregistered hi
  | false =>
    have hanswer := resolve_of_free (h := h) hcache hregistered
    have hfailure := r.unloaded_missing h.files identifier
    unfold candidate at hfailure
    cases hkind : IdentifierKind.of identifier with
    | path =>
      rw [hkind] at hfailure
      exact .workingDirectory hregistered (IdentifierKind.of_eq_path_iff.mp hkind) hanswer hfailure
    | package =>
      rw [hkind] at hfailure
      refine .localDirectory hregistered ?_ hanswer hfailure
      rw [← IdentifierKind.of_eq_path_iff, hkind]
      exact IdentifierKind.noConfusion

/-- It uses no other. -/
theorem ResolvesFrom.eq_origin {used : Origin} (hfrom : ResolvesFrom r identifier h used) :
    used = r.origin identifier := by
  unfold Resolver.origin
  cases hfrom with
  | registry hregistered => rw [if_pos hregistered]
  | workingDirectory hfree hpath =>
    rw [hfree, IdentifierKind.of_eq_path_iff.mpr hpath]
    rfl
  | localDirectory hfree hpackage =>
    rw [← IdentifierKind.of_eq_path_iff] at hpackage
    rw [hfree]
    cases hkind : IdentifierKind.of identifier with
    | path => exact absurd hkind hpackage
    | package => rfl

/-- What is registered resolves without a look at the files. -/
theorem resolve_withFiles (hregistered : r.registry.contains identifier = true)
    (files : FileSystem) :
    r.resolve identifier { h with files } =
      ((r.resolve identifier h).1, (r.resolve identifier h).2.1,
        { (r.resolve identifier h).2.2 with files }) := by
  cases hcached : Keyed.get? identifier r.cache with
  | some i => rw [resolve_of_cached hcached, resolve_of_cached hcached]
  | none =>
    rw [← Registry.isSome_create, Option.isSome_iff_exists] at hregistered
    obtain ⟨i, hi⟩ := hregistered
    rcases hcreate : r.registry.create identifier with ⟨created, registry⟩
    rw [hcreate] at hi
    obtain rfl : created = some i := hi
    simp only [resolve, hcached, hcreate]
    rfl

/-- Take an identifier that has not been resolved yet, or is registered.  It resolves exactly if
it is registered, and the files make no difference to that.  Otherwise the resolution fails, as
it has looked for a library at one path.  The words for the origin of the identifier, which are
made without resolving it, describe each of the three origins exactly if it is the one that is
used. -/
theorem origin_is_described (r : Resolver σ ω) (identifier : String) (h : Host ω)
    (hcache : Keyed.get? identifier r.cache = none ∨ r.registry.contains identifier = true) :
    ((∃ i, (r.resolve identifier h).1 = .ok i) ↔ r.registry.contains identifier = true) ∧
    (r.registry.contains identifier = true → ∀ files : FileSystem,
      r.resolve identifier { h with files } =
        ((r.resolve identifier h).1, (r.resolve identifier h).2.1,
          { (r.resolve identifier h).2.2 with files })) ∧
    (∃ origin, ResolvesFrom r identifier h origin) ∧
    (r.source identifier = "builtin" ↔ ∃ i, (r.resolve identifier h).1 = .ok i) ∧
    (r.source identifier = "path" ↔ ResolvesFrom r identifier h .workingDirectory) ∧
    (r.source identifier = "library in " ++ r.localDir ↔
      ResolvesFrom r identifier h .localDirectory) := by
  have huses (origin : Origin) :
      r.source identifier = origin.words r.localDir ↔ ResolvesFrom r identifier h origin := by
    rw [source_eq_words, (Origin.words_injective r.localDir).eq_iff]
    constructor
    · rintro rfl
      exact resolvesFrom_origin hcache
    · exact fun hfrom => hfrom.eq_origin.symm
  refine ⟨exists_resolve_eq_ok_iff hcache, resolve_withFiles, ⟨_, resolvesFrom_origin hcache⟩,
    (huses .registry).trans ⟨?_, fun hok => ?_⟩, huses .workingDirectory, huses .localDirectory⟩
  · rintro ⟨-, hanswer⟩
    exact ⟨_, hanswer⟩
  · obtain ⟨i, hi⟩ := hok
    exact .registry ((exists_resolve_eq_ok_iff hcache).mp ⟨i, hi⟩) hi

/-- A package whose library stands beside a directory of its name, which shadows nothing. -/
theorem origin_is_described_beside :
    let r : Resolver Unit Unit := { registry := .empty, localDir := "vendor/" }
    let h : Host Unit :=
      { files := (({} : FileSystem).plant "vendor/a/tool" none).plant "vendor/a/libtool.so"
          (some "x".toUTF8), memory := () }
    Keyed.get? "a/tool/." r.cache = none ∧ r.source "a/tool/." = "library in vendor/" ∧
      ∃ f, (r.resolve "a/tool/." h).1 = .error f ∧ f.kind = .resolution ∧
        f.message = disabledMessage "vendor/a/libtool.so" := by
  intro r h
  have hnew : Keyed.get? "a/tool/." r.cache = none := rfl
  have hsource : r.source "a/tool/." = "library in vendor/" := by decide +kernel
  refine ⟨hnew, hsource, ?_⟩
  have hlibrary : LibraryAt h.files (Path.join r.localDir "a/tool/.")
      (Path.join "vendor/a" (libraryFileName "tool")) :=
    .beside (by decide +kernel) (by decide +kernel) (by decide +kernel) (by decide +kernel)
  cases (origin_is_described r "a/tool/." h (.inl hnew)).2.2.2.2.2.mp hsource with
  | localDirectory _ _ hanswer hfailure =>
    exact ⟨_, hanswer, hfailure.kind, (hfailure.disabled _).mpr hlibrary⟩

end Resolver

end PluginChain
