import PluginChain.Resolver
set_option autoImplicit false

/-!
# What a resolution gives and what it keeps

Whether an identifier has a plugin, and which instance it is, is settled before it
is resolved: `Resolver.instance?` reads it off the cache and the registry.  The
files decide only how a failure is worded.  No resolution changes the answer for
any identifier, so `instance?` stands for a whole run.

`Resolver.settled` is the resolver after a resolution, and `Host.quiet` the host
as handlers see it, without the records written before.
-/

namespace PluginChain

namespace Host

variable {ω : Type}

/-- The host with an empty log. -/
def quiet (h : Host ω) : Host ω := { h with log := [] }

@[simp] theorem files_quiet (h : Host ω) : h.quiet.files = h.files := rfl

/-- Hosts that are alike but for their logs have the same files. -/
theorem files_eq_of_quiet {h h' : Host ω} (hq : h.quiet = h'.quiet) : h.files = h'.files := by
  rw [← files_quiet, hq, files_quiet]

end Host

namespace Registry

variable {σ ω : Type}

/-- How often the factory of an identifier has been called. -/
def built (r : Registry σ ω) (identifier : String) : Nat :=
  match Keyed.get? identifier r.entries with
  | some (.factory built _) => built
  | _ => 0

/-- A registry without the identifier gives nothing and stays as it is. -/
theorem create_of_none {r : Registry σ ω} {identifier : String}
    (h : Keyed.get? identifier r.entries = none) : r.create identifier = (none, r) := by
  simp [create, h]

/-- A shared instance is handed out, and the registry stays as it is. -/
theorem create_of_shared {r : Registry σ ω} {identifier : String} {i : Instance σ ω}
    (h : Keyed.get? identifier r.entries = some (.shared i)) :
    r.create identifier = (some i, r) := by
  simp [create, h]

/-- A factory builds the next instance and has been called once more. -/
theorem create_of_factory {r : Registry σ ω} {identifier : String} {built : Nat}
    {make : Nat → Plugin σ ω × σ}
    (h : Keyed.get? identifier r.entries = some (.factory built make)) :
    r.create identifier =
      (some ⟨.built identifier (built + 1), (make (built + 1)).1, (make (built + 1)).2⟩,
        { entries :=
            Keyed.modify identifier (fun _ => .factory (built + 1) make) r.entries }) := by
  simp [create, h]

/-- Creating an instance touches the registration of no other identifier. -/
theorem get?_create_of_ne {r : Registry σ ω} {identifier other : String}
    (h : identifier ≠ other) :
    Keyed.get? other (r.create identifier).2.entries = Keyed.get? other r.entries := by
  cases hr : Keyed.get? identifier r.entries with
  | none => rw [create_of_none hr]
  | some registration =>
    cases registration with
    | shared i => rw [create_of_shared hr]
    | factory built make =>
      rw [create_of_factory hr]
      exact Keyed.get?_modify_of_ne h _ _

/-- What is created for an identifier hangs on its registration alone. -/
theorem create_congr {r r' : Registry σ ω} {identifier : String}
    (h : Keyed.get? identifier r.entries = Keyed.get? identifier r'.entries) :
    (r.create identifier).1 = (r'.create identifier).1 := by
  unfold create
  rw [h]
  cases Keyed.get? identifier r'.entries with
  | none => rfl
  | some registration => cases registration <;> rfl

/-- Where nothing is created, the registry stays as it is. -/
theorem create_of_fst_none {r : Registry σ ω} {identifier : String}
    (h : (r.create identifier).1 = none) : r.create identifier = (none, r) := by
  cases hr : Keyed.get? identifier r.entries with
  | none => exact create_of_none hr
  | some registration =>
    cases registration with
    | shared i => simp [create_of_shared hr] at h
    | factory built make => simp [create_of_factory hr] at h

end Registry

namespace Resolver

variable {σ ω : Type}

/-! ## The instance that an identifier stands for -/

/-- The instance that an identifier stands for: the one that was resolved before,
or else what the registry has for it. -/
def instance? (r : Resolver σ ω) (identifier : String) : Option (Instance σ ω) :=
  match Keyed.get? identifier r.cache with
  | some i => some i
  | none => (r.registry.create identifier).1

/-- The resolver after an identifier has been resolved. -/
def settled (r : Resolver σ ω) (identifier : String) : Resolver σ ω :=
  match Keyed.get? identifier r.cache with
  | some _ => r
  | none =>
    match r.registry.create identifier with
    | (some i, registry) => { r with registry, cache := Keyed.insert identifier i r.cache }
    | (none, _) => r

theorem instance?_of_cached {r : Resolver σ ω} {identifier : String} {i : Instance σ ω}
    (hc : Keyed.get? identifier r.cache = some i) : r.instance? identifier = some i := by
  simp [instance?, hc]

theorem instance?_of_not_cached {r : Resolver σ ω} {identifier : String}
    (hc : Keyed.get? identifier r.cache = none) :
    r.instance? identifier = (r.registry.create identifier).1 := by
  simp [instance?, hc]

theorem settled_of_cached {r : Resolver σ ω} {identifier : String} {i : Instance σ ω}
    (hc : Keyed.get? identifier r.cache = some i) : r.settled identifier = r := by
  simp [settled, hc]

theorem settled_of_created {r : Resolver σ ω} {identifier : String} {i : Instance σ ω}
    (hc : Keyed.get? identifier r.cache = none)
    (hi : (r.registry.create identifier).1 = some i) :
    r.settled identifier =
      { r with registry := (r.registry.create identifier).2
               cache := Keyed.insert identifier i r.cache } := by
  rcases hreg : r.registry.create identifier with ⟨created, registry⟩
  rw [hreg] at hi
  cases hi
  simp [settled, hc, hreg]

/-- What stands for no instance changes nothing when it is resolved. -/
theorem settled_of_none {r : Resolver σ ω} {identifier : String}
    (hi : r.instance? identifier = none) : r.settled identifier = r := by
  cases hc : Keyed.get? identifier r.cache with
  | some i => exact settled_of_cached hc
  | none =>
    rw [instance?_of_not_cached hc] at hi
    simp [settled, hc, Registry.create_of_fst_none hi]

/-- A resolution changes nothing, as the cache says it all, or it loads what the registry
has created. -/
theorem settled_cases (r : Resolver σ ω) (identifier : String) :
    (r.settled identifier = r ∧ r.instance? identifier = Keyed.get? identifier r.cache) ∨
      ∃ i, r.instance? identifier = some i ∧
        r.settled identifier =
          { r with registry := (r.registry.create identifier).2
                   cache := Keyed.insert identifier i r.cache } := by
  cases hc : Keyed.get? identifier r.cache with
  | some i => exact .inl ⟨settled_of_cached hc, instance?_of_cached hc⟩
  | none =>
    cases hi : r.instance? identifier with
    | none => exact .inl ⟨settled_of_none hi, rfl⟩
    | some i =>
      have hcreated := hi
      rw [instance?_of_not_cached hc] at hcreated
      exact .inr ⟨i, rfl, settled_of_created hc hcreated⟩

/-- A resolution gives the instance that the identifier stands for, or the fault
of an identifier without a plugin. -/
theorem resolve_fst (r : Resolver σ ω) (identifier : String) (h : Host ω) :
    (r.resolve identifier h).1 =
      match r.instance? identifier with
      | some i => .ok i
      | none => .error (r.missing h.files identifier).fault := by
  cases hc : Keyed.get? identifier r.cache with
  | some i => simp [resolve, instance?, hc]
  | none =>
    rcases hreg : r.registry.create identifier with ⟨created, registry⟩
    cases created <;> simp [resolve, instance?, hc, hreg]

/-- The resolver that a resolution leaves does not hang on the host. -/
theorem resolve_settled (r : Resolver σ ω) (identifier : String) (h : Host ω) :
    (r.resolve identifier h).2.1 = r.settled identifier := by
  cases hc : Keyed.get? identifier r.cache with
  | some i => simp [resolve, settled, hc]
  | none =>
    rcases hreg : r.registry.create identifier with ⟨created, registry⟩
    cases created with
    | some i => simp [resolve, settled, hc, hreg]
    | none =>
      have hnone : (r.registry.create identifier).1 = none := by rw [hreg]
      have hsame := Registry.create_of_fst_none hnone
      rw [hreg] at hsame
      cases hsame
      simp [resolve, settled, hc, hreg]

/-- A resolution only adds to the log of the host. -/
theorem quiet_resolve (r : Resolver σ ω) (identifier : String) (h : Host ω) :
    (r.resolve identifier h).2.2.quiet = h.quiet := by
  unfold resolve
  split
  · rfl
  · split <;> rfl

/-- An identifier that stands for an instance resolves to it. -/
theorem resolve_of_some {r : Resolver σ ω} {identifier : String} {i : Instance σ ω}
    (hi : r.instance? identifier = some i) (h : Host ω) :
    ∃ host, r.resolve identifier h = (.ok i, r.settled identifier, host) ∧
      host.quiet = h.quiet := by
  refine ⟨(r.resolve identifier h).2.2, ?_, quiet_resolve r identifier h⟩
  have hfst := resolve_fst r identifier h
  rw [hi] at hfst
  exact Prod.ext hfst (Prod.ext (resolve_settled r identifier h) rfl)

/-- An identifier that stands for none fails, and the resolver stays as it is. -/
theorem resolve_of_none {r : Resolver σ ω} {identifier : String}
    (hi : r.instance? identifier = none) (h : Host ω) :
    ∃ host, r.resolve identifier h = (.error (r.missing h.files identifier).fault, r, host) ∧
      host.quiet = h.quiet := by
  refine ⟨(r.resolve identifier h).2.2, ?_, quiet_resolve r identifier h⟩
  have hfst := resolve_fst r identifier h
  have hsnd := resolve_settled r identifier h
  rw [hi] at hfst
  rw [settled_of_none hi] at hsnd
  exact Prod.ext hfst (Prod.ext hsnd rfl)

theorem resolve_eq_ok_iff {r : Resolver σ ω} {identifier : String} {h : Host ω}
    {i : Instance σ ω} :
    (r.resolve identifier h).1 = .ok i ↔ r.instance? identifier = some i := by
  rw [resolve_fst]
  cases r.instance? identifier <;> simp

theorem resolve_eq_error_iff {r : Resolver σ ω} {identifier : String} {h : Host ω} :
    (∃ f, (r.resolve identifier h).1 = .error f) ↔ r.instance? identifier = none := by
  rw [resolve_fst]
  cases r.instance? identifier <;> simp

/-! ## What a resolution keeps -/

@[simp] theorem states_settled (r : Resolver σ ω) (identifier : String) :
    (r.settled identifier).states = r.states := by
  rcases settled_cases r identifier with ⟨h, -⟩ | ⟨i, -, h⟩ <;> rw [h]

@[simp] theorem stateOf_settled (r : Resolver σ ω) (identifier : String) (i : Instance σ ω) :
    (r.settled identifier).stateOf i = r.stateOf i := by
  simp [stateOf]

theorem stateOf_setState_of_eq (r : Resolver σ ω) {i j : Instance σ ω} (h : i.id = j.id)
    (s : σ) : (r.setState i s).stateOf j = s := by
  simp only [stateOf, setState, h]
  exact PrivateStates.of_set_self _ _ _

theorem stateOf_setState_of_ne (r : Resolver σ ω) {i j : Instance σ ω} (h : i.id ≠ j.id)
    (s : σ) : (r.setState i s).stateOf j = r.stateOf j :=
  PrivateStates.of_set_of_ne _ h s

/-- After a resolution the cache has the instance of that identifier, if there is
one, and all it had before. -/
theorem get?_cache_settled (r : Resolver σ ω) (identifier other : String) :
    Keyed.get? other (r.settled identifier).cache =
      if identifier = other then r.instance? identifier else Keyed.get? other r.cache := by
  by_cases hk : identifier = other
  · subst hk
    rw [if_pos rfl]
    rcases settled_cases r identifier with ⟨hsame, hi⟩ | ⟨i, hi, hcreated⟩
    · rw [hsame, hi]
    · rw [hcreated, hi]
      exact Keyed.get?_insert_self identifier i r.cache
  · rw [if_neg hk]
    rcases settled_cases r identifier with ⟨hsame, -⟩ | ⟨i, -, hcreated⟩
    · rw [hsame]
    · rw [hcreated]
      exact Keyed.get?_insert_of_ne hk i r.cache

/-- A resolution leaves the registrations of all other identifiers as they were. -/
theorem get?_registry_settled_of_ne (r : Resolver σ ω) {identifier other : String}
    (h : identifier ≠ other) :
    Keyed.get? other (r.settled identifier).registry.entries =
      Keyed.get? other r.registry.entries := by
  rcases settled_cases r identifier with ⟨hsame, -⟩ | ⟨i, -, hcreated⟩
  · rw [hsame]
  · rw [hcreated]
    exact Registry.get?_create_of_ne h

/-- No resolution changes which instance an identifier stands for. -/
@[simp] theorem instance?_settled (r : Resolver σ ω) (identifier other : String) :
    (r.settled identifier).instance? other = r.instance? other := by
  have hcache := get?_cache_settled r identifier other
  by_cases hk : identifier = other
  · subst hk
    rw [if_pos rfl] at hcache
    cases hi : r.instance? identifier with
    | some i => rw [instance?_of_cached (hcache.trans hi)]
    | none => rw [settled_of_none hi, hi]
  · rw [if_neg hk] at hcache
    have hreg := Registry.create_congr (get?_registry_settled_of_ne r hk)
    unfold instance?
    rw [hcache, hreg]

@[simp] theorem instance?_setState (r : Resolver σ ω) (i : Instance σ ω) (s : σ)
    (identifier : String) : (r.setState i s).instance? identifier = r.instance? identifier := rfl

theorem candidate_congr {r r' : Resolver σ ω} (fs : FileSystem)
    (hdir : r.localDir = r'.localDir) (identifier : String) :
    r.candidate fs identifier = r'.candidate fs identifier := by
  simp only [candidate, hdir]

/-- The wording of a failure hangs on the library directory and the files alone. -/
theorem missing_congr {r r' : Resolver σ ω} {fs fs' : FileSystem}
    (hdir : r.localDir = r'.localDir) (hfs : fs = fs') (identifier : String) :
    r.missing fs identifier = r'.missing fs' identifier := by
  subst hfs
  -- The equation lemmas of `missing` take long to make; its body is all that is needed.
  delta missing
  rw [candidate_congr fs hdir]

end Resolver

end PluginChain
