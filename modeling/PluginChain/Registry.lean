import PluginChain.Plugin
set_option autoImplicit false

/-!
# Registries

A registry holds the plugins that are compiled in, by identifier.  A registration
hands out one instance, or builds a new one each time it is asked.  The first
registration of an identifier stands; a second is refused.
-/

namespace PluginChain

/-- How an identifier yields its plugin. -/
inductive Registration (σ ω : Type) where
  /-- Builds a new instance each time: how many there are by now, and the plugin
  with its first private state, by serial number from 1 on. -/
  | factory (built : Nat) (make : Nat → Plugin σ ω × σ)
  /-- Hands out this instance. -/
  | shared (i : Instance σ ω)

/-- The compiled-in plugins by identifier. -/
structure Registry (σ ω : Type) where
  entries : Keyed (Registration σ ω) := []

namespace Registry

variable {σ ω : Type}

/-- A registry without plugins. -/
def empty : Registry σ ω := {}

/-- Whether an identifier is registered. -/
def contains (r : Registry σ ω) (identifier : String) : Bool :=
  Keyed.contains identifier r.entries

/-- The registered identifiers, in increasing order. -/
def identifiers (r : Registry σ ω) : List String := Keyed.keys r.entries

/-- The number of registered plugins. -/
def size (r : Registry σ ω) : Nat := r.entries.length

/-- The fault for an identifier that is taken. -/
def takenFault (identifier : String) : Fault :=
  .new .configuration ("Plugin '" ++ identifier ++ "' is already registered")

/-- The record of a registration. -/
def registeringRecord (identifier : String) : LogRecord :=
  .debug .registry "Registering compiled-in plugin" [("plugin", .str identifier)]

/-- Registers a plugin under an identifier that is free. -/
def register (r : Registry σ ω) (identifier : String) (registration : Registration σ ω) :
    Except Fault (Registry σ ω) :=
  if r.contains identifier then .error (takenFault identifier)
  else .ok { entries := Keyed.insert identifier registration r.entries }

/-- Registers plugins in order and stops at the first identifier that is taken;
those before it stay. -/
def registerAll : List (String × Registration σ ω) → Registry σ ω → List LogRecord →
    Except Fault Unit × Registry σ ω × List LogRecord
  | [], r, log => (.ok (), r, log)
  | (identifier, registration) :: rest, r, log =>
    match r.register identifier registration with
    | .error f => (.error f, r, log)
    | .ok r => registerAll rest r (log ++ [registeringRecord identifier])

/-- An instance of the plugin under an identifier, and the registry that knows of
it. -/
def create (r : Registry σ ω) (identifier : String) : Option (Instance σ ω) × Registry σ ω :=
  match Keyed.get? identifier r.entries with
  | none => (none, r)
  | some (.shared i) => (some i, r)
  | some (.factory built make) =>
    let serial := built + 1
    let (plugin, initial) := make serial
    (some ⟨.built identifier serial, plugin, initial⟩,
      { entries := Keyed.modify identifier (fun _ => .factory serial make) r.entries })

/-- The registry for a developer: its identifiers. -/
def describe (r : Registry σ ω) : String :=
  "PluginRegistry \x7b identifiers: [" ++ ", ".intercalate (r.identifiers.map Quoted.quote)
    ++ "] \x7d"

/-- A registration is accepted exactly where the identifier is free. -/
theorem register_eq_ok_iff {r r' : Registry σ ω} {identifier : String}
    {registration : Registration σ ω} :
    r.register identifier registration = .ok r' ↔
      r.contains identifier = false ∧
        r' = { entries := Keyed.insert identifier registration r.entries } := by
  unfold register
  cases r.contains identifier <;> simp [eq_comm]

/-- Creating an instance keeps the identifiers. -/
theorem identifiers_create (r : Registry σ ω) (identifier : String) :
    (r.create identifier).2.identifiers = r.identifiers := by
  unfold create
  split <;> simp [identifiers, Keyed.keys_modify]

/-- There is an instance exactly of what is registered. -/
theorem isSome_create (r : Registry σ ω) (identifier : String) :
    (r.create identifier).1.isSome = r.contains identifier := by
  unfold create contains Keyed.contains
  split <;> simp [*]

end Registry

end PluginChain
