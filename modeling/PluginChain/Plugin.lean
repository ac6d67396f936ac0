import PluginChain.Capability
import PluginChain.Event
import PluginChain.Hook
set_option autoImplicit false

/-!
# Plugins

A plugin has a name, the hooks it handles, and a handler for each.  A handler is
any function of the plugin's private state, the event and the host: it may change
all three, and it may fail.  `σ` is the type of private states and `ω` that of the
host's memory.

An `Instance` is one loaded plugin.  Its identity tells it from every other
instance, and its private state is kept under that identity.
-/

namespace PluginChain

/-- The data that the events of a hook carry. -/
def Hook.Data (ω : Type) : Hook → Type
  | .plugins => PluginsData
  | .start => Unit
  | .config => ConfigData
  | .code => CodeData
  | .codeParser => CodeParserData
  | .docClass => DocClassData
  | .ast => AstData
  | .docs => DocsData
  | .publish => PublishData ω
  | .content => ContentData
  | .complete => Unit

/-- What a handler sees and may change. -/
structure Scene (σ ω D : Type) where
  /-- The private state of the plugin. -/
  state : σ
  event : Event D
  /-- The host, with the log of this call alone. -/
  host : Host ω

/-- What a plugin does with an event. -/
abbrev Handler (σ ω D : Type) := Scene σ ω D → Except Fault Unit × Scene σ ω D

namespace Handler

variable {σ ω D : Type}

/-- Does nothing. -/
def skip : Handler σ ω D := fun scene => (.ok (), scene)

/-- Fails and changes nothing. -/
def fail (f : Fault) : Handler σ ω D := fun scene => (.error f, scene)

end Handler

/-- A plugin. -/
structure Plugin (σ ω : Type) where
  name : String
  /-- The hooks that the plugin handles.  They are taken as constant: a plugin registers them
  once, whatever its private state becomes. -/
  hooks : List Hook
  handle : (hook : Hook) → Handler σ ω (hook.Data ω)

namespace Plugin

variable {σ ω : Type}

/-- Whether the plugin handles a hook. -/
def handles (p : Plugin σ ω) (hook : Hook) : Bool := p.hooks.contains hook

end Plugin

/-- A part of a larger state, by how it is looked at and replaced. -/
structure Slot (σ α : Type) where
  get : σ → α
  set : α → σ → σ
  get_set : ∀ a s, get (set a s) = a := by intros; rfl

namespace Slot

/-- The whole state as a part of itself. -/
def whole (σ : Type) : Slot σ σ where
  get s := s
  set a _ := a

end Slot

namespace Plugin

variable {σ α ω : Type}

/-- The plugin with its private state kept in a part of a larger one. -/
def within (slot : Slot σ α) (p : Plugin α ω) : Plugin σ ω where
  name := p.name
  hooks := p.hooks
  handle hook scene :=
    let (result, inner) := p.handle hook { scene with state := slot.get scene.state }
    (result, { inner with state := slot.set inner.state scene.state })

@[simp] theorem name_within (slot : Slot σ α) (p : Plugin α ω) : (p.within slot).name = p.name :=
  rfl

@[simp] theorem hooks_within (slot : Slot σ α) (p : Plugin α ω) :
    (p.within slot).hooks = p.hooks := rfl

end Plugin

/-- What tells one instance from another: a number given by whoever made it, or the
registration that built it and which of its instances it is. -/
inductive InstanceId where
  | given (number : Nat)
  | built (identifier : String) (serial : Nat)
  deriving DecidableEq, Repr, Inhabited

/-- One loaded plugin. -/
structure Instance (σ ω : Type) where
  id : InstanceId
  plugin : Plugin σ ω
  /-- The private state before the first call. -/
  initial : σ

/-- The private states of instances that have been called, by identity. -/
abbrev PrivateStates (σ : Type) := List (InstanceId × σ)

namespace PrivateStates

variable {σ ω : Type}

/-- The private state of an instance. -/
def of (states : PrivateStates σ) (i : Instance σ ω) : σ :=
  match states with
  | [] => i.initial
  | (id, s) :: rest => if id = i.id then s else PrivateStates.of rest i

/-- The states with another one for an instance. -/
def set (id : InstanceId) (s : σ) : PrivateStates σ → PrivateStates σ
  | [] => [(id, s)]
  | (k, t) :: rest => if k = id then (id, s) :: rest else (k, t) :: set id s rest

theorem of_set_self (states : PrivateStates σ) (i : Instance σ ω) (s : σ) :
    of (set i.id s states) i = s := by
  induction states with
  | nil => simp [set, of]
  | cons p rest ih =>
    obtain ⟨k, t⟩ := p
    by_cases hk : k = i.id <;> simp [set, of, hk, ih]

theorem of_set_of_ne (states : PrivateStates σ) {i : Instance σ ω} {id : InstanceId}
    (h : id ≠ i.id) (s : σ) : of (set id s states) i = of states i := by
  induction states with
  | nil => simp [set, of, h]
  | cons p rest ih =>
    obtain ⟨k, t⟩ := p
    by_cases hk : k = id
    · subst hk
      simp [set, of, h]
    · simp [set, of, hk, ih]

end PrivateStates

end PluginChain
