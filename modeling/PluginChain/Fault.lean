import PluginChain.Json.Read
set_option autoImplicit false

/-!
# Faults

A `Fault` is why an operation of the plugin chain failed: a kind, a message, and
the texts of what caused it, the nearest cause first.  The kind tells a plugin
that could not be found apart from one that failed while it handled a hook.
`Fault.wrap` makes one fault the cause of another, so that the causes of the
outer one are the inner one and then all its causes.
-/

namespace PluginChain

/-- What a fault is about. -/
inductive FaultKind where
  /-- An identifier has no plugin, or its library cannot be loaded. -/
  | resolution
  /-- A value for an event has no plain JSON form, or does not fit its type. -/
  | serialization
  /-- A plugin failed while it handled a hook. -/
  | handler
  /-- A configuration or an option is not as it should be. -/
  | configuration
  /-- A file operation failed. -/
  | io
  /-- The host did not do its part. -/
  | internal
  deriving DecidableEq, Repr, Inhabited

namespace FaultKind

/-- The kind as it stands before a message. -/
def label : FaultKind → String
  | .resolution => "RESOLUTION"
  | .serialization => "SERIALIZATION"
  | .handler => "HANDLER"
  | .configuration => "CONFIGURATION"
  | .io => "IO"
  | .internal => "INTERNAL"

/-- The name of the kind in data. -/
def name : FaultKind → String
  | .resolution => "Resolution"
  | .serialization => "Serialization"
  | .handler => "Handler"
  | .configuration => "Configuration"
  | .io => "Io"
  | .internal => "Internal"

/-- All kinds, in the order of declaration. -/
def all : List FaultKind :=
  [.resolution, .serialization, .handler, .configuration, .io, .internal]

/-- The kind that a JSON value names. -/
def ofJson (v : Json) : Except Mismatch FaultKind :=
  Json.readMember (all.map fun k => (k.name, k)) v

theorem mem_all (k : FaultKind) : k ∈ all := by
  cases k <;> simp [all]

/-- The name of a kind is read back as that kind. -/
theorem ofJson_name (k : FaultKind) : ofJson (.str k.name) = .ok k := by
  cases k <;> rfl

end FaultKind

/-- Why an operation failed. -/
structure Fault where
  kind : FaultKind
  message : String
  /-- The texts of the causes, the nearest first. -/
  causes : List String
  deriving DecidableEq, Repr, Inhabited

namespace Fault

/-- A fault without a cause. -/
def new (kind : FaultKind) (message : String) : Fault := ⟨kind, message, []⟩

/-- A fault caused by something with a text. -/
def because (kind : FaultKind) (message cause : String) : Fault := ⟨kind, message, [cause]⟩

/-- The fault in one line: its kind and its message. -/
def display (f : Fault) : String := f.kind.label ++ ": " ++ f.message

/-- A fault caused by another. -/
def wrap (kind : FaultKind) (message : String) (inner : Fault) : Fault :=
  ⟨kind, message, inner.display :: inner.causes⟩

/-- The fault without its causes. -/
def withoutCauses (f : Fault) : Fault := { f with causes := [] }

/-- The fault for JSON data that could not be read or does not fit its type. -/
def ofJsonFailure (text : String) : Fault :=
  because .serialization ("JSON serialization error: " ++ text) text

/-- The fault for a JSON value that does not fit its type. -/
def ofMismatch (m : Mismatch) : Fault := ofJsonFailure m.jsonMessage

/-- The fault for a failed file operation of which only its text is known. -/
def ofFileFailure (text : String) : Fault := because .io ("I/O error: " ++ text) text

/-- The fault for settings that could not be read. -/
def ofSettingsFailure (text : String) : Fault :=
  because .configuration ("Configuration error: " ++ text) text

@[simp] theorem display_withoutCauses (f : Fault) : f.withoutCauses.display = f.display := rfl

@[simp] theorem causes_wrap (kind : FaultKind) (message : String) (inner : Fault) :
    (wrap kind message inner).causes = inner.display :: inner.causes := rfl

end Fault

end PluginChain
