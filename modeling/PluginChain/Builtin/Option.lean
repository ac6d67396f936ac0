import PluginChain.Plugin
set_option autoImplicit false

/-!
# Options of built-in plugins

A built-in plugin reads its option before it does anything else.  A null option is
the default one; any other value has to fit the option's type, and where it does
not, the handler fails and has changed nothing.
-/

namespace PluginChain.Builtin

variable {σ ω D α : Type}

/-- The fault for an option that does not fit. -/
def optionFault (identifier : String) (m : Mismatch) : Fault :=
  .new .configuration
    ("Invalid option for plugin '" ++ identifier ++ "': " ++ m.jsonMessage)

/-- The option that a JSON value spells. -/
def readOption [Inhabited α] (identifier : String) (read : Json → Except Mismatch α)
    (option : Json) : Except Fault α :=
  if option.isNull then .ok default
  else
    match read option with
    | .ok a => .ok a
    | .error m => .error (optionFault identifier m)

/-- A handler that needs the option of the event. -/
def withOption [Inhabited α] (identifier : String) (read : Json → Except Mismatch α)
    (act : α → Handler σ ω D) : Handler σ ω D := fun scene =>
  match readOption identifier read scene.event.option with
  | .ok option => act option scene
  | .error f => (.error f, scene)

@[simp] theorem readOption_null [Inhabited α] (identifier : String)
    (read : Json → Except Mismatch α) : readOption identifier read .null = .ok default := rfl

/-- What is not read is faulted, whatever the mismatch. -/
theorem readOption_eq_ok_or [Inhabited α] (identifier : String)
    (read : Json → Except Mismatch α) (option : Json) :
    (∃ a, readOption identifier read option = .ok a) ∨
      ∃ m, readOption identifier read option = .error (optionFault identifier m) := by
  unfold readOption
  split
  · exact .inl ⟨default, rfl⟩
  · cases read option with
    | ok a => exact .inl ⟨a, rfl⟩
    | error m => exact .inr ⟨m, rfl⟩

/-- A handler with an option that does not fit leaves everything as it was. -/
theorem withOption_of_error [Inhabited α] {identifier : String} {read : Json → Except Mismatch α}
    {act : α → Handler σ ω D} {scene : Scene σ ω D} {f : Fault}
    (h : readOption identifier read scene.event.option = .error f) :
    withOption identifier read act scene = (.error f, scene) := by
  simp [withOption, h]

theorem withOption_of_ok [Inhabited α] {identifier : String} {read : Json → Except Mismatch α}
    {act : α → Handler σ ω D} {scene : Scene σ ω D} {option : α}
    (h : readOption identifier read scene.event.option = .ok option) :
    withOption identifier read act scene = act option scene := by
  simp [withOption, h]

end PluginChain.Builtin
