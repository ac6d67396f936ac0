import PluginChain.Plugin
set_option autoImplicit false

/-!
# Calls of lent operations

Which of the operations that the publish hook lends a plugin calls, and with what, is seen by
operations that note each call in the memory of the host and do what they did otherwise
(`PublishData.noting`).  `Publishes` says what a plugin does with an event of that hook and by
which calls, for a host with any operations and any memory.
-/

namespace PluginChain

/-- A call of one of the operations that the publish hook lends. -/
inductive PublishCall where
  | write (path content : String)
  | copyFile (source target : String)
  | copyDir (source target : String)
  | read (path : String)
  deriving DecidableEq, Repr

/-- The memory of a host that notes calls besides. -/
abbrev Noted (ω : Type) := ω × List PublishCall

variable {σ ω α : Type}

/-- The host with notes in its memory. -/
def Host.withNotes (h : Host ω) (notes : List PublishCall) : Host (Noted ω) :=
  ⟨h.files, (h.memory, notes), h.log⟩

/-- The host without its notes. -/
def Host.withoutNotes (h : Host (Noted ω)) : Host ω := ⟨h.files, h.memory.1, h.log⟩

/-- An operation that notes its call. -/
def noting (call : PublishCall) (act : Effect ω α) : Effect (Noted ω) α := fun h =>
  let (result, left) := act h.withoutNotes
  (result, left.withNotes (h.memory.2 ++ [call]))

/-- The operations, each noting its calls. -/
def PublishData.noting (d : PublishData ω) : PublishData (Noted ω) where
  write path content := PluginChain.noting (.write path content) (d.write path content)
  copyFile := ⟨d.copyFile.mark, fun source target =>
    PluginChain.noting (.copyFile source target) (d.copyFile.part source target)⟩
  copyDir := ⟨d.copyDir.mark, fun source target =>
    PluginChain.noting (.copyDir source target) (d.copyDir.part source target)⟩
  read path := PluginChain.noting (.read path) (d.read path)

/-- The scene with operations that note their calls, behind notes that are there. -/
def Scene.withNotes (scene : Scene σ ω (PublishData ω)) (notes : List PublishCall) :
    Scene σ (Noted ω) (PublishData (Noted ω)) :=
  ⟨scene.state, ⟨scene.event.option, scene.event.data.noting, scene.event.extra⟩,
    scene.host.withNotes notes⟩

/-- Whether a plugin takes an event of the publish hook from one scene to another with some
result, and by these calls of the lent operations alone. -/
structure Publishes (plugin : (ω : Type) → Plugin σ ω) (scene : Scene σ ω (PublishData ω))
    (calls : List PublishCall) (result : Except Fault Unit)
    (after : Scene σ ω (PublishData ω)) : Prop where
  done : (plugin ω).handle .publish scene = (result, after)
  noted : ∀ notes, (plugin (Noted ω)).handle .publish (scene.withNotes notes) =
    (result, after.withNotes (notes ++ calls))

/-- A plugin publishes by no other calls and with no other result. -/
theorem Publishes.unique {plugin : (ω : Type) → Plugin σ ω} {scene after after' : Scene σ ω _}
    {calls calls' : List PublishCall} {result result' : Except Fault Unit}
    (h : Publishes plugin scene calls result after)
    (h' : Publishes plugin scene calls' result' after') :
    calls = calls' ∧ result = result' ∧ after = after' := by
  obtain ⟨hresult, hafter⟩ := Prod.mk.inj (h.done.symm.trans h'.done)
  have hnoted := (Prod.mk.inj ((h.noted []).symm.trans (h'.noted []))).2
  have hmemory := congrArg (fun scene => scene.host.memory.2) hnoted
  exact ⟨hmemory, hresult, hafter⟩

end PluginChain
