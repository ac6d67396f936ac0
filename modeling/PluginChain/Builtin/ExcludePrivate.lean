import PluginChain.Builtin.Option
set_option autoImplicit false

/-!
# Excluding records that are not public

`exclude-private` drops from the documentation records those whose access is
private, and on demand those whose access is protected.  The others stay in their
order.
-/

namespace PluginChain.Builtin.ExcludePrivate

variable {σ ω : Type}

/-- The identifier of the plugin. -/
def identifier : String := "exclude-private"

/-- What the plugin is to drop. -/
structure Options where
  /-- Whether protected records are dropped as well. -/
  protectedToo : Bool
  deriving DecidableEq, Repr, Inhabited

namespace Options

/-- The option as a record. -/
def recordType : RecordType := ⟨"ExcludeOption", ["protected"]⟩

/-- Reads the option; protected records stay where it does not speak of them. -/
def ofJson (v : Json) : Except Mismatch Options := do
  let parts ← Format.parts recordType v
  let protectedToo ← parts.read recordType "protected" Json.readBool
  parts.finish recordType
  return { protectedToo := protectedToo.getD false }

end Options

/-- The access of a record, if it has one in words. -/
def access? (doc : Json) : Option String := (doc.get? "access").bind Json.asString?

/-- Whether a record is dropped. -/
def isExcluded (options : Options) (doc : Json) : Bool :=
  match access? doc with
  | some access => access == "private" || (access == "protected" && options.protectedToo)
  | none => false

/-- The records that stay. -/
def remaining (options : Options) (docs : List Json) : List Json :=
  docs.filter fun doc => !isExcluded options doc

/-- The record of what was dropped. -/
def excludedRecord (before after : Nat) : LogRecord :=
  .debug .excludePrivate "Excluded non-public docs"
    [("removed", .int ((before - after : Nat) : Int)), ("remaining", .int after)]

/-- Drops records from the event. -/
def drop (options : Options) : Handler σ ω DocsData := fun scene =>
  let docs := scene.event.data.docs
  let kept := remaining options docs
  (.ok (),
    { scene with
      event := { scene.event with data := { docs := kept } }
      host := scene.host.note (excludedRecord docs.length kept.length) })

/-- The plugin. -/
def plugin : Plugin σ ω where
  name := identifier
  hooks := [.docs]
  handle
    | .docs => withOption identifier Options.ofJson drop
    | _ => Handler.skip

theorem length_remaining_le (options : Options) (docs : List Json) :
    (remaining options docs).length ≤ docs.length := List.length_filter_le _ _

end PluginChain.Builtin.ExcludePrivate
