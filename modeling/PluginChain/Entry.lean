import PluginChain.Json.Read
import PluginChain.Reading.Serial
set_option autoImplicit false

/-!
# Plugin entries

A configuration lists plugins by identifier, each with an option of its own.  An
identifier that begins with a point or a slash is a path; any other names a
package.
-/

namespace PluginChain

/-- How an identifier is to be understood. -/
inductive IdentifierKind where
  /-- A path, taken from the working directory. -/
  | path
  /-- The name of a package, looked up by the resolver. -/
  | package
  deriving DecidableEq, Repr, Inhabited

namespace IdentifierKind

/-- The kind of an identifier, told by its first character. -/
def of (identifier : String) : IdentifierKind :=
  match identifier.toList with
  | '.' :: _ => .path
  | '/' :: _ => .path
  | _ => .package

/-- The kind in a word. -/
def name : IdentifierKind → String
  | .path => "path"
  | .package => "package"

end IdentifierKind

/-- One plugin of a list: its identifier and the option that its handlers see. -/
structure PluginEntry where
  name : String
  option : Json := .null
  deriving Inhabited

namespace PluginEntry

instance : BEq PluginEntry where
  beq a b := a.name == b.name && a.option == b.option

/-- How the identifier of the entry is to be understood. -/
def kind (e : PluginEntry) : IdentifierKind := .of e.name

/-- The entry as a record. -/
def recordType : RecordType := ⟨"PluginEntry", ["name", "option"]⟩

section

variable {V E : Type} [Format V E]

/-- Reads an entry: the name is a text, the option any value, null where it is
absent. -/
def read (v : V) : Except E PluginEntry := do
  let parts ← Format.parts recordType v
  let name := parts.read recordType "name" Format.text
  let option := parts.read recordType "option" fun v => Except.ok (Format.plain v)
  parts.settle (Parts.failure "name" name ++ Parts.failure "option" option)
  let name ← parts.require recordType "name" (← name)
  parts.finish recordType
  return { name, option := (← option).getD .null }

end

/-- The entry that a JSON value spells. -/
def ofJson (v : Json) : Except Mismatch PluginEntry := read v

/-- A list of entries that a JSON value spells. -/
def listOfJson (v : Json) : Except Mismatch (List PluginEntry) := Format.list ofJson v

/-- The entry as data. -/
def toSerial (e : PluginEntry) : Serial :=
  .record [("name", .str e.name), ("option", .plain e.option)]

/-- The entry as a JSON object. -/
def toJson (e : PluginEntry) : Json := .obj [("name", .str e.name), ("option", e.option)]

theorem toJson_toSerial (e : PluginEntry) : e.toSerial.toJson = .ok e.toJson := by
  simp only [toSerial, toJson, Serial.toJson, Serial.fieldsToJson]
  rw [Json.ofFields_eq_obj]
  show ["name", "option"].Pairwise (· < ·)
  decide +kernel

end PluginEntry

end PluginChain
