import PluginChain.Reading.Format
set_option autoImplicit false

/-!
# Reading JSON values

JSON is read strictly: a text is only a string, an explicit null is no missing
field, and a list longer than its record is refused.  A failure carries no place,
only the mismatch.

The readers of this module are for values that are no records: truth values,
lists of texts, optional parts and enumerations, whose member is a name or an
object with that name over a null.
-/

namespace PluginChain.Json

instance : Format Json Mismatch where
  mismatch _ m := m
  lacking m := m
  surplus n := some (.invalidLength n "fewer elements in array")
  inField _ m := m
  inItem _ m := m
  found := Found.ofJson
  text
    | .str s => .ok s
    | v => .error (.invalidType (Found.ofJson v) "a string")
  items?
    | .arr items => some items
    | _ => none
  members?
    | .obj fields => some fields
    | _ => none
  plain v := v

/-- A truth value. -/
def readBool : Json → Except Mismatch Bool
  | .bool b => .ok b
  | v => .error (.invalidType (Found.ofJson v) "a boolean")

/-- A text. -/
def readText (v : Json) : Except Mismatch String := Format.text v

/-- A list of texts. -/
def readTexts (v : Json) : Except Mismatch (List String) := Format.list readText v

/-- A path, or nothing where the value is null. -/
def readPath? : Json → Except Mismatch (Option String)
  | .null => .ok none
  | .str s => .ok (some s)
  | v => .error (.invalidType (Found.ofJson v) "path string")

/-- A list of values of any kind. -/
def readList (v : Json) : Except Mismatch (List Json) := Format.list .ok v

/-- A member of an enumeration, given as the pairs of its names and members. -/
def readMember {α : Type} (members : List (String × α)) (v : Json) : Except Mismatch α :=
  let named (name : String) : Except Mismatch α :=
    match Keyed.get? name members with
    | some a => .ok a
    | none => .error (.unknownVariant name (members.map (·.1)))
  match v with
  | .str name => named name
  | .obj [(name, content)] =>
    match named name with
    | .error e => .error e
    | .ok a =>
      match content with
      | .null => .ok a
      | other => .error (.invalidType (Found.ofJson other) "unit")
  | .obj _ => .error (.invalidValue .map "map with a single key")
  | other => .error (.invalidType (Found.ofJson other) "string or map")

end PluginChain.Json
