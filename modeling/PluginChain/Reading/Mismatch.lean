import PluginChain.Json.Text
import PluginChain.Text.Quoted
set_option autoImplicit false

/-!
# Why a value does not fit a type

A value that does not match what a reader wants is described by what was found
and what was expected.  The wording of each case is in `Mismatch.message`; the
two formats that are read here, JSON and settings, name an absent value and
floats differently, which a `Wording` says.
-/

namespace PluginChain

/-- What a reader found in place of what it wanted. -/
inductive Found where
  | nothing
  | bool (b : Bool)
  | int (n : Int)
  | float (x : Binary64)
  | str (s : String)
  | sequence
  | map
  deriving DecidableEq, Repr, Inhabited

/-- How a format names an absent value and writes a float. -/
structure Wording where
  nothing : String
  float : Binary64 → List Char

namespace Found

/-- What was found, in words. -/
def text (w : Wording) : Found → String
  | .nothing => w.nothing
  | .bool b => "boolean `" ++ (if b then "true" else "false") ++ "`"
  | .int n => "integer `" ++ toString n ++ "`"
  | .float x => "floating point `" ++ String.ofList (w.float x) ++ "`"
  | .str s => "string " ++ Quoted.quote s
  | .sequence => "sequence"
  | .map => "map"

/-- What a JSON value looks like to a reader that wants something else. -/
def ofJson : Json → Found
  | .null => .nothing
  | .bool b => .bool b
  | .int n => .int n
  | .float x => .float x
  | .str s => .str s
  | .arr _ => .sequence
  | .obj _ => .map

end Found

/-- Why a value does not fit a type. -/
inductive Mismatch where
  | invalidType (found : Found) (expected : String)
  | invalidValue (found : Found) (expected : String)
  | invalidLength (length : Nat) (expected : String)
  | missingField (name : String)
  | unknownVariant (name : String) (known : List String)
  | keyNotString
  | floatKeyNotFinite
  | integerOutOfRange
  deriving DecidableEq, Repr, Inhabited

namespace Mismatch

/-- A list of names in words. -/
def oneOf : List String → String
  | [] => "there are no variants"
  | [a] => "expected `" ++ a ++ "`"
  | [a, b] => "expected `" ++ a ++ "` or `" ++ b ++ "`"
  | names => "expected one of " ++ ", ".intercalate (names.map fun n => "`" ++ n ++ "`")

/-- The mismatch in words. -/
def message (w : Wording) : Mismatch → String
  | .invalidType found expected =>
    "invalid type: " ++ found.text w ++ ", expected " ++ expected
  | .invalidValue found expected =>
    "invalid value: " ++ found.text w ++ ", expected " ++ expected
  | .invalidLength length expected =>
    "invalid length " ++ toString length ++ ", expected " ++ expected
  | .missingField name => "missing field `" ++ name ++ "`"
  | .unknownVariant name known => "unknown variant `" ++ name ++ "`, " ++ oneOf known
  | .keyNotString => "key must be a string"
  | .floatKeyNotFinite => "float key must be finite (got NaN or +/-inf)"
  | .integerOutOfRange => "number out of range"

/-- The wording of JSON: an absent value is `null`, a float is written as in JSON
text. -/
def jsonWording : Wording := ⟨"null", Json.floatChars⟩

/-- The mismatch of a JSON value in words. -/
def jsonMessage (m : Mismatch) : String := m.message jsonWording

end Mismatch

end PluginChain
