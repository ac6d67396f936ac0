import PluginChain.Json.Text
import PluginChain.Text.Quoted
set_option autoImplicit false

/-!
# JSON values for a developer

A description that names the kind of every value and quotes its texts.
-/

namespace PluginChain.Json

mutual

/-- The description of a value. -/
def describe : Json → String
  | .null => "Null"
  | .bool b => "Bool(" ++ (if b then "true" else "false") ++ ")"
  | .int n => "Number(" ++ toString n ++ ")"
  | .float x => "Number(" ++ String.ofList (floatChars x) ++ ")"
  | .str s => "String(" ++ Quoted.quote s ++ ")"
  | .arr items => "Array [" ++ ", ".intercalate (describeItems items) ++ "]"
  | .obj fields => "Object \x7b" ++ ", ".intercalate (describeFields fields) ++ "\x7d"

/-- The descriptions of elements. -/
def describeItems : List Json → List String
  | [] => []
  | v :: rest => describe v :: describeItems rest

/-- The descriptions of members. -/
def describeFields : List (String × Json) → List String
  | [] => []
  | (k, v) :: rest => (Quoted.quote k ++ ": " ++ describe v) :: describeFields rest

end

end PluginChain.Json
