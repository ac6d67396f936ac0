import PluginChain.Number.Numeral
import PluginChain.Json.Value
set_option autoImplicit false

/-!
# Single settings

A single value as it stands in a settings file or in a variable of the
environment.  `Scalar.ofText` says what a variable stands for, and `Scalar.text?`
how a value is written where a text is wanted.
-/

namespace PluginChain

/-- A value that holds no others. -/
inductive Scalar where
  | nothing
  | bool (b : Bool)
  | int (n : Int)
  | float (x : Binary64)
  | str (s : String)
  deriving DecidableEq, Repr, Inhabited

namespace Scalar

/-- The truth value that a text spells, in letters of either case. -/
def bool? (s : String) : Option Bool :=
  let word := String.ofList (s.toList.map Char.toLower)
  if word = "true" then some true else if word = "false" then some false else none

/-- The value that a text stands for: a truth value, an integer of 64 bits, a
number, or the text itself, the first of these that it can be. -/
def ofText (s : String) : Scalar :=
  match bool? s with
  | some b => .bool b
  | none =>
    match Numeral.int64? s.toList with
    | some n => .int n
    | none =>
      match Numeral.float? s.toList with
      | some x => .float x
      | none => .str s

/-- The value as a text; an absent value has none. -/
def text? : Scalar → Option String
  | .nothing => none
  | .bool b => some (if b then "true" else "false")
  | .int n => some (String.ofList (Numeral.plainInt n))
  | .float x => some (String.ofList (Numeral.plain x))
  | .str s => some s

/-- The value in plain JSON form.  Numbers that are not finite become null. -/
def toJson : Scalar → Json
  | .nothing => .null
  | .bool b => .bool b
  | .int n => .int n
  | .float x => if x.isFinite then .float x else .null
  | .str s => .str s

@[simp] theorem text?_str (s : String) : text? (.str s) = some s := rfl

end Scalar

end PluginChain
