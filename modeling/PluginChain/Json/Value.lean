import PluginChain.Keyed
import PluginChain.Number.Binary64
set_option autoImplicit false

/-!
# JSON values

A number is an integer or a double-precision float, and the two are different
values even where they are numerically equal.  The members of an object stand in
increasing order of their names.  `Json.same` is the equality of values; it
compares floats by value, so the two zeros are the same.
-/

namespace PluginChain

/-- A JSON value.  Integers lie in `-2 ^ 63 .. 2 ^ 64 - 1` and floats are finite
wherever a value was read from text or built from data. -/
inductive Json where
  | null
  | bool (b : Bool)
  | int (n : Int)
  | float (x : Binary64)
  | str (s : String)
  | arr (items : List Json)
  | obj (fields : List (String × Json))
  deriving Inhabited, Repr

namespace Json

mutual

/-- Equality of values. -/
def same : Json → Json → Bool
  | .null, .null => true
  | .bool a, .bool b => a == b
  | .int m, .int n => m == n
  | .float x, .float y => x.equal y
  | .str s, .str t => s == t
  | .arr xs, .arr ys => sameItems xs ys
  | .obj fs, .obj gs => sameFields fs gs
  | _, _ => false

/-- Equality of lists of values. -/
def sameItems : List Json → List Json → Bool
  | [], [] => true
  | x :: xs, y :: ys => same x y && sameItems xs ys
  | _, _ => false

/-- Equality of lists of members. -/
def sameFields : List (String × Json) → List (String × Json) → Bool
  | [], [] => true
  | (k, x) :: fs, (l, y) :: gs => k == l && same x y && sameFields fs gs
  | _, _ => false

end

instance : BEq Json where
  beq := same

/-- The least and the greatest integer that is a JSON number. -/
def minInt : Int := -9223372036854775808

/-- The greatest integer that is a JSON number. -/
def maxInt : Int := 18446744073709551615

/-- The object with the given members: of two with one name the later counts. -/
def ofFields (fields : List (String × Json)) : Json := .obj (Keyed.ofList fields)

/-- The member of an object under a name. -/
def get? (name : String) : Json → Option Json
  | .obj fields => Keyed.get? name fields
  | _ => none

/-- The text of a string. -/
def asString? : Json → Option String
  | .str s => some s
  | _ => none

/-- Whether the value is null. -/
def isNull : Json → Bool
  | .null => true
  | _ => false

/-- Members in order make up an object as they stand. -/
theorem ofFields_eq_obj {fields : List (String × Json)}
    (h : (Keyed.keys fields).Pairwise (· < ·)) : ofFields fields = .obj fields := by
  rw [ofFields, Keyed.ofList_eq_self h]

@[simp] theorem get?_obj (name : String) (fields : List (String × Json)) :
    get? name (.obj fields) = Keyed.get? name fields := rfl

theorem isNull_iff {v : Json} : v.isNull = true ↔ v = .null := by
  cases v <;> simp [isNull]

end Json

end PluginChain
