import PluginChain.Reading.Format
import PluginChain.Settings.Setting
set_option autoImplicit false

/-!
# Reading settings

Settings are read leniently: a truth value or a number stands for its text where a
text is wanted, and a list may have more elements than its record.  A failure knows
the place of the setting, and where a text was wanted also its source.
-/

namespace PluginChain

/-- Why settings do not fit a type. -/
inductive SettingFailure where
  /-- A setting does not fit. -/
  | unfit (m : Mismatch) (place : String) (origin? : Option String)
  /-- A setting is missing. -/
  | missing (place : String)
  deriving DecidableEq, Repr, Inhabited

namespace SettingFailure

/-- A float in words, with a point always. -/
def floatWords (x : Binary64) : List Char :=
  let s := Numeral.plain x
  if x.isFinite && !s.contains '.' then s ++ ['.', '0'] else s

/-- The wording of settings: an absent value is a unit. -/
def wording : Wording := ⟨"unit value", floatWords⟩

/-- The failure in words. -/
def message : SettingFailure → String
  | .missing place => "missing configuration field " ++ Quoted.quote place
  | .unfit m place origin? =>
    m.message wording ++ (if place = "" then "" else " for key `" ++ place ++ "`")
      ++ match origin? with
        | some origin => " in " ++ origin
        | none => ""

/-- A place inside a field: a point stands between two names, and none before an
index. -/
def placeInField (field place : String) : String :=
  if place = "" ∨ place.toList.head? = some '[' then field ++ place else field ++ "." ++ place

/-- A place inside an element of a list. -/
def placeInItem (i : Nat) (place : String) : String := "[" ++ toString i ++ "]" ++ place

/-- The failure with another place. -/
def moved (move : String → String) : SettingFailure → SettingFailure
  | .unfit m place origin? => .unfit m (move place) origin?
  | .missing place => .missing (move place)

example : placeInField "plugins" (placeInItem 0 "name") = "plugins[0]name" := by decide +kernel

end SettingFailure

namespace Setting

/-- What a setting looks like to a reader that wants something else. -/
def found : Setting → Found
  | .scalar _ .nothing => .nothing
  | .scalar _ (.bool b) => .bool b
  | .scalar _ (.int n) => .int n
  | .scalar _ (.float x) => .float x
  | .scalar _ (.str s) => .str s
  | .list _ _ => .sequence
  | .table _ _ => .map

/-- The text that a setting stands for. -/
def text (s : Setting) : Except SettingFailure String :=
  let unfit := Except.error (.unfit (.invalidType s.found "a string") "" s.origin?)
  match s with
  | .scalar _ v =>
    match v.text? with
    | some t => .ok t
    | none => unfit
  | _ => unfit

instance : Format Setting SettingFailure where
  mismatch _ m := .unfit m "" none
  lacking
    | .missingField name => .missing name
    | m => .unfit m "" none
  surplus _ := none
  inField field := SettingFailure.moved (SettingFailure.placeInField field)
  inItem i := SettingFailure.moved (SettingFailure.placeInItem i)
  found := found
  text := text
  items?
    | .list _ items => some items
    | _ => none
  members?
    | .table _ fields => some fields
    | _ => none
  plain := toJson

end Setting

end PluginChain
