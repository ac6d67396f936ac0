import PluginChain.Settings.Place
set_option autoImplicit false

/-!
# Settings in the environment

A variable of the environment whose name begins with `docpipe__`, in letters of
either case, is a setting.  The rest of its name is the place, with two underscores
for each point.  Case is folded where that gives a letter of ASCII, as no place holds
any other.

An environment has no order of its own: its list stands for one of those in which its
variables may be laid, which matters where the place of one reaches into that of another.
-/

namespace PluginChain

/-- The variables of an environment by name. -/
abbrev Environment := List (String × String)

namespace Environment

/-- The source of settings from the environment. -/
def origin : String := "the environment"

/-- What the names of settings begin with. -/
def lead : List Char := "docpipe__".toList

/-- The lower case of a character.  Outside ASCII, the sign for kelvin alone has a lower
case in ASCII. -/
def fold (c : Char) : Char := if c.toNat = 0x212a then 'k' else c.toLower

/-- A text with a point for every two underscores. -/
def pointed : List Char → List Char
  | '_' :: '_' :: rest => '.' :: pointed rest
  | c :: rest => c :: pointed rest
  | [] => []

/-- The place that the name of a variable stands for, if it is that of a setting. -/
def place? (name : String) : Option Place :=
  let folded := name.toList.map fold
  if lead.isPrefixOf folded then
    some (Place.ofText (String.ofList (pointed (folded.drop lead.length))))
  else none

/-- The value of a variable. -/
def setting (value : String) : Setting := .scalar (some origin) (.ofText value)

/-- Lays the settings of an environment over others, one variable after the other. -/
def overlay : Environment → Setting → Setting
  | [], s => s
  | (name, value) :: rest, s =>
    match place? name with
    | some place => overlay rest (Place.set place (setting value) s)
    | none => overlay rest s

/-- A variable that is no setting changes nothing. -/
theorem overlay_cons_of_not_setting {name : String} (h : place? name = none) (value : String)
    (rest : Environment) (s : Setting) : overlay ((name, value) :: rest) s = overlay rest s := by
  simp [overlay, h]

example : place? "DOCPIPE__Logging__LEVEL" = some [.key "logging", .key "level"] := by
  decide +kernel

example : place? "DOCPIPE_LOGGING" = none := by decide +kernel

end Environment

end PluginChain
