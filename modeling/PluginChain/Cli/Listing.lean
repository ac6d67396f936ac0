import PluginChain.Cli.Grid
import PluginChain.Cli.Request
import PluginChain.Hook
import PluginChain.Json.Text
set_option autoImplicit false

/-!
# Printed results

The list of plugins as a grid or as JSON text, and a value as JSON text over several
lines or on one.
-/

namespace PluginChain

/-- One plugin of a list, as it is printed. -/
structure PluginRow where
  identifier : String
  name : String
  /-- Where the plugin comes from, in words. -/
  source : String
  hooks : List Hook
  option : Json
  deriving Inhabited

namespace PluginRow

/-- The heads of the columns. -/
def heads : Grid.Row := ["Plugin", "Name", "Source", "Hooks", "Option"].map String.toList

/-- The row as cells. -/
def cells (row : PluginRow) : Grid.Row := [
  row.identifier.toList, row.name.toList, row.source.toList,
  (", ".intercalate (row.hooks.map Hook.name)).toList, Json.compactChars row.option]

/-- The row as an object.  Its members stand in the order of the columns. -/
def toJson (row : PluginRow) : Json :=
  .obj [
    ("identifier", .str row.identifier), ("name", .str row.name), ("source", .str row.source),
    ("hooks", .arr (row.hooks.map fun h => .str h.name)), ("option", row.option)]

/-- A list of plugins as it is printed. -/
def print (rows : List PluginRow) : OutputFormat → String
  | .table =>
    if rows.isEmpty then "No plugins configured.\n" else Grid.text (heads :: rows.map cells)
  | .json => (Json.arr (rows.map toJson)).pretty ++ "\n"

end PluginRow

/-- A value as it is printed. -/
def OutputFormat.print (v : Json) : OutputFormat → String
  | .table => v.pretty ++ "\n"
  | .json => v.compact ++ "\n"

end PluginChain
