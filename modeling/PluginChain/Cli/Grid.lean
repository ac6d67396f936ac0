import PluginChain.Text.Columns
set_option autoImplicit false

/-!
# Grids of text

A grid shows rows of cells in columns, with lines of dashes between all rows.  A
column is as wide as its widest cell, in display columns, and a blank stands on
either side of each cell.
-/

namespace PluginChain.Grid

/-- The cells of one row. -/
abbrev Row := List (List Char)

/-- The greater widths of two lists, column by column. -/
def widest : List Nat → List Nat → List Nat
  | [], ws => ws
  | vs, [] => vs
  | v :: vs, w :: ws => max v w :: widest vs ws

/-- The width of each column. -/
def widths (rows : List Row) : List Nat :=
  rows.foldr (fun row ws => widest (row.map Columns.width) ws) []

/-- The line between two rows. -/
def rule (ws : List Nat) : List Char :=
  '+' :: ws.flatMap fun w => List.replicate (w + 2) '-' ++ ['+']

/-- One row. -/
def line : List Nat → Row → List Char
  | w :: ws, cell :: cells => '|' :: ' ' :: Columns.padRight cell w ++ ' ' :: line ws cells
  | _, _ => ['|']

/-- The lines of a grid. -/
def lines (rows : List Row) : List (List Char) :=
  let ws := widths rows
  rule ws :: rows.flatMap fun row => [line ws row, rule ws]

/-- The grid as a text, each line with its break. -/
def text (rows : List Row) : String :=
  String.ofList ((lines rows).flatMap fun l => l ++ ['\n'])

example : text [["A".toList], ["bc".toList]] = "+----+\n| A  |\n+----+\n| bc |\n+----+\n" := by
  decide +kernel

end PluginChain.Grid
