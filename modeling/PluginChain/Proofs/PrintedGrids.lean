import Mathlib.Data.List.Forall2
import PluginChain.Cli.Grid
set_option autoImplicit false

/-!
# Lines of a grid

A grid of rows without line breaks is a text of lines: a rule, and below it for each row a
line that shows the cells of the row, in their order and with blanks behind them, and one
more rule (`Grid.splitOn_text`).
-/

namespace PluginChain.Grid

/-- Whether a line shows the cells of a row: each behind a bar and a blank, with one or more
blanks behind it, and a last bar. -/
inductive Shows : Row → List Char → Prop
  | nil : Shows [] ['|']
  | cons {cell : List Char} {cells : Row} {rest : List Char} (blanks : Nat)
      (h : Shows cells rest) :
      Shows (cell :: cells) ('|' :: ' ' :: cell ++ List.replicate (blanks + 1) ' ' ++ rest)

/-! ## Widths -/

theorem length_widest (vs ws : List Nat) : (widest vs ws).length = max vs.length ws.length := by
  fun_induction widest vs ws with
  | case1 ws => simp
  | case2 vs => simp
  | case3 v vs w ws ih =>
    simp only [List.length_cons, ih]
    omega

/-- There is a width for each cell of each row. -/
theorem length_le_widths {rows : List Row} {row : Row} (h : row ∈ rows) :
    row.length ≤ (widths rows).length := by
  induction rows with
  | nil => cases h
  | cons first rest ih =>
    have hlength : (widths (first :: rest)).length = max first.length (widths rest).length := by
      rw [widths, List.foldr_cons, length_widest, List.length_map]
      rfl
    rw [hlength]
    rcases List.mem_cons.mp h with rfl | h
    · exact Nat.le_max_left _ _
    · exact Nat.le_trans (ih h) (Nat.le_max_right _ _)

/-! ## Lines -/

/-- A line with a width for each cell shows its row. -/
theorem shows_line {ws : List Nat} {row : Row} (h : row.length ≤ ws.length) :
    Shows row (line ws row) := by
  induction row generalizing ws with
  | nil =>
    cases ws <;> exact .nil
  | cons cell cells ih =>
    cases ws with
    | nil => exact absurd h (by simp)
    | cons w ws =>
      have hline : line (w :: ws) (cell :: cells) =
          '|' :: ' ' :: cell ++ List.replicate (w - Columns.width cell + 1) ' ' ++
            line ws cells := by
        rw [line, Columns.padRight, List.replicate_succ']
        simp
      rw [hline]
      exact .cons _ (ih (by simpa using h))

/-- A line breaks nowhere, if none of its cells does. -/
theorem newline_not_mem_of_shows {row : Row} {shown : List Char} (h : Shows row shown)
    (hcells : ∀ cell ∈ row, '\n' ∉ cell) : '\n' ∉ shown := by
  induction h with
  | nil => decide
  | cons blanks h ih =>
    obtain ⟨hcell, hcells⟩ := List.forall_mem_cons.mp hcells
    simp [hcell, ih hcells]

theorem newline_not_mem_rule (ws : List Nat) : '\n' ∉ rule ws := by
  simp [rule]

/-- The lines of a text whose lines are each ended by a line feed. -/
theorem splitOn_lines {lines : List (List Char)} (h : ∀ l ∈ lines, '\n' ∉ l) :
    (lines.flatMap fun l => l ++ ['\n']).splitOn '\n' = lines ++ [[]] := by
  have hjoined : (lines.flatMap fun l => l ++ ['\n']) = ['\n'].intercalate (lines ++ [[]]) := by
    clear h
    induction lines with
    | nil => rfl
    | cons l lines ih =>
      rw [List.flatMap_cons, ih]
      cases lines <;> simp [List.intercalate]
  rw [hjoined, List.splitOn_intercalate]
  · intro l hl
    rcases List.mem_append.mp hl with hl | hl
    · exact h l hl
    · rw [List.mem_singleton.mp hl]
      exact List.not_mem_nil
  · simp

/-- The lines of a grid: a rule, and for each row the line that shows it and one more rule. -/
theorem splitOn_text {rows : List Row} (h : ∀ row ∈ rows, ∀ cell ∈ row, '\n' ∉ cell) :
    ∃ bar shown, List.Forall₂ Shows rows shown ∧
      (text rows).toList.splitOn '\n' = (bar :: shown.flatMap fun l => [l, bar]) ++ [[]] := by
  have hshows : ∀ row ∈ rows, Shows row (line (widths rows) row) :=
    fun row hrow => shows_line (length_le_widths hrow)
  refine ⟨rule (widths rows), rows.map (line (widths rows)), ?_, ?_⟩
  · exact List.forall₂_map_right_iff.mpr (List.forall₂_same.mpr hshows)
  · have hlines : lines rows = rule (widths rows) ::
        (rows.map (line (widths rows))).flatMap fun l => [l, rule (widths rows)] := by
      rw [lines, List.flatMap_map]
    rw [text, String.toList_ofList, ← hlines]
    apply splitOn_lines
    intro l hl
    rw [lines] at hl
    rcases List.mem_cons.mp hl with rfl | hl
    · exact newline_not_mem_rule _
    · obtain ⟨row, hrow, hl⟩ := List.mem_flatMap.mp hl
      rcases List.mem_pair.mp hl with rfl | rfl
      · exact newline_not_mem_of_shows (hshows row hrow) (h row hrow)
      · exact newline_not_mem_rule _

end PluginChain.Grid
