import PluginChain.Cli.Listing
import PluginChain.Proofs.PrintedGrids
import PluginChain.Proofs.SpelledTexts
set_option autoImplicit false

/-!
# Printed values and plugin lists

What is printed can be read.  A value is printed as a JSON text that spells it, in either
format (`OutputFormat.spelled?_print`).  A list of plugins is printed as a JSON list of its
rows, or as a grid with a line for each row that shows the row's texts and a JSON text for
its option (`PluginRow.shown_print`).
-/

namespace PluginChain

/-! ## One line -/

namespace Json

open Spelling (isWordChar)

theorem newline_not_mem_of_word {s : List Char} (h : ∀ c ∈ s, isWordChar c = true) : '\n' ∉ s := by
  intro hmem
  have hword := h _ hmem
  cases hword

theorem newline_not_mem_escapeChar (c : Char) : '\n' ∉ escapeChar c := by
  have hdigit : ∀ n < 32, '\n' ≠ hexDigit (n / 16) ∧ '\n' ≠ hexDigit (n % 16) := by decide
  unfold escapeChar
  split_ifs with hquote hbackslash hb ht hn hf hr hcontrol
  · decide
  · decide
  · decide
  · decide
  · decide
  · decide
  · decide
  · obtain ⟨hhigh, hlow⟩ := hdigit _ hcontrol
    simp [hhigh, hlow]
  · simpa using Ne.symm hn

theorem newline_not_mem_quoteChars (s : String) : '\n' ∉ quoteChars s := by
  simp [quoteChars, newline_not_mem_escapeChar]

theorem newline_not_mem_joined {α : Type} {text : α → List Char} {things : List α}
    (h : ∀ a ∈ things, '\n' ∉ text a) : '\n' ∉ joined text things := by
  induction things with
  | nil => exact List.not_mem_nil
  | cons a rest ih =>
    obtain ⟨ha, hrest⟩ := List.forall_mem_cons.mp h
    cases rest with
    | nil => exact ha
    | cons b rest => simp [joined, ha, ih hrest]

/-- The text of a value without blanks is one line. -/
theorem newline_not_mem_compactChars {v : Json} (h : v.Finite) : '\n' ∉ v.compactChars := by
  induction h with
  | null =>
    rw [compactChars]
    decide
  | bool b =>
    rw [compactChars]
    cases b <;> decide
  | int n =>
    rw [compactChars]
    exact newline_not_mem_of_word (Spelling.isWordChar_intChars n)
  | float h =>
    rw [compactChars]
    exact newline_not_mem_of_word (Spelling.isWordChar_floatChars h)
  | str s =>
    rw [compactChars]
    exact newline_not_mem_quoteChars s
  | arr h ih =>
    rw [compactChars, compactItems_eq]
    simp [newline_not_mem_joined ih]
  | @obj fields h ih =>
    have hfields : '\n' ∉ joined (fun p => quoteChars p.1 ++ ':' :: compactChars p.2) fields :=
      newline_not_mem_joined fun p hp => by simp [newline_not_mem_quoteChars, ih p hp]
    rw [compactChars, compactFields_eq]
    simp [hfields]

end Json

/-! ## Values -/

/-- A printed value spells the value, in either format. -/
theorem OutputFormat.spelled?_print {v : Json} (h : v.Finite) (format : OutputFormat) :
    Json.spelled? (format.print v) = some v := by
  cases format with
  | table => exact Json.spelled?_pretty_line h
  | json => exact Json.spelled?_compact_line h

namespace PluginRow

/-- Whether a line shows a row: the identifier, the name, the source and the hooks as they
are, and the option as a JSON text that spells it. -/
def ShownBy (row : PluginRow) (line : List Char) : Prop :=
  ∃ option, Grid.Shows [row.identifier.toList, row.name.toList, row.source.toList,
    (", ".intercalate (row.hooks.map Hook.name)).toList, option] line ∧
      Json.spelled? (String.ofList option) = some row.option

/-- Whether a text shows a list of plugins.  As JSON it is a list with an object for each
row.  As a table it is lines: a rule, the heads, one more rule, and for each row a line that
shows it and a rule; a list without rows is told in words. -/
def Shown (rows : List PluginRow) (output : String) : OutputFormat → Prop
  | .json => Json.spelled? output = some (.arr (rows.map toJson))
  | .table =>
    if rows = [] then output = "No plugins configured.\n"
    else ∃ bar head lines, Grid.Shows heads head ∧ List.Forall₂ ShownBy rows lines ∧
      output.toList.splitOn '\n' =
        (bar :: (head :: lines).flatMap fun l => [l, bar]) ++ [[]]

/-- Whether the texts of a row fit on one line, and its option can be printed. -/
structure Printable (row : PluginRow) : Prop where
  identifier : '\n' ∉ row.identifier.toList
  name : '\n' ∉ row.name.toList
  source : '\n' ∉ row.source.toList
  option : row.option.Finite

theorem finite_toJson {row : PluginRow} (h : row.option.Finite) : row.toJson.Finite := by
  have hhooks : ∀ v ∈ row.hooks.map fun h => Json.str h.name, v.Finite := by
    intro v hv
    obtain ⟨hook, -, rfl⟩ := List.mem_map.mp hv
    exact .str _
  refine .obj ?_
  simp only [List.forall_mem_cons]
  exact ⟨.str _, .str _, .str _, .arr hhooks, h, List.forall_mem_nil _⟩

theorem newline_not_mem_hooks (hooks : List Hook) :
    '\n' ∉ (", ".intercalate (hooks.map Hook.name)).toList := by
  have hname (hook : Hook) : '\n' ∉ hook.name.toList := by cases hook <;> decide
  induction hooks with
  | nil => decide
  | cons first rest ih =>
    cases rest with
    | nil => simpa using hname first
    | cons second rest =>
      rw [List.map_cons, List.map_cons, String.intercalate_cons_cons, ← List.map_cons]
      simp only [String.toList_append, List.mem_append, not_or]
      exact ⟨⟨hname first, by decide⟩, ih⟩

theorem newline_not_mem_cells {row : PluginRow} (h : row.Printable) :
    ∀ cell ∈ row.cells, '\n' ∉ cell := by
  unfold cells
  simp only [List.forall_mem_cons]
  exact ⟨h.identifier, h.name, h.source, newline_not_mem_hooks _,
    Json.newline_not_mem_compactChars h.option, List.forall_mem_nil _⟩

/-- A printed list of plugins shows the list, in either format. -/
theorem shown_print {rows : List PluginRow} (h : ∀ row ∈ rows, row.Printable)
    (format : OutputFormat) : Shown rows (print rows format) format := by
  cases format with
  | json =>
    refine Json.spelled?_pretty_line (.arr ?_)
    intro v hv
    obtain ⟨row, hrow, rfl⟩ := List.mem_map.mp hv
    exact finite_toJson (h row hrow).option
  | table =>
    by_cases hempty : rows = []
    · subst hempty
      rfl
    · have hcells : ∀ texts ∈ heads :: rows.map cells, ∀ cell ∈ texts, '\n' ∉ cell := by
        refine List.forall_mem_cons.mpr ⟨by decide, fun c hc => ?_⟩
        obtain ⟨row, hrow, rfl⟩ := List.mem_map.mp hc
        exact newline_not_mem_cells (h row hrow)
      obtain ⟨bar, shown, hshown, hlines⟩ := Grid.splitOn_text hcells
      have hprint : print rows .table = Grid.text (heads :: rows.map cells) := by
        rw [print, if_neg (by simpa using hempty)]
      rw [hprint, Shown, if_neg hempty]
      cases hshown with
      | @cons _ head _ lines hhead hshown =>
        refine ⟨bar, head, lines, hhead, ?_, hlines⟩
        have hrows := List.forall₂_map_left_iff.mp hshown
        refine (List.forall₂_iff_zip.mpr ⟨hrows.length_eq, fun {row line} hmem => ?_⟩)
        obtain ⟨-, hzip⟩ := List.forall₂_iff_zip.mp hrows
        exact ⟨_, hzip hmem, Json.spelled?_compact (h row (List.of_mem_zip hmem).1).option⟩

end PluginRow

end PluginChain
