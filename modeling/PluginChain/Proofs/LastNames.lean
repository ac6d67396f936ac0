import PluginChain.Proofs.Ways
set_option autoImplicit false

/-!
# The last name in a path

A path ends in a name if the last of its moves is one.  Slashes and points at its end make no
difference to that, as they are no moves.  `Path.fileName?` finds this name and none else
(`Path.fileName?_eq_lastName?`).
-/

namespace PluginChain.Path

/-- The last segment of a path that says something, unless it leads upwards. -/
def lastName? (p : String) : Option String := (moves p).getLast?.filter fun m => m ≠ ".."

variable {p name : String}

theorem lastName?_eq_some_iff :
    lastName? p = some name ↔ (moves p).getLast? = some name ∧ name ≠ ".." := by
  simp [lastName?, Option.filter_eq_some_iff]

/-- A path has no last name if it says nothing, or ends upwards. -/
theorem lastName?_eq_none_iff :
    lastName? p = none ↔ moves p = [] ∨ (moves p).getLast? = some ".." := by
  rw [← List.getLast?_eq_none_iff, lastName?]
  cases (moves p).getLast? with
  | none => simp
  | some last => simp

/-- The last name is a name. -/
theorem isName_of_lastName? (h : lastName? p = some name) : IsName name := by
  obtain ⟨hlast, hup⟩ := lastName?_eq_some_iff.mp h
  obtain ⟨hmem, hspeaks⟩ := List.mem_filter.mp (List.mem_of_getLast? hlast)
  exact isName_of_mem_allSegments hmem (by simpa using hspeaks) hup

/-- A text ends in the last segment that says something, unless that leads upwards. -/
theorem fileNameOf?_eq (s : List Char) :
    fileNameOf? s = (movesOf s).getLast?.filter fun seg => seg ≠ ['.', '.'] := by
  rcases trim_cases s with htrim | ⟨front, last, htrim⟩
  · rw [movesOf_eq_nil_of_trim htrim, fileNameOf?, htrim]
    rfl
  · rw [fileNameOf?_of_trim htrim, movesOf_eq_of_trim htrim, List.getLast?_concat]
    split_ifs with hup <;> simp [Option.filter, hup]

/-- What is found as the name of a file is the last name. -/
theorem fileName?_eq_lastName? (p : String) : fileName? p = lastName? p := by
  rw [fileName?, fileNameOf?_eq, lastName?, moves_eq, List.getLast?_map]
  cases (movesOf p.toList).getLast? with
  | none => rfl
  | some seg =>
    have hup : String.ofList seg = ".." ↔ seg = ['.', '.'] := by
      rw [← String.toList_inj, String.toList_ofList]
      rfl
    by_cases hseg : seg = ['.', '.'] <;> simp [Option.filter, hup, hseg]

example : lastName? "docs//img/./" = some "img" ∧ lastName? "docs/.." = none := by
  decide +kernel

end PluginChain.Path
