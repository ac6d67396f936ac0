set_option autoImplicit false

/-!
# Ranges of code points

A property of characters is given by a table of inclusive ranges of code points, or by
several such tables one after the other.
-/

namespace PluginChain.CodeRange

/-- A table of ranges, each with its first and its last code point. -/
abbrev Table := List (Nat × Nat)

/-- Whether one of the ranges holds the number. -/
def holds (table : Table) (n : Nat) : Bool :=
  table.any fun range => range.1 ≤ n && n ≤ range.2

/-- Whether a range of one of the tables holds the number. -/
def anyHolds (tables : List Table) (n : Nat) : Bool :=
  tables.any fun table => holds table n

end PluginChain.CodeRange
