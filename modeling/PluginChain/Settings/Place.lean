import PluginChain.Settings.Setting
set_option autoImplicit false

/-!
# Places in settings

A place names a setting by keys and list indexes, as in `a.b[0].c`.  `Place.ofText?`
reads such a text, and `Place.set` lays a setting over what stands at a place; what
is missing on the way is made, and what stands in the way is replaced.
-/

namespace PluginChain

/-- One step from a setting to one inside it. -/
inductive PlaceStep where
  | key (name : String)
  /-- An index, from the end of the list where it is negative. -/
  | index (i : Int)
  deriving DecidableEq, Repr, Inhabited

/-- The way from the root to a setting. -/
abbrev Place := List PlaceStep

namespace Place

/-! ## Reading -/

/-- Whether a character can stand in a key. -/
def isKeyChar (c : Char) : Bool := c.isAlphanum || c = '_' || c = '-'

/-- Whether a character may stand around an index. -/
def isBlank (c : Char) : Bool := c = ' ' || c = '\t'

/-- The index that a text spells: digits, and a minus sign in front of them, with blanks
around both. -/
def index? (s : List Char) : Option Int :=
  let s := ((s.dropWhile isBlank).reverse.dropWhile isBlank).reverse
  if s.head? = some '+' then none else Numeral.int64? s

/-- Where a reader stands: inside a key or an index, of which it has read some
characters, the last first, or behind an index. -/
inductive Reading where
  | key (read : List Char)
  | index (read : List Char)
  | behind
  deriving Repr, Inhabited

/-- The steps that the rest of a text spells. -/
def readFrom : Reading → List Char → Option Place
  | .key read, [] => if read.isEmpty then none else some [.key (String.ofList read.reverse)]
  | .key read, c :: cs =>
    if isKeyChar c then readFrom (.key (c :: read)) cs
    else if read.isEmpty then none
    else
      let step := PlaceStep.key (String.ofList read.reverse)
      if c = '.' then (readFrom (.key []) cs).map (step :: ·)
      else if c = '[' then (readFrom (.index []) cs).map (step :: ·)
      else none
  | .index _, [] => none
  | .index read, c :: cs =>
    if c = ']' then
      match index? read.reverse with
      | some i => (readFrom .behind cs).map (.index i :: ·)
      | none => none
    else readFrom (.index (c :: read)) cs
  | .behind, [] => some []
  | .behind, c :: cs =>
    if c = '.' then readFrom (.key []) cs
    else if c = '[' then readFrom (.index []) cs
    else none

/-- The place that a text spells, if it spells one. -/
def ofText? (s : String) : Option Place := readFrom (.key []) s.toList

/-- The place that a text stands for: the one that it spells, or else the whole text
as a key of the root. -/
def ofText (s : String) : Place := (ofText? s).getD [.key s]

/-! ## Setting -/

/-- A list in which an index counts, grown as need be, and the position that it
counts. -/
def reach (i : Int) (items : List Setting) : List Setting × Nat :=
  if 0 ≤ i then
    (items ++ List.replicate (i.toNat + 1 - items.length) Setting.nothing, i.toNat)
  else if i.natAbs ≤ items.length then (items, items.length - i.natAbs)
  else (List.replicate (i.natAbs - items.length) Setting.nothing ++ items, 0)

/-- Lays a setting over what stands at a place. -/
def set : Place → Setting → Setting → Setting
  | [], new, old => new.overlay old
  | .key name :: rest, new, old => old.withField name (set rest new (old.get name))
  | .index i :: rest, new, old =>
    let (items, position) := reach i old.items
    .list old.listOrigin? (items.modify position (set rest new))

/-- A place of one key sets that key. -/
theorem set_key (name : String) (new old : Setting) :
    set [.key name] new old = old.withField name (new.overlay (old.get name)) := rfl

example : ofText? "a.b[-1].c" = some [.key "a", .key "b", .index (-1), .key "c"] := by
  decide +kernel

example : ofText? "a[ 0 ]" = some [.key "a", .index 0] := by decide +kernel

example : ofText? "a b" = none := by decide +kernel

end Place

end PluginChain
