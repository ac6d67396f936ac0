import PluginChain.Reading.Mismatch
set_option autoImplicit false

/-!
# Records in a format

The same records are read from JSON values and from settings.  `Format` says
what a reader needs of either: texts, lists, free values, and the parts of a
record.  A record may be spelled with named fields, in any order and with unknown
names ignored, or as a list of its fields in the order of their declaration.

`Parts` gives both spellings one face.  It reads fields in the order in which the
spelling offers them (by name, or by position), so that of several bad fields the
first in that order is reported; a field that is absent is reported only after
all that are present have been read.
-/

namespace PluginChain

/-- The name of a record type and its fields in the order of declaration. -/
structure RecordType where
  name : String
  fields : List String
  deriving DecidableEq, Repr, Inhabited

namespace RecordType

/-- What a reader of the record expects. -/
def expected (t : RecordType) : String := "struct " ++ t.name

/-- What a reader of the record expects of its length. -/
def expectedLength (t : RecordType) : String :=
  t.expected ++ " with " ++ toString t.fields.length ++
    (if t.fields.length = 1 then " element" else " elements")

end RecordType

/-- The two spellings of a record. -/
inductive Parts (V : Type) where
  | named (fields : List (String × V))
  | listed (items : List V)
  deriving Inhabited

/-- Values of type `V` that can be read, with failures of type `E`. -/
class Format (V : Type) (E : outParam Type) where
  /-- The failure for a value that does not fit. -/
  mismatch : V → Mismatch → E
  /-- The failure for a record that lacks a part. -/
  lacking : Mismatch → E
  /-- The failure for a list with more elements than the record has fields, of
  this length. -/
  surplus : Nat → Option E
  /-- A failure met inside the field of a record. -/
  inField : String → E → E
  /-- A failure met inside an element of a list. -/
  inItem : Nat → E → E
  /-- What the value looks like to a reader that wants something else. -/
  found : V → Found
  /-- The text that a value stands for. -/
  text : V → Except E String
  /-- The elements of a list. -/
  items? : V → Option (List V)
  /-- The members of a table. -/
  members? : V → Option (List (String × V))
  /-- The value in plain JSON form. -/
  plain : V → Json

namespace Format

variable {V E : Type} [Format V E]

/-- The parts of a record. -/
def parts (t : RecordType) (v : V) : Except E (Parts V) :=
  match members? v with
  | some fields => .ok (.named fields)
  | none =>
    match items? v with
    | some items => .ok (.listed items)
    | none => .error (mismatch v (.invalidType (found v) t.expected))

/-- Reads the elements of a list from a position on. -/
def readItems {α : Type} (read : V → Except E α) : Nat → List V → Except E (List α)
  | _, [] => .ok []
  | i, v :: rest =>
    match read v with
    | .error e => .error (inItem V i e)
    | .ok a =>
      match readItems read (i + 1) rest with
      | .error e => .error e
      | .ok l => .ok (a :: l)

/-- A list of values of one kind. -/
def list {α : Type} (read : V → Except E α) (v : V) : Except E (List α) :=
  match items? v with
  | some items => readItems read 0 items
  | none => .error (mismatch v (.invalidType (found v) "a sequence"))

end Format

namespace Parts

variable {V E : Type} [Format V E] {α : Type}

/-- The value of a field, found by its name or by its position. -/
def get? (t : RecordType) (field : String) : Parts V → Option V
  | .named fields => Keyed.get? field fields
  | .listed items => items[t.fields.idxOf field]?

/-- Reads a field, if it is there. -/
def read (t : RecordType) (p : Parts V) (field : String) (reader : V → Except E α) :
    Except E (Option α) :=
  match p.get? t field with
  | none => .ok none
  | some v =>
    match reader v with
    | .ok a => .ok (some a)
    | .error e => .error (Format.inField V field e)

/-- The failure of a reading, under the name of its field. -/
def failure (field : String) (result : Except E α) : List (String × E) :=
  match result with
  | .ok _ => []
  | .error e => [(field, e)]

/-- The failure under the least name, of two with one name the first. -/
def leastNamed : List (String × E) → Option (String × E)
  | [] => none
  | p :: rest =>
    match leastNamed rest with
    | some q => if q.1 < p.1 then some q else some p
    | none => some p

/-- Reports the failure that the spelling meets first, if there is one.  The
failures are given in the order of declaration. -/
def settle (p : Parts V) (failures : List (String × E)) : Except E Unit :=
  let first := match p with
    | .named _ => leastNamed failures
    | .listed _ => failures.head?
  match first with
  | some (_, e) => .error e
  | none => .ok ()

/-- A field that has no default. -/
def require (t : RecordType) (p : Parts V) (field : String) : Option α → Except E α
  | some a => .ok a
  | none =>
    match p with
    | .named _ => .error (Format.lacking V (.missingField field))
    | .listed items => .error (Format.lacking V (.invalidLength items.length t.expectedLength))

/-- Refuses a list with more elements than the record has fields, where the format
does. -/
def finish (t : RecordType) : Parts V → Except E Unit
  | .named _ => .ok ()
  | .listed items =>
    if t.fields.length < items.length then
      match Format.surplus V items.length with
      | some e => .error e
      | none => .ok ()
    else .ok ()

end Parts

end PluginChain
