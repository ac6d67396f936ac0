import PluginChain.Keyed
import PluginChain.Toml.Value
set_option autoImplicit false

/-!
# TOML documents

A document is a list of statements: headers, which open a table or a new element of
an array of tables, and assignments to keys of the table that is open.
`Toml.ofStatements` builds the root table from them.

A table may be opened by a header once, and only if no key with points has led into it;
keys with points lead into tables that have no header of their own, and through the
latest table of an array.  While it is built, a document is a tree of drafts, which know
how each table came about.
-/

namespace PluginChain

/-- How a table came about. -/
inductive TableOrigin where
  /-- Its own header opened it. -/
  | opened
  /-- It stands on the way to a table with a header. -/
  | passed
  /-- A key with points has led into it. -/
  | pointed
  deriving DecidableEq, Repr, Inhabited

/-- A value of a document that is being built.  The tables of an array stand in it
with the latest first. -/
inductive Draft where
  | value (v : Toml)
  | table (origin : TableOrigin) (fields : List (String × Draft))
  | tables (latestFirst : List (List (String × Draft)))
  deriving Inhabited

/-- One statement of a document.  A path is its last key and those before it. -/
inductive TomlStatement where
  /-- Opens a table. -/
  | header (before : List String) (key : String)
  /-- Opens a new table at the end of an array. -/
  | arrayHeader (before : List String) (key : String)
  /-- Gives a key of the open table a value. -/
  | assign (before : List String) (key : String) (v : Toml)
  deriving Inhabited

namespace Draft

/-- The fields of a table that is being built. -/
abbrev Fields := Keyed Draft

/-- Changes the table that the path of a header leads to.  Tables that are missing
are made, and of an array the latest table counts. -/
def inTable (change : Fields → Except TomlProblem Fields) :
    List String → Fields → Except TomlProblem Fields
  | [], fields => change fields
  | key :: rest, fields =>
    let put (make : Fields → Draft) (inner : Fields) : Except TomlProblem Fields :=
      match inTable change rest inner with
      | .ok inner => .ok (Keyed.insert key (make inner) fields)
      | .error p => .error p
    match Keyed.get? key fields with
    | none => put (.table .passed) []
    | some (.table origin inner) => put (.table origin) inner
    | some (.tables (latest :: others)) => put (fun inner => .tables (inner :: others)) latest
    | some _ => .error (.duplicateKey key)

/-- Opens a table under a key. -/
def openTable (key : String) (fields : Fields) : Except TomlProblem Fields :=
  match Keyed.get? key fields with
  | none => .ok (Keyed.insert key (.table .opened []) fields)
  | some (.table .passed inner) => .ok (Keyed.insert key (.table .opened inner) fields)
  | some _ => .error (.duplicateKey key)

/-- Opens a new table in the array under a key. -/
def openInArray (key : String) (fields : Fields) : Except TomlProblem Fields :=
  match Keyed.get? key fields with
  | none => .ok (Keyed.insert key (.tables [[]]) fields)
  | some (.tables latestFirst) => .ok (Keyed.insert key (.tables ([] :: latestFirst)) fields)
  | some _ => .error (.duplicateKey key)

/-- Gives a key a value that it does not have yet. -/
def assignKey (key : String) (v : Toml) (fields : Fields) : Except TomlProblem Fields :=
  if Keyed.contains key fields then .error (.duplicateKey key)
  else .ok (Keyed.insert key (.value v) fields)

/-- Gives a key with points a value.  Of an array the latest table counts, in which the
value itself may not stand. -/
def assign (key : String) (v : Toml) : List String → Fields → Except TomlProblem Fields
  | [], fields => assignKey key v fields
  | first :: rest, fields =>
    let put (make : Fields → Draft) (inner : Fields) : Except TomlProblem Fields :=
      match assign key v rest inner with
      | .ok inner => .ok (Keyed.insert first (make inner) fields)
      | .error p => .error p
    match Keyed.get? first fields with
    | none => put (.table .pointed) []
    | some (.table .pointed inner) => put (.table .pointed) inner
    | some (.table .passed inner) => put (.table .pointed) inner
    | some (.tables (latest :: others)) =>
      if rest.isEmpty then .error (.duplicateKey first)
      else put (fun inner => .tables (inner :: others)) latest
    | some _ => .error (.duplicateKey first)

mutual

/-- The value that a draft has become. -/
def toToml : Draft → Toml
  | .value v => v
  | .table _ fields => .table (toFields fields)
  | .tables latestFirst => .array (toTables latestFirst [])

/-- The fields that drafts have become. -/
def toFields : List (String × Draft) → List (String × Toml)
  | [] => []
  | (key, d) :: rest => (key, toToml d) :: toFields rest

/-- The tables of an array in their order. -/
def toTables : List (List (String × Draft)) → List Toml → List Toml
  | [], later => later
  | fields :: earlier, later => toTables earlier (.table (toFields fields) :: later)

end

/-- Follows statements: the path of the open table, and the root. -/
def follow : List TomlStatement → List String → Fields → Except TomlProblem Fields
  | [], _, root => .ok root
  | .header before key :: rest, _, root =>
    match inTable (openTable key) before root with
    | .ok root => follow rest (before ++ [key]) root
    | .error p => .error p
  | .arrayHeader before key :: rest, _, root =>
    match inTable (openInArray key) before root with
    | .ok root => follow rest (before ++ [key]) root
    | .error p => .error p
  | .assign before key v :: rest, current, root =>
    match inTable (assign key v before) current root with
    | .ok root => follow rest current root
    | .error p => .error p

end Draft

namespace Toml

/-- The fields of the root table that statements describe. -/
def ofStatements (statements : List TomlStatement) :
    Except TomlProblem (List (String × Toml)) :=
  match Draft.follow statements [] [] with
  | .ok root => .ok (Draft.toFields root)
  | .error p => .error p

/-- The table that assignments alone describe, as between braces. -/
def ofAssignments (assignments : List (List String × String × Toml)) :
    Except TomlProblem Toml :=
  match ofStatements (assignments.map fun (before, key, v) => .assign before key v) with
  | .ok fields => .ok (.table fields)
  | .error p => .error p

end Toml

end PluginChain
