import PluginChain.Toml.Document
import PluginChain.Toml.Scalar
import PluginChain.Toml.Text
set_option autoImplicit false

/-!
# Reading TOML

`Toml.parse` reads a document line by line into statements and builds its root table
from them.  Arrays and tables between brackets and braces may stretch over lines,
with comments in them, and may end in a comma.
-/

namespace PluginChain.Toml

/-! ## Blanks and comments -/

/-- The text behind blanks. -/
def skipBlanks (s : List Char) : List Char := s.dropWhile isBlank

/-- The text behind a comment, if there is one here. -/
def skipComment (s : List Char) : List Char :=
  match s with
  | '#' :: rest => rest.dropWhile isPlain
  | _ => s

/-- The text behind the rest of a line, which holds blanks and a comment at most. -/
def endLine (s : List Char) : Except TomlProblem (List Char) :=
  match skipComment (skipBlanks s) with
  | [] => .ok []
  | behind =>
    match takeBreak behind with
    | some (_, rest) => .ok rest
    | none => .error (.expected "the end of the line")

/-- The text behind blanks, comments and line breaks; `fuel` bounds the number of
lines. -/
def skipSpace : Nat → List Char → List Char
  | 0, s => s
  | fuel + 1, s =>
    let behind := skipComment (skipBlanks s)
    match takeBreak behind with
    | some (_, rest) => skipSpace fuel rest
    | none => behind

/-! ## Keys -/

/-- Whether a character can stand in a key without quotes. -/
def isBareKeyChar (c : Char) : Bool := c.isAlphanum || c = '_' || c = '-'

/-- One key, bare or quoted. -/
def takeKey : Reader String := fun s =>
  let bare := s.takeWhile isBareKeyChar
  if bare.isEmpty then takeLineText s
  else .ok (String.ofList bare, s.drop bare.length)

/-- Keys with points between them: those before the last, and the last. -/
def takeKeys : Nat → Reader (List String × String)
  | 0, _ => .error (.expected "a key")
  | fuel + 1, s =>
    match takeKey (skipBlanks s) with
    | .error p => .error p
    | .ok (key, rest) =>
      match skipBlanks rest with
      | '.' :: rest =>
        match takeKeys fuel rest with
        | .error p => .error p
        | .ok ((before, last), rest) => .ok ((key :: before, last), rest)
      | rest => .ok (([], key), rest)

/-- The greatest depth of nested arrays and tables, and the greatest number of keys in a
path. -/
def depthLimit : Nat := 80

/-- A path of keys. -/
def takePath : Reader (List String × String) := fun s =>
  match takeKeys (s.length + 1) s with
  | .error p => .error p
  | .ok ((before, last), rest) =>
    if before.length < depthLimit then .ok ((before, last), rest) else .error .nestedTooDeeply

/-! ## Values -/

/-- Whether a character ends a word. -/
def endsWord (c : Char) : Bool :=
  isBlank c || c = '\n' || c = '\r' || c = ',' || c = ']' || c = '\x7d' || c = '#' || c = '='

/-- A word that is no text.  A date may be parted from its time by one blank. -/
def takeWord : Reader Scalar := fun s =>
  let word := s.takeWhile fun c => !endsWord c
  let rest := s.drop word.length
  let (word, rest) :=
    match rest with
    | ' ' :: a :: b :: ':' :: _ =>
      if Moment.startsWithDate word && word.length = 10 && a.isDigit && b.isDigit then
        let time := (rest.drop 1).takeWhile fun c => !endsWord c
        (word ++ ' ' :: time, rest.drop (time.length + 1))
      else (word, rest)
    | _ => (word, rest)
  match scalarOfWord word with
  | .ok v => .ok (v, rest)
  | .error p => .error p

/-- The elements behind an opening bracket; `fuel` bounds their number. -/
def takeItems (item : Reader Toml) : Nat → List Toml → Reader (List Toml)
  | 0, _, _ => .error (.expected "a closing bracket")
  | fuel + 1, taken, s =>
    match skipSpace (s.length + 1) s with
    | ']' :: rest => .ok (taken.reverse, rest)
    | s =>
      match item s with
      | .error p => .error p
      | .ok (v, rest) =>
        match skipSpace (rest.length + 1) rest with
        | ',' :: rest => takeItems item fuel (v :: taken) rest
        | ']' :: rest => .ok ((v :: taken).reverse, rest)
        | _ => .error (.expected "a comma or a closing bracket")

/-- A key, an equals sign, and a value; `skip` passes over what may stand around the
sign. -/
def takeAssignment (skip : List Char → List Char) (item : Reader Toml) :
    Reader (List String × String × Toml) := fun s =>
  match takePath s with
  | .error p => .error p
  | .ok ((before, key), rest) =>
    match skip rest with
    | '=' :: rest =>
      match item (skip rest) with
      | .error p => .error p
      | .ok (v, rest) => .ok ((before, key, v), rest)
    | _ => .error (.expected "an equals sign")

/-- The assignments behind an opening brace; `fuel` bounds their number. -/
def takeAssignments (item : Reader Toml) :
    Nat → List (List String × String × Toml) → Reader (List (List String × String × Toml))
  | 0, _, _ => .error (.expected "a closing brace")
  | fuel + 1, taken, s =>
    match skipSpace (s.length + 1) s with
    | '\x7d' :: rest => .ok (taken.reverse, rest)
    | s =>
      match takeAssignment (fun s => skipSpace (s.length + 1) s) item s with
      | .error p => .error p
      | .ok (a, rest) =>
        match skipSpace (rest.length + 1) rest with
        | ',' :: rest => takeAssignments item fuel (a :: taken) rest
        | '\x7d' :: rest => .ok ((a :: taken).reverse, rest)
        | _ => .error (.expected "a comma or a closing brace")

/-- A value, where `depth` more levels of nesting are allowed. -/
def takeValue : Nat → Reader Toml
  | depth, s =>
    match s with
    | [] => .error (.expected "a value")
    | c :: rest =>
      if c = '"' ∨ c = apostrophe then
        match takeText s with
        | .ok (t, rest) => .ok (.scalar (.str t), rest)
        | .error p => .error p
      else if c = '[' then
        match depth with
        | 0 => .error .nestedTooDeeply
        | depth + 1 =>
          match takeItems (takeValue depth) (rest.length + 1) [] rest with
          | .ok (items, rest) => .ok (.array items, rest)
          | .error p => .error p
      else if c = '\x7b' then
        match depth with
        | 0 => .error .nestedTooDeeply
        | depth + 1 =>
          match takeAssignments (takeValue depth) (rest.length + 1) [] rest with
          | .error p => .error p
          | .ok (assignments, rest) =>
            match ofAssignments assignments with
            | .ok built => .ok (built, rest)
            | .error p => .error p
      else
        match takeWord s with
        | .ok (v, rest) => .ok (.scalar v, rest)
        | .error p => .error p

/-! ## Documents -/

/-- One statement at the beginning of a line. -/
def takeStatement : Reader TomlStatement
  | '[' :: '[' :: rest =>
    match takePath rest with
    | .error p => .error p
    | .ok ((before, key), rest) =>
      match skipBlanks rest with
      | ']' :: ']' :: rest => .ok (.arrayHeader before key, rest)
      | _ => .error (.expected "two closing brackets")
  | '[' :: rest =>
    match takePath rest with
    | .error p => .error p
    | .ok ((before, key), rest) =>
      match skipBlanks rest with
      | ']' :: rest => .ok (.header before key, rest)
      | _ => .error (.expected "a closing bracket")
  | s =>
    match takeAssignment skipBlanks (takeValue depthLimit) s with
    | .ok ((before, key, v), rest) => .ok (.assign before key v, rest)
    | .error p => .error p

/-- The statements of a document; `fuel` bounds their number. -/
def takeStatements : Nat → List TomlStatement → List Char → Except TomlProblem (List TomlStatement)
  | 0, _, _ => .error (.expected "the end of the document")
  | fuel + 1, taken, s =>
    match skipSpace (s.length + 1) s with
    | [] => .ok taken.reverse
    | s =>
      match takeStatement s with
      | .error p => .error p
      | .ok (statement, rest) =>
        match endLine rest with
        | .error p => .error p
        | .ok rest => takeStatements fuel (statement :: taken) rest

/-- The text behind a byte order mark at its beginning. -/
def skipMark : List Char → List Char
  | [] => []
  | c :: rest => if c.toNat = 0xfeff then rest else c :: rest

/-- The fields of the root table of a document. -/
def parse (s : String) : Except TomlProblem (List (String × Toml)) :=
  let cs := skipMark s.toList
  match takeStatements (cs.length + 1) [] cs with
  | .error p => .error p
  | .ok statements => ofStatements statements

end PluginChain.Toml
