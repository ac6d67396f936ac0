import PluginChain.Toml.Value
set_option autoImplicit false

/-!
# Texts in TOML

The four kinds of texts of a TOML document: between double quotes, with escapes, or
between apostrophes, without any, each on one line or on several between three
marks.  A reader takes a text behind its opening mark and gives back the rest of the
document.
-/

namespace PluginChain.Toml

/-- Takes a part of a document and gives back the rest. -/
abbrev Reader (α : Type) := List Char → Except TomlProblem (α × List Char)

/-- The apostrophe. -/
def apostrophe : Char := Char.ofNat 39

/-- Whether a character may stand in a document as it is: all but controls, of which
the tab may. -/
def isPlain (c : Char) : Bool := c = '\t' || (0x20 ≤ c.toNat && c.toNat ≠ 0x7f)

/-- A line break at the beginning of a text, and the rest. -/
def takeBreak : List Char → Option (List Char × List Char)
  | '\n' :: rest => some (['\n'], rest)
  | '\r' :: '\n' :: rest => some (['\r', '\n'], rest)
  | _ => none

/-- The text behind a line break at its beginning, if there is one. -/
def skipBreak (s : List Char) : List Char :=
  match takeBreak s with
  | some (_, rest) => rest
  | none => s

/-- Whether a character is a blank within a line. -/
def isBlank (c : Char) : Bool := c = ' ' || c = '\t'

/-- The value of a hexadecimal digit. -/
def hexDigit? (c : Char) : Option Nat :=
  if '0' ≤ c ∧ c ≤ '9' then some (c.toNat - 48)
  else if 'a' ≤ c ∧ c ≤ 'f' then some (c.toNat - 87)
  else if 'A' ≤ c ∧ c ≤ 'F' then some (c.toNat - 55)
  else none

/-- The character with the number that so many hexadecimal digits spell. -/
def takeNumbered (count : Nat) : Reader Char := fun s =>
  let digits := s.take count
  let values := digits.filterMap hexDigit?
  let n := values.foldl (fun n v => 16 * n + v) 0
  if values.length = count ∧ (n < 0xd800 ∨ (0xdfff < n ∧ n < 0x110000)) then
    .ok (Char.ofNat n, s.drop count)
  else .error (.expected "the number of a character")

/-- The character behind a backslash. -/
def takeEscape : Reader Char
  | '"' :: rest => .ok ('"', rest)
  | '\\' :: rest => .ok ('\\', rest)
  | 'b' :: rest => .ok (Char.ofNat 8, rest)
  | 'e' :: rest => .ok (Char.ofNat 27, rest)
  | 'f' :: rest => .ok (Char.ofNat 12, rest)
  | 'n' :: rest => .ok ('\n', rest)
  | 'r' :: rest => .ok ('\r', rest)
  | 't' :: rest => .ok ('\t', rest)
  | 'x' :: rest => takeNumbered 2 rest
  | 'u' :: rest => takeNumbered 4 rest
  | 'U' :: rest => takeNumbered 8 rest
  | _ => .error (.expected "an escape")

/-- The rest of a text on one line, with escapes; `fuel` bounds its length. -/
def takeBasic : Nat → List Char → Reader String
  | 0, _, _ => .error (.expected "a double quote")
  | fuel + 1, taken, s =>
    match s with
    | [] => .error (.expected "a double quote")
    | c :: rest =>
      if c = '"' then .ok (String.ofList taken.reverse, rest)
      else if c = '\\' then
        match takeEscape rest with
        | .ok (decoded, rest) => takeBasic fuel (decoded :: taken) rest
        | .error p => .error p
      else if isPlain c then takeBasic fuel (c :: taken) rest
      else .error (.expected "no control character")

/-- The rest of a text on one line, without escapes. -/
def takeLiteral : List Char → Reader String
  | _, [] => .error (.expected "an apostrophe")
  | taken, c :: rest =>
    if c = apostrophe then .ok (String.ofList taken.reverse, rest)
    else if isPlain c then takeLiteral (c :: taken) rest
    else .error (.expected "no control character")

/-- The marks at the beginning of a text that may end one on several lines: up to two
of five belong to the text. -/
def closing? (mark : Char) (s : List Char) : Option (List Char × List Char) :=
  let marks := (s.take 5).takeWhile (· = mark)
  if marks.length < 3 then none
  else some (List.replicate (marks.length - 3) mark, s.drop marks.length)

/-- The text behind a backslash at the end of a line: all blanks and line breaks are
left out.  There has to be a line break among them. -/
def skipFolded (s : List Char) : Option (List Char) :=
  match takeBreak (s.dropWhile isBlank) with
  | none => none
  | some (_, rest) => some (skipBlankLines rest)
where
  skipBlankLines : List Char → List Char
    | [] => []
    | c :: rest =>
      if isBlank c || c = '\n' then skipBlankLines rest
      else if c = '\r' && rest.head? = some '\n' then skipBlankLines rest
      else c :: rest

/-- The rest of a text on several lines, with escapes; `fuel` bounds its length. -/
def takeBasicLines : Nat → List Char → Reader String
  | 0, _, _ => .error (.expected "three double quotes")
  | fuel + 1, taken, s =>
    match closing? '"' s with
    | some (last, rest) => .ok (String.ofList (taken.reverse ++ last), rest)
    | none =>
      match takeBreak s with
      | some (br, rest) => takeBasicLines fuel (br.reverse ++ taken) rest
      | none =>
        match s with
        | [] => .error (.expected "three double quotes")
        | c :: rest =>
          if c = '\\' then
            match skipFolded rest with
            | some rest => takeBasicLines fuel taken rest
            | none =>
              match takeEscape rest with
              | .ok (decoded, rest) => takeBasicLines fuel (decoded :: taken) rest
              | .error p => .error p
          else if isPlain c then takeBasicLines fuel (c :: taken) rest
          else .error (.expected "no control character")

/-- The rest of a text on several lines, without escapes; `fuel` bounds its length. -/
def takeLiteralLines : Nat → List Char → Reader String
  | 0, _, _ => .error (.expected "three apostrophes")
  | fuel + 1, taken, s =>
    match closing? apostrophe s with
    | some (last, rest) => .ok (String.ofList (taken.reverse ++ last), rest)
    | none =>
      match takeBreak s with
      | some (br, rest) => takeLiteralLines fuel (br.reverse ++ taken) rest
      | none =>
        match s with
        | [] => .error (.expected "three apostrophes")
        | c :: rest =>
          if isPlain c then takeLiteralLines fuel (c :: taken) rest
          else .error (.expected "no control character")

/-- A text on one line, at its opening mark. -/
def takeLineText : Reader String
  | [] => .error (.expected "a text")
  | c :: rest =>
    if c = '"' then takeBasic (rest.length + 1) [] rest
    else if c = apostrophe then takeLiteral [] rest
    else .error (.expected "a text")

/-- A text of any kind, at its opening mark.  A line break right behind three marks
is no part of it. -/
def takeText : Reader String := fun s =>
  match s with
  | a :: b :: c :: rest =>
    if a = '"' ∧ b = '"' ∧ c = '"' then takeBasicLines (rest.length + 1) [] (skipBreak rest)
    else if a = apostrophe ∧ b = apostrophe ∧ c = apostrophe then
      takeLiteralLines (rest.length + 1) [] (skipBreak rest)
    else takeLineText s
  | _ => takeLineText s

end PluginChain.Toml
