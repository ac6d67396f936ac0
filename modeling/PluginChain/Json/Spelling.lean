import PluginChain.Json.Parse
import PluginChain.Number.Numeral
set_option autoImplicit false

/-!
# What a JSON text spells

`Json.spelled?` gives the value that a text spells by the grammar of JSON alone: nesting of
any depth, integers of any size, and for a number with a point or an exponent the float
that is nearest to it.  The members of an object are kept in the order in which they are
written.  This is the measure for what is printed; `Json.parse` has limits and rounds more
than once.

Two escapes that only together stand for a character are refused.
-/

namespace PluginChain.Json

namespace Spelling

/-- A reader: what it read, and the characters behind that. -/
abbrev Reader (α : Type) := List Char → Option (α × List Char)

/-- The text behind blank space. -/
def afterBlanks (s : List Char) : List Char := s.dropWhile Cursor.isBlank

/-- The text behind a character that stands behind blank space. -/
def behind? (c : Char) (s : List Char) : Option (List Char) :=
  match afterBlanks s with
  | [] => none
  | d :: rest => if d = c then some rest else none

/-! ## Strings -/

/-- The character that is written as a backslash and a letter or sign. -/
def escaped? (c : Char) : Option Char :=
  if c = '"' ∨ c = '\\' ∨ c = '/' then some c
  else if c = 'b' then some (Char.ofNat 8)
  else if c = 'f' then some (Char.ofNat 12)
  else if c = 'n' then some '\n'
  else if c = 'r' then some '\r'
  else if c = 't' then some '\t'
  else none

/-- The character that is written as four hexadecimal digits. -/
def unicode? (a b c d : Char) : Option Char :=
  match hexValue? a, hexValue? b, hexValue? c, hexValue? d with
  | some x, some y, some z, some w =>
    let n := ((x * 16 + y) * 16 + z) * 16 + w
    if 0xd800 ≤ n ∧ n ≤ 0xdfff then none else some (Char.ofNat n)
  | _, _, _, _ => none

/-- A string behind its opening quote. -/
def string? : Reader (List Char)
  | [] => none
  | '"' :: rest => some ([], rest)
  | '\\' :: 'u' :: a :: b :: c :: d :: rest =>
    (unicode? a b c d).bind fun ch => (string? rest).map fun (s, rest) => (ch :: s, rest)
  | '\\' :: c :: rest =>
    (escaped? c).bind fun ch => (string? rest).map fun (s, rest) => (ch :: s, rest)
  | c :: rest =>
    if c = '\\' ∨ c.toNat < 0x20 then none
    else (string? rest).map fun (s, rest) => (c :: s, rest)

/-! ## Words and numbers -/

/-- Whether characters are digits, at least one of them. -/
def isDigits (s : List Char) : Bool := !s.isEmpty && s.all Char.isDigit

/-- Whether digits are those of a whole number, which begins with no zero but its only
digit. -/
def isWhole (s : List Char) : Bool := isDigits s && (s.head? != some '0' || s.length == 1)

/-- Whether a text is an exponent with its letter. -/
def isExponent : List Char → Bool
  | 'e' :: '+' :: digits | 'e' :: '-' :: digits | 'E' :: '+' :: digits | 'E' :: '-' :: digits =>
    isDigits digits
  | 'e' :: digits | 'E' :: digits => isDigits digits
  | _ => false

/-- Whether a text behind whole digits makes a float of them: a fraction, an exponent, or
both. -/
def isScale : List Char → Bool
  | '.' :: rest =>
    let behind := rest.dropWhile Char.isDigit
    isDigits (rest.takeWhile Char.isDigit) && (behind.isEmpty || isExponent behind)
  | s => isExponent s

/-- Whether a text begins with a minus sign, and the text behind it. -/
def splitMinus : List Char → Bool × List Char
  | '-' :: rest => (true, rest)
  | s => (false, s)

/-- The number that a text is. -/
def number? (s : List Char) : Option Json :=
  let (negative, body) := splitMinus s
  let whole := body.takeWhile Char.isDigit
  let rest := body.dropWhile Char.isDigit
  if !isWhole whole then none
  else if rest.isEmpty then
    let n : Int := Numeral.ofDigits whole
    some (.int (if negative then -n else n))
  else if isScale rest then (Numeral.float? s).map .float
  else none

/-- The value that a text without quotes and brackets is. -/
def word? (s : List Char) : Option Json :=
  if s = "null".toList then some .null
  else if s = "true".toList then some (.bool true)
  else if s = "false".toList then some (.bool false)
  else number? s

/-- Whether a character may stand in a word or a number. -/
def isWordChar (c : Char) : Bool := c.isAlphanum || c = '+' || c = '-' || c = '.'

/-! ## Values -/

section

variable {α : Type} (close : Char) (item : Reader α)

/-- One or more things with commas between them, up to a closing bracket; `fuel` bounds
their number. -/
def series? : Nat → Reader (List α)
  | 0, _ => none
  | fuel + 1, s =>
    match item s with
    | none => none
    | some (a, rest) =>
      match afterBlanks rest with
      | [] => none
      | c :: rest =>
        if c = close then some ([a], rest)
        else if c = ',' then (series? fuel rest).map fun (others, rest) => (a :: others, rest)
        else none

/-- What stands behind an opening bracket. -/
def group? (fuel : Nat) : Reader (List α) := fun s =>
  match afterBlanks s with
  | [] => none
  | c :: rest => if c = close then some ([], rest) else series? close item fuel s

end

/-- A member of an object. -/
def member? (value : Reader Json) : Reader (String × Json) := fun s =>
  (behind? '"' s).bind fun rest =>
    (string? rest).bind fun (name, rest) =>
      (behind? ':' rest).bind fun rest =>
        (value rest).map fun (v, rest) => ((String.ofList name, v), rest)

/-- A value; `fuel` bounds its depth and the lengths of its lists. -/
def value? : Nat → Reader Json
  | 0, _ => none
  | fuel + 1, s =>
    match afterBlanks s with
    | '"' :: rest => (string? rest).map fun (t, rest) => (.str (String.ofList t), rest)
    | '[' :: rest =>
      (group? ']' (value? fuel) fuel rest).map fun (items, rest) => (.arr items, rest)
    | '\x7b' :: rest =>
      (group? '\x7d' (member? (value? fuel)) fuel rest).map fun (fields, rest) =>
        (.obj fields, rest)
    | s => (word? (s.takeWhile isWordChar)).map fun v => (v, s.dropWhile isWordChar)

end Spelling

open Spelling in
/-- The value that a text spells, if it spells one. -/
def spelled? (text : String) : Option Json :=
  match value? text.toList.length text.toList with
  | none => none
  | some (v, rest) => if (afterBlanks rest).isEmpty then some v else none

end PluginChain.Json
