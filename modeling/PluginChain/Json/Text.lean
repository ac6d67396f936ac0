import PluginChain.Json.Value
import PluginChain.Number.Decimal
set_option autoImplicit false

/-!
# JSON values as text

`Json.compact` writes a value without any blank, `Json.pretty` with one member or
element to a line and two blanks of indentation for each level.  Both escape in
strings the quote, the backslash and the characters below the blank, and leave
all others as they are.
-/

namespace PluginChain.Json

/-- A hexadecimal digit. -/
def hexDigit (n : Nat) : Char := (Nat.digitChar n)

/-- One character of a string as it stands between the quotes. -/
def escapeChar (c : Char) : List Char :=
  if c = '"' then ['\\', '"']
  else if c = '\\' then ['\\', '\\']
  else if c.toNat = 8 then ['\\', 'b']
  else if c = '\t' then ['\\', 't']
  else if c = '\n' then ['\\', 'n']
  else if c.toNat = 12 then ['\\', 'f']
  else if c = '\r' then ['\\', 'r']
  else if c.toNat < 0x20 then
    ['\\', 'u', '0', '0', hexDigit (c.toNat / 16), hexDigit (c.toNat % 16)]
  else [c]

/-- A string between its quotes. -/
def quoteChars (s : String) : List Char :=
  '"' :: s.toList.flatMap escapeChar ++ ['"']

/-- An integer in decimal digits. -/
def intChars (n : Int) : List Char :=
  if n < 0 then '-' :: Nat.toDigits 10 n.natAbs else Nat.toDigits 10 n.natAbs

/-- The digits of a float: positional with at least one place after the point
from `10 ^ -5` to `10 ^ 16`, and scientific beyond. -/
def magnitudeChars (d : Decimal) : List Char :=
  let ds := d.digitText
  let point : Int := ds.length + d.exponent
  if d.digits = 0 then ['0', '.', '0']
  else if 0 ≤ d.exponent ∧ point ≤ 16 then d.positional ++ ['.', '0']
  else if -5 < point ∧ point ≤ 16 then d.positional
  else d.scientific

/-- A finite float as a JSON number.  The others have no JSON form and stand as
null. -/
def floatChars : Binary64 → List Char
  | .finite negative m e _ =>
    (if negative then ['-'] else []) ++ magnitudeChars (Decimal.shortest m e)
  | _ => "null".toList

/-- A truth value. -/
def boolChars (b : Bool) : List Char := if b then "true".toList else "false".toList

mutual

/-- A value without blanks, as characters. -/
def compactChars : Json → List Char
  | .null => "null".toList
  | .bool b => boolChars b
  | .int n => intChars n
  | .float x => floatChars x
  | .str s => quoteChars s
  | .arr items => '[' :: compactItems items ++ [']']
  | .obj fields => '\x7b' :: compactFields fields ++ ['\x7d']

/-- Elements with commas between them. -/
def compactItems : List Json → List Char
  | [] => []
  | [v] => compactChars v
  | v :: w :: rest => compactChars v ++ ',' :: compactItems (w :: rest)

/-- Members with commas between them. -/
def compactFields : List (String × Json) → List Char
  | [] => []
  | [(k, v)] => quoteChars k ++ ':' :: compactChars v
  | (k, v) :: f :: rest =>
    quoteChars k ++ ':' :: compactChars v ++ ',' :: compactFields (f :: rest)

end

/-- A new line with the indentation of a level. -/
def newLine (level : Nat) : List Char := '\n' :: List.replicate (2 * level) ' '

mutual

/-- A value with one member or element to a line, at an indentation level. -/
def prettyChars (level : Nat) : Json → List Char
  | .null => "null".toList
  | .bool b => boolChars b
  | .int n => intChars n
  | .float x => floatChars x
  | .str s => quoteChars s
  | .arr [] => ['[', ']']
  | .arr (v :: rest) => '[' :: prettyItems (level + 1) (v :: rest) ++ newLine level ++ [']']
  | .obj [] => ['\x7b', '\x7d']
  | .obj (f :: rest) =>
    '\x7b' :: prettyFields (level + 1) (f :: rest) ++ newLine level ++ ['\x7d']

/-- Elements, each on its line. -/
def prettyItems (level : Nat) : List Json → List Char
  | [] => []
  | [v] => newLine level ++ prettyChars level v
  | v :: w :: rest => newLine level ++ prettyChars level v ++ ',' :: prettyItems level (w :: rest)

/-- Members, each on its line. -/
def prettyFields (level : Nat) : List (String × Json) → List Char
  | [] => []
  | [(k, v)] => newLine level ++ quoteChars k ++ ':' :: ' ' :: prettyChars level v
  | (k, v) :: f :: rest =>
    newLine level ++ quoteChars k ++ ':' :: ' ' :: prettyChars level v ++
      ',' :: prettyFields level (f :: rest)

end

/-- The text of a value without blanks. -/
def compact (v : Json) : String := String.ofList v.compactChars

/-- The text of a value laid out over lines. -/
def pretty (v : Json) : String := String.ofList (prettyChars 0 v)

example : compact (.obj [("a", .arr [.int (-1), .null]), ("b", .str "x\"")]) =
    "\x7b\"a\":[-1,null],\"b\":\"x\\\"\"\x7d" := by decide +kernel

end PluginChain.Json
