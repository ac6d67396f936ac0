import PluginChain.Json.Value
set_option autoImplicit false

/-!
# Reading JSON text

`Json.parse` reads one value and refuses anything after it.  A failure names the
problem with the line and the column, counted in bytes of UTF-8, at which the
reader stood: just behind a character it had taken, or at the character it
refused to take.

Numbers without point and exponent are integers while they fit in 64 bits, and
floats beyond.  A float is put together from its leading digits, as an integer
of at most 64 bits, and one multiplication or division by a power of ten.
-/

namespace PluginChain

/-- What is wrong with a text that is not JSON. -/
inductive JsonProblem where
  | endInArray
  | endInObject
  | endInString
  | endInValue
  | expectedColon
  | expectedArraySeparator
  | expectedObjectSeparator
  | expectedIdent
  | expectedValue
  | invalidEscape
  | invalidNumber
  | numberOutOfRange
  | controlCharacter
  | keyNotString
  | loneSurrogate
  | trailingComma
  | trailingCharacters
  | endOfHexEscape
  | tooDeep
  deriving DecidableEq, Repr, Inhabited

namespace JsonProblem

/-- The problem in words. -/
def message : JsonProblem → String
  | .endInArray => "EOF while parsing a list"
  | .endInObject => "EOF while parsing an object"
  | .endInString => "EOF while parsing a string"
  | .endInValue => "EOF while parsing a value"
  | .expectedColon => "expected `:`"
  | .expectedArraySeparator => "expected `,` or `]`"
  | .expectedObjectSeparator => "expected `,` or `\x7d`"
  | .expectedIdent => "expected ident"
  | .expectedValue => "expected value"
  | .invalidEscape => "invalid escape"
  | .invalidNumber => "invalid number"
  | .numberOutOfRange => "number out of range"
  | .controlCharacter => "control character (\\u0000-\\u001F) found while parsing a string"
  | .keyNotString => "key must be a string"
  | .loneSurrogate => "lone leading surrogate in hex escape"
  | .trailingComma => "trailing comma"
  | .trailingCharacters => "trailing characters"
  | .endOfHexEscape => "unexpected end of hex escape"
  | .tooDeep => "recursion limit exceeded"

end JsonProblem

/-- A problem and where it was met. -/
structure JsonSyntaxError where
  problem : JsonProblem
  line : Nat
  column : Nat
  deriving DecidableEq, Repr, Inhabited

namespace JsonSyntaxError

/-- The problem and its place in words. -/
def message (e : JsonSyntaxError) : String :=
  e.problem.message ++ " at line " ++ toString e.line ++ " column " ++ toString e.column

end JsonSyntaxError

namespace Json

/-- A place in a text: what follows it, its line, and the bytes before it on that
line. -/
structure Cursor where
  rest : List Char
  line : Nat
  column : Nat
  deriving Repr, Inhabited

namespace Cursor

/-- The start of a text. -/
def ofText (s : String) : Cursor := ⟨s.toList, 1, 0⟩

/-- The place behind one character, with the rest of the text behind it. -/
def pass (c : Cursor) (ch : Char) (rest : List Char) : Cursor :=
  if ch = '\n' then ⟨rest, c.line + 1, 0⟩ else ⟨rest, c.line, c.column + ch.utf8Size⟩

/-- A problem just behind what was taken. -/
def fail {α : Type} (c : Cursor) (p : JsonProblem) : Except JsonSyntaxError α :=
  .error ⟨p, c.line, c.column⟩

/-- A problem one byte on, at a character that is not accepted. -/
def failAtNext {α : Type} (c : Cursor) (p : JsonProblem) : Except JsonSyntaxError α :=
  match c.rest with
  | [] => c.fail p
  | '\n' :: _ => .error ⟨p, c.line + 1, 0⟩
  | _ => .error ⟨p, c.line, c.column + 1⟩

/-- Whether the character is blank space between the parts of a value. -/
def isBlank (ch : Char) : Bool := ch = ' ' || ch = '\n' || ch = '\t' || ch = '\r'

/-- The place behind blank space. -/
def skipBlanks (c : Cursor) : Cursor := go c.line c.column c.rest
where
  go (line column : Nat) : List Char → Cursor
    | [] => ⟨[], line, column⟩
    | ch :: rest =>
      if ch = '\n' then go (line + 1) 0 rest
      else if isBlank ch then go line (column + 1) rest
      else ⟨ch :: rest, line, column⟩

end Cursor

/-- A reader of something at a place. -/
abbrev Step (α : Type) := Cursor → Except JsonSyntaxError (α × Cursor)

/-! ## Words and strings -/

/-- Takes the remaining characters of a word. -/
def takeWord : List Char → Cursor → Except JsonSyntaxError Cursor
  | [], c => .ok c
  | w :: ws, c =>
    match c.rest with
    | [] => c.fail .endInValue
    | ch :: rest =>
      if ch = w then takeWord ws (c.pass ch rest) else c.failAtNext .expectedIdent

/-- The value of a hexadecimal digit. -/
def hexValue? (ch : Char) : Option Nat :=
  if '0' ≤ ch ∧ ch ≤ '9' then some (ch.toNat - 48)
  else if 'a' ≤ ch ∧ ch ≤ 'f' then some (ch.toNat - 87)
  else if 'A' ≤ ch ∧ ch ≤ 'F' then some (ch.toNat - 55)
  else none

/-- The place at the end of a text. -/
def Cursor.atEnd (c : Cursor) : Cursor := c.rest.foldl (fun c ch => c.pass ch []) c

/-- Four bytes as a number in hexadecimal digits.  A longer character in their
place is taken with all its bytes when it ends within the four. -/
def takeHex (c : Cursor) : Except JsonSyntaxError (Nat × Cursor) :=
  match c.rest with
  | a :: b :: d :: e :: rest =>
    let after := (((c.pass a []).pass b []).pass d []).pass e rest
    match hexValue? a, hexValue? b, hexValue? d, hexValue? e with
    | some x, some y, some z, some w => .ok (((x * 16 + y) * 16 + z) * 16 + w, after)
    | _, _, _, _ =>
      -- The problem stands four bytes on, which may be inside a character.
      fourBytesOn [a, b, d, e] 4 c
  | few =>
    if few.foldl (fun n ch => n + ch.utf8Size) 0 < 4 then c.atEnd.fail .endInString
    else fourBytesOn few 4 c
where
  fourBytesOn : List Char → Nat → Cursor → Except JsonSyntaxError (Nat × Cursor)
    | [], _, c => c.fail .invalidEscape
    | ch :: chs, n, c =>
      if n = 0 then c.fail .invalidEscape
      else if ch.utf8Size ≤ n then fourBytesOn chs (n - ch.utf8Size) (c.pass ch [])
      else .error ⟨.invalidEscape, c.line, c.column + n⟩

/-- The character written as `\u` and four digits, or as two such escapes that
form a surrogate pair.  The first `\u` is taken already. -/
def takeUnicode (c : Cursor) : Except JsonSyntaxError (Char × Cursor) := do
  let (n, c) ← takeHex c
  if 0xdc00 ≤ n ∧ n ≤ 0xdfff then c.fail .loneSurrogate
  else if 0xd800 ≤ n ∧ n ≤ 0xdbff then
    let expect (want : Char) (c : Cursor) : Except JsonSyntaxError Cursor :=
      match c.rest with
      | [] => c.fail .endInString
      | ch :: rest =>
        if ch = want then .ok (c.pass ch rest) else c.failAtNext .endOfHexEscape
    let c ← expect '\\' c
    let c ← expect 'u' c
    let (m, c) ← takeHex c
    if 0xdc00 ≤ m ∧ m ≤ 0xdfff then
      .ok (Char.ofNat (0x10000 + (n - 0xd800) * 0x400 + (m - 0xdc00)), c)
    else c.fail .loneSurrogate
  else .ok (Char.ofNat n, c)

/-- The character behind a backslash. -/
def takeEscape (c : Cursor) : Except JsonSyntaxError (Char × Cursor) :=
  match c.rest with
  | [] => c.fail .endInString
  | ch :: rest =>
    let after := c.pass ch rest
    match ch with
    | '"' => .ok ('"', after)
    | '\\' => .ok ('\\', after)
    | '/' => .ok ('/', after)
    | 'b' => .ok (Char.ofNat 8, after)
    | 'f' => .ok (Char.ofNat 12, after)
    | 'n' => .ok ('\n', after)
    | 'r' => .ok ('\r', after)
    | 't' => .ok ('\t', after)
    | 'u' => takeUnicode after
    | _ => c.failAtNext .invalidEscape

/-- The rest of a string behind its opening quote; `fuel` bounds its length. -/
def takeString : Nat → List Char → Step String
  | 0, _, c => c.fail .endInString
  | fuel + 1, taken, c =>
    match c.rest with
    | [] => c.fail .endInString
    | ch :: rest =>
      let after := c.pass ch rest
      if ch = '"' then .ok (String.ofList taken.reverse, after)
      else if ch = '\\' then do
        let (decoded, c) ← takeEscape after
        takeString fuel (decoded :: taken) c
      else if ch.toNat < 0x20 then after.fail .controlCharacter
      else takeString fuel (ch :: taken) after

/-! ## Numbers -/

/-- The greatest number of 64 bits. -/
def maxWord : Nat := 18446744073709551615

/-- The float `± significand * 10 ^ exponent`, by one multiplication or division
with a power of ten; beyond `10 ^ 308` the significand is first divided by that
power, as often as it takes. -/
def floatOfParts (significand : Nat) (exponent : Int) : Option Binary64 :=
  if exponent ≥ 0 then
    if exponent ≤ 308 then
      let x := (Binary64.ofNat significand).mul (Binary64.ofNat (Nat.pow 10 exponent.toNat))
      if x.isFinite then some x else none
    else if significand = 0 then some (.zero false)
    else none
  else
    some (divide (Binary64.ofNat significand) (-exponent).toNat 4)
where
  divide (x : Binary64) (places : Nat) : Nat → Binary64
    | 0 => .zero false
    | fuel + 1 =>
      if x.isZero then x
      else if places ≤ 308 then x.div (Binary64.ofNat (Nat.pow 10 places))
      else divide (x.div (Binary64.ofNat (Nat.pow 10 308))) (places - 308) fuel

/-- The parts of a number with a sign, as a float. -/
def finishFloat (negative : Bool) (significand : Nat) (exponent : Int) : Step Json := fun c =>
  match floatOfParts significand exponent with
  | some x => .ok (.float (if negative then x.neg else x), c)
  | none => c.fail .numberOutOfRange

/-- The digits at a place, as values. -/
def digitsAt (c : Cursor) : List Nat :=
  (c.rest.takeWhile Char.isDigit).map fun ch => ch.toNat - 48

/-- The place behind the digits. -/
def skipDigits (c : Cursor) : Cursor :=
  let n := (c.rest.takeWhile Char.isDigit).length
  ⟨c.rest.drop n, c.line, c.column + n⟩

/-- The greatest exponent that is read digit by digit. -/
def maxExponent : Nat := 2147483647

/-- The exponent behind its letter, and the number with it. -/
def takeExponent (negative : Bool) (significand : Nat) (exponent : Int) : Step Json := fun c => do
  let (minus, c) := match c.rest with
    | '+' :: rest => (false, c.pass '+' rest)
    | '-' :: rest => (true, c.pass '-' rest)
    | _ => (false, c)
  match c.rest with
  | [] => c.fail .endInValue
  | ch :: _ =>
    if !ch.isDigit then c.failAtNext .invalidNumber
    else
      let digits := digitsAt c
      match tooLong 0 0 digits with
      | some taken =>
        -- So far out that only the sign of the exponent counts.
        if significand ≠ 0 ∧ ¬ minus then
          (Cursor.mk (c.rest.drop taken) c.line (c.column + taken)).fail .numberOutOfRange
        else .ok (.float (.zero negative), skipDigits c)
      | none =>
        let e : Int := (digits.foldl (fun n d => n * 10 + d) 0 : Nat)
        finishFloat negative significand (if minus then exponent - e else exponent + e)
          (skipDigits c)
where
  /-- How many digits were taken when the exponent grew too large, if it did. -/
  tooLong (taken n : Nat) : List Nat → Option Nat
    | [] => none
    | d :: ds =>
      if maxExponent < n * 10 + d then some (taken + 1) else tooLong (taken + 1) (n * 10 + d) ds

/-- The number behind its digits: an exponent may follow. -/
def takeScale (negative : Bool) (significand : Nat) (exponent : Int) : Step Json := fun c =>
  match c.rest with
  | 'e' :: rest => takeExponent negative significand exponent (c.pass 'e' rest)
  | 'E' :: rest => takeExponent negative significand exponent (c.pass 'E' rest)
  | _ => finishFloat negative significand exponent c

/-- Appends digits to a significand while it fits in 64 bits; the number of those
that did. -/
def absorb (significand taken : Nat) : List Nat → Nat × Nat
  | [] => (significand, taken)
  | d :: ds =>
    if maxWord < significand * 10 + d then (significand, taken)
    else absorb (significand * 10 + d) (taken + 1) ds

/-- The places behind the point. -/
def takeFraction (negative : Bool) (significand : Nat) (exponent : Int) : Step Json := fun c =>
  match digitsAt c with
  | [] => match c.rest with
    | [] => c.fail .endInValue
    | _ => c.failAtNext .invalidNumber
  | ds =>
    let (s, taken) := absorb significand 0 ds
    takeScale negative s (exponent - taken) (skipDigits c)

/-- A number behind its sign. -/
def takeNumber (negative : Bool) : Step Json := fun c =>
  match c.rest with
  | [] => c.fail .endInValue
  | '0' :: rest =>
    let c := c.pass '0' rest
    match rest with
    | ch :: _ => if ch.isDigit then c.failAtNext .invalidNumber else afterDigits 0 c
    | [] => afterDigits 0 c
  | ch :: _ =>
    if !ch.isDigit then c.failAtNext .invalidNumber
    else
      let ds := digitsAt c
      let (s, taken) := absorb 0 0 ds
      if taken = ds.length then afterDigits s (skipDigits c)
      else
        -- Digits beyond 64 bits only raise the exponent.
        let c := skipDigits c
        let exponent : Int := ds.length - taken
        match c.rest with
        | '.' :: rest => takeFraction negative s exponent (c.pass '.' rest)
        | _ => takeScale negative s exponent c
where
  /-- What follows the whole digits of a number of at most 64 bits. -/
  afterDigits (s : Nat) (c : Cursor) : Except JsonSyntaxError (Json × Cursor) :=
    match c.rest with
    | '.' :: rest => takeFraction negative s 0 (c.pass '.' rest)
    | 'e' :: rest => takeExponent negative s 0 (c.pass 'e' rest)
    | 'E' :: rest => takeExponent negative s 0 (c.pass 'E' rest)
    | _ =>
      if !negative then .ok (.int s, c)
      else if s = 0 ∨ 9223372036854775808 < s then .ok (.float (Binary64.ofNat s).neg, c)
      else .ok (.int (-s), c)

/-! ## Values -/

/-- The elements behind an opening bracket; `fuel` bounds their number. -/
def takeItems (item : Step Json) : Nat → List Json → Step (List Json)
  | 0, _, c => c.fail .endInArray
  | fuel + 1, taken, c => do
    let c := c.skipBlanks
    match c.rest with
    | [] => c.failAtNext .endInArray
    | ']' :: rest => .ok (taken.reverse, c.pass ']' rest)
    | ch :: rest =>
      if taken.isEmpty then
        let (v, c) ← item c
        takeItems item fuel (v :: taken) c
      else if ch = ',' then
        let c := (c.pass ch rest).skipBlanks
        match c.rest with
        | [] => c.failAtNext .endInValue
        | ']' :: _ => c.failAtNext .trailingComma
        | _ =>
          let (v, c) ← item c
          takeItems item fuel (v :: taken) c
      else c.failAtNext .expectedArraySeparator

/-- A member at its opening quote: the name, a colon, the value. -/
def takeMember (item : Step Json) : Step (String × Json) := fun c => do
  match c.rest with
  | '"' :: rest =>
    let (name, c) ← takeString (rest.length + 1) [] (c.pass '"' rest)
    let c := c.skipBlanks
    match c.rest with
    | ':' :: rest =>
      let (v, c) ← item (c.pass ':' rest)
      .ok ((name, v), c)
    | [] => c.failAtNext .endInObject
    | _ => c.failAtNext .expectedColon
  | _ => c.failAtNext .keyNotString

/-- The members behind an opening brace; `fuel` bounds their number. -/
def takeMembers (item : Step Json) : Nat → Bool → Keyed Json → Step (Keyed Json)
  | 0, _, _, c => c.fail .endInObject
  | fuel + 1, isFirst, taken, c => do
    let c := c.skipBlanks
    match c.rest with
    | [] => c.failAtNext .endInObject
    | '\x7d' :: rest => .ok (taken, c.pass '\x7d' rest)
    | ch :: rest =>
      if isFirst then
        let ((k, v), c) ← takeMember item c
        takeMembers item fuel false (taken.insert k v) c
      else if ch = ',' then
        let c := (c.pass ch rest).skipBlanks
        match c.rest with
        | [] => c.failAtNext .endInValue
        | '\x7d' :: _ => c.failAtNext .trailingComma
        | _ =>
          let ((k, v), c) ← takeMember item c
          takeMembers item fuel false (taken.insert k v) c
      else c.failAtNext .expectedObjectSeparator

/-- A value at a place behind blank space, where `depth` more levels of nesting
are allowed. -/
def takeValue : Nat → Step Json
  | depth, c => do
    let c := c.skipBlanks
    match c.rest with
    | [] => c.failAtNext .endInValue
    | ch :: rest =>
      let after := c.pass ch rest
      match ch with
      | 'n' => do let c ← takeWord "ull".toList after; .ok (.null, c)
      | 't' => do let c ← takeWord "rue".toList after; .ok (.bool true, c)
      | 'f' => do let c ← takeWord "alse".toList after; .ok (.bool false, c)
      | '-' => takeNumber true after
      | '"' => do
        let (s, c) ← takeString (rest.length + 1) [] after
        .ok (.str s, c)
      | '[' =>
        match depth with
        | 0 => c.failAtNext .tooDeep
        | depth + 1 => do
          let (items, c) ← takeItems (takeValue depth) (rest.length + 1) [] after
          .ok (.arr items, c)
      | '\x7b' =>
        match depth with
        | 0 => c.failAtNext .tooDeep
        | depth + 1 => do
          let (fields, c) ← takeMembers (takeValue depth) (rest.length + 1) true [] after
          .ok (.obj fields, c)
      | _ => if ch.isDigit then takeNumber false c else c.failAtNext .expectedValue

/-- The greatest depth of nested arrays and objects. -/
def depthLimit : Nat := 127

/-- The value that a text holds. -/
def parse (s : String) : Except JsonSyntaxError Json := do
  let (v, c) ← takeValue depthLimit (.ofText s)
  let c := c.skipBlanks
  match c.rest with
  | [] => .ok v
  | _ => c.failAtNext .trailingCharacters

example : (parse "[1,]").toOption.isNone = true := by decide +kernel

end Json

end PluginChain
