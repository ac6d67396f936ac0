import PluginChain.Number.Decimal
set_option autoImplicit false

/-!
# Numbers as plain text

Reading a text as an integer of 64 bits or as a double-precision number, and
writing a number without an exponent.  A text is a number only as a whole: blanks,
grouping marks and other bases are refused.
-/

namespace PluginChain.Numeral

/-- The value of a digit. -/
def digitValue (c : Char) : Nat := c.toNat - '0'.toNat

/-- The number that decimal digits spell. -/
def ofDigits (ds : List Char) : Nat := ds.foldl (fun n c => 10 * n + digitValue c) 0

/-- The number that a text of digits spells, if it holds digits and nothing else. -/
def natural? (s : List Char) : Option Nat :=
  if s.isEmpty || !s.all Char.isDigit then none else some (ofDigits s)

/-- Whether a number is below zero by its sign, and the text behind the sign. -/
def splitSign : List Char → Bool × List Char
  | '-' :: rest => (true, rest)
  | '+' :: rest => (false, rest)
  | s => (false, s)

/-- The least integer of 64 bits. -/
def minInt64 : Int := -9223372036854775808

/-- The greatest integer of 64 bits. -/
def maxInt64 : Int := 9223372036854775807

/-- An integer, if it has 64 bits. -/
def inInt64? (n : Int) : Option Int := if minInt64 ≤ n ∧ n ≤ maxInt64 then some n else none

/-- The integer of 64 bits that a text spells, with or without a sign. -/
def int64? (s : List Char) : Option Int :=
  let (negative, digits) := splitSign s
  match natural? digits with
  | none => none
  | some n => inInt64? (if negative then -(n : Int) else n)

/-- The exponent that a text spells, behind its letter. -/
def exponent? : List Char → Option Int
  | [] => some 0
  | c :: rest =>
    if c = 'e' ∨ c = 'E' then
      let (negative, digits) := splitSign rest
      (natural? digits).map fun n => if negative then -(n : Int) else n
    else none

/-- The digits behind a point, if the text begins with one, and the text behind them. -/
def splitFraction : List Char → List Char × List Char
  | '.' :: behind => (behind.takeWhile Char.isDigit, behind.dropWhile Char.isDigit)
  | s => ([], s)

/-- The numeral that a text without a sign spells: digits, at least one of them
before or behind a point that may be missing, and an exponent. -/
def decimal? (s : List Char) : Option Decimal :=
  let whole := s.takeWhile Char.isDigit
  let (fraction, rest) := splitFraction (s.dropWhile Char.isDigit)
  if whole.isEmpty && fraction.isEmpty then none
  else
    (exponent? rest).map fun e => ⟨ofDigits (whole ++ fraction), e - fraction.length⟩

/-- The double-precision number that a text spells.  Infinities and the NaN have
names, in which case does not matter. -/
def float? (s : List Char) : Option Binary64 :=
  let (negative, body) := splitSign s
  let word := String.ofList (body.map Char.toLower)
  if word = "inf" ∨ word = "infinity" then some (.infinite negative)
  else if word = "nan" then some .nan
  else (decimal? body).map (Decimal.value negative)

/-- A number written without an exponent, and without a point where it is whole. -/
def plain : Binary64 → List Char
  | .finite negative m e _ =>
    (if negative then ['-'] else []) ++ (Decimal.shortest m e).positional
  | .infinite negative => if negative then "-inf".toList else "inf".toList
  | .nan => "NaN".toList

/-- An integer in decimal digits. -/
def plainInt (n : Int) : List Char := (toString n).toList

example : int64? "+007".toList = some 7 := by decide

example : int64? "9223372036854775808".toList = none := by decide

example : (float? ".5e1".toList).map plain = some ['5'] := by decide +kernel

end PluginChain.Numeral
