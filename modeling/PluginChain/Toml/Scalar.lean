import PluginChain.Toml.Moment
import PluginChain.Toml.Value
set_option autoImplicit false

/-!
# Single values in TOML

The words of a TOML document that are no texts: truth values, integers in four
bases, floats, dates and times.  Digits may be grouped with underscores, each of
them between two digits.
-/

namespace PluginChain.Toml

/-- Digits without the underscores between them, if they are digits and stand so. -/
def ungrouped? (isDigit : Char → Bool) : List Char → Option (List Char)
  | [] => none
  | [c] => if isDigit c then some [c] else none
  | c :: '_' :: rest =>
    if isDigit c then (ungrouped? isDigit rest).map (c :: ·) else none
  | c :: d :: rest => if isDigit c then (ungrouped? isDigit (d :: rest)).map (c :: ·) else none

/-- The value of a digit in a base up to 16. -/
def digitIn (base : Nat) (c : Char) : Option Nat :=
  let v :=
    if '0' ≤ c ∧ c ≤ '9' then c.toNat - '0'.toNat
    else if 'a' ≤ c ∧ c ≤ 'f' then c.toNat - 'a'.toNat + 10
    else if 'A' ≤ c ∧ c ≤ 'F' then c.toNat - 'A'.toNat + 10
    else base
  if v < base then some v else none

/-- The number that digits in a base spell. -/
def ofDigitsIn (base : Nat) (ds : List Char) : Nat :=
  ds.foldl (fun n c => base * n + (digitIn base c).getD 0) 0

/-- An integer of 64 bits as a value. -/
def boundedInt (n : Int) : Except TomlProblem Scalar :=
  match Numeral.inInt64? n with
  | some n => .ok (.int n)
  | none => .error .numberOutOfRange

/-- An integer in another base than ten. -/
def basedInt (base : Nat) (digits : List Char) : Except TomlProblem Scalar :=
  match ungrouped? (fun c => (digitIn base c).isSome) digits with
  | some ds => boundedInt (ofDigitsIn base ds)
  | none => .error (.expected "digits")

/-- Whether digits begin with a zero that is not the only one. -/
def hasIdleZero : List Char → Bool
  | '0' :: _ :: _ => true
  | _ => false

/-- The whole part of a decimal number. -/
def wholePart? (s : List Char) : Option (List Char) :=
  match ungrouped? Char.isDigit s with
  | some ds => if hasIdleZero ds then none else some ds
  | none => none

/-- An exponent behind its letter. -/
def exponentPart? (s : List Char) : Option (List Char) :=
  match s with
  | [] => none
  | c :: rest =>
    if c = '+' ∨ c = '-' then (ungrouped? Char.isDigit rest).map (c :: ·)
    else ungrouped? Char.isDigit s

/-- Whether a character begins an exponent. -/
def isExponentMark (c : Char) : Bool := c = 'e' || c = 'E'

/-- A decimal number without its sign. -/
def decimalNumber (negative : Bool) (s : List Char) : Except TomlProblem Scalar :=
  let bad := Except.error (.expected "a value")
  let whole := s.takeWhile fun c => !(c = '.' || isExponentMark c)
  let rest := s.dropWhile fun c => !(c = '.' || isExponentMark c)
  match wholePart? whole with
  | none => bad
  | some whole =>
    match rest with
    | [] =>
      let n : Int := Numeral.ofDigits whole
      boundedInt (if negative then -n else n)
    | mark :: behind =>
      let fraction? :=
        if mark = '.' then
          (ungrouped? Char.isDigit (behind.takeWhile fun c => !isExponentMark c)).map ('.' :: ·)
        else some []
      let exponent := if mark = '.' then behind.dropWhile fun c => !isExponentMark c else rest
      match fraction? with
      | none => bad
      | some fraction =>
        let exponent? := match exponent with
          | [] => some []
          | _ :: digits => (exponentPart? digits).map ('e' :: ·)
        match exponent? with
        | none => bad
        | some exponent =>
          match Numeral.decimal? (whole ++ fraction ++ exponent) with
          | none => bad
          | some d =>
            let x := d.value negative
            if x.isFinite then .ok (.float x) else .error .numberOutOfRange

/-- The value of a word that is no text. -/
def scalarOfWord (word : List Char) : Except TomlProblem Scalar :=
  if word = "true".toList then .ok (.bool true)
  else if word = "false".toList then .ok (.bool false)
  else
    match Moment.normal? word with
    | some moment => .ok (.str (String.ofList moment))
    | none =>
      let (negative, body) := Numeral.splitSign word
      if body = "inf".toList then .ok (.float (.infinite negative))
      else if body = "nan".toList then .ok (.float .nan)
      else
        match word with
        | '0' :: 'x' :: digits => basedInt 16 digits
        | '0' :: 'o' :: digits => basedInt 8 digits
        | '0' :: 'b' :: digits => basedInt 2 digits
        | _ => decimalNumber negative body

example : (scalarOfWord "1_000".toList).toOption = some (.int 1000) := by decide +kernel

example : (scalarOfWord "0xff".toList).toOption = some (.int 255) := by decide +kernel

example : (scalarOfWord "01".toList).toOption = none := by decide +kernel

end PluginChain.Toml
