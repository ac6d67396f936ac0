import PluginChain.Number.Numeral
set_option autoImplicit false

/-!
# Dates and times in TOML

A date, a time of day, or both with or without an offset from universal time.
`Moment.normal?` checks such a text against the calendar and the clock and returns
its normal form: a `T` between date and time, a `Z` in upper case, and no idle zeros
at the end of a fraction.
-/

namespace PluginChain.Moment

/-- The number that so many digits spell, and the text behind them. -/
def takeDigits (count : Nat) (s : List Char) : Option (Nat × List Char) :=
  let digits := s.take count
  if digits.length = count && digits.all Char.isDigit then
    some (Numeral.ofDigits digits, s.drop count)
  else none

/-- Whether a year has a leap day. -/
def isLeap (year : Nat) : Bool := year % 4 = 0 && (year % 100 ≠ 0 || year % 400 = 0)

/-- The number of days in a month. -/
def daysIn (year month : Nat) : Nat :=
  if month = 2 then (if isLeap year then 29 else 28)
  else if month = 4 || month = 6 || month = 9 || month = 11 then 30
  else 31

/-- A number in at least two digits. -/
def twoDigits (n : Nat) : List Char := [Nat.digitChar (n / 10), Nat.digitChar (n % 10)]

/-- A date at the beginning of a text: its normal form and the rest. -/
def takeDate (s : List Char) : Option (List Char × List Char) := do
  let (year, rest) ← takeDigits 4 s
  let '-' :: rest := rest | none
  let (month, rest) ← takeDigits 2 rest
  let '-' :: rest := rest | none
  let (day, rest) ← takeDigits 2 rest
  if 1 ≤ month ∧ month ≤ 12 ∧ 1 ≤ day ∧ day ≤ daysIn year month then
    some (s.take 10, rest)
  else none

/-- The fraction of a second in normal form: at most nine digits, of which the zeros
at the end are dropped but for one. -/
def fraction (digits : List Char) : List Char :=
  let kept := ((digits.take 9).reverse.dropWhile (· = '0')).reverse
  '.' :: (if kept.isEmpty then ['0'] else kept)

/-- A time of day at the beginning of a text.  The seconds may be left out. -/
def takeTime (s : List Char) : Option (List Char × List Char) := do
  let (hour, rest) ← takeDigits 2 s
  let ':' :: rest := rest | none
  let (minute, rest) ← takeDigits 2 rest
  if 23 < hour ∨ 59 < minute then none
  else
    let start := twoDigits hour ++ ':' :: twoDigits minute
    match rest with
    | ':' :: behind =>
      let (second, rest) ← takeDigits 2 behind
      if 60 < second then none
      else
        let start := start ++ ':' :: twoDigits second
        match rest with
        | '.' :: behind =>
          let digits := behind.takeWhile Char.isDigit
          if digits.isEmpty then none
          else some (start ++ fraction digits, behind.dropWhile Char.isDigit)
        | _ => some (start, rest)
    | _ => some (start, rest)

/-- An offset that makes up the rest of a text. -/
def offset? (s : List Char) : Option (List Char) :=
  match s with
  | [] => some []
  | [c] => if c = 'Z' ∨ c = 'z' then some ['Z'] else none
  | sign :: rest => do
    if sign ≠ '+' ∧ sign ≠ '-' then none
    else
      let (hours, rest) ← takeDigits 2 rest
      let ':' :: rest := rest | none
      let (minutes, rest) ← takeDigits 2 rest
      if 23 < hours ∨ 59 < minutes ∨ !rest.isEmpty then none
      else
        let sign := if hours = 0 ∧ minutes = 0 then '+' else sign
        some (sign :: twoDigits hours ++ ':' :: twoDigits minutes)

/-- The normal form of a text that is a date, a time of day, or both. -/
def normal? (s : List Char) : Option (List Char) :=
  match takeDate s with
  | some (date, []) => some date
  | some (date, mark :: rest) =>
    if mark = 'T' ∨ mark = 't' ∨ mark = ' ' then do
      let (time, rest) ← takeTime rest
      let offset ← offset? rest
      some (date ++ 'T' :: time ++ offset)
    else none
  | none =>
    match takeTime s with
    | some (time, []) => some time
    | _ => none

/-- Whether a text begins with a date, by its shape alone. -/
def startsWithDate (s : List Char) : Bool :=
  match takeDigits 4 s with
  | some (_, '-' :: _) => true
  | _ => false

example : normal? "1979-05-27 07:32:00.500z".toList = some "1979-05-27T07:32:00.5Z".toList := by
  decide +kernel

example : normal? "2023-02-29".toList = none := by decide +kernel

end PluginChain.Moment
