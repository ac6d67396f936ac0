import PluginChain.Number.Binary64
set_option autoImplicit false

/-!
# Decimal numerals of binary numbers

A finite `Binary64` is written with the fewest decimal digits that read back to
it, and among the shortest numerals with the one nearest to it.
`Decimal.shortest` finds that numeral by trying one digit, then two, and so on
up to seventeen, which always suffice: on the grid of each length it looks at
the two grid points next to the number.  `Decimal.value` is the way back.
-/

namespace PluginChain

/-- The number `digits * 10 ^ exponent`. -/
structure Decimal where
  digits : Nat
  exponent : Int
  deriving DecidableEq, Repr, Inhabited

namespace Decimal

/-- The numeral as a quotient of naturals. -/
def ratio (d : Decimal) : Nat × Nat :=
  if 0 ≤ d.exponent then (d.digits * Nat.pow 10 d.exponent.toNat, 1)
  else (d.digits, Nat.pow 10 (-d.exponent).toNat)

/-- The number of decimal digits of `n`, one for zero. -/
def digitCount (n : Nat) : Nat := (Nat.toDigits 10 n).length

/-- The binary number nearest to the numeral.  A numeral far outside the range is
settled by its order of magnitude alone. -/
def value (negative : Bool) (d : Decimal) : Binary64 :=
  let magnitude := d.exponent + digitCount d.digits
  if d.digits = 0 then .zero negative
  else if 310 < magnitude then .infinite negative
  else if magnitude < -330 then .zero negative
  else
    let (num, den) := d.ratio
    Binary64.round negative num den

/-- The same number without trailing zeros among its digits. -/
def trim (d : Decimal) : Nat → Decimal
  | 0 => d
  | fuel + 1 =>
    if d.digits ≠ 0 ∧ d.digits % 10 = 0 then trim ⟨d.digits / 10, d.exponent + 1⟩ fuel else d

/-- The exponent `k` with `10 ^ (k - 1) ≤ num / den < 10 ^ k`, searched upwards
from `k`. -/
def magnitude (num den : Nat) : Nat → Int → Int
  | 0, k => k
  | fuel + 1, k =>
    let below : Bool :=
      if 0 ≤ k then decide (num < den * Nat.pow 10 k.toNat)
      else decide (num * Nat.pow 10 (-k).toNat < den)
    if below then k else magnitude num den fuel (k + 1)

/-- The reals that round to `m * 2 ^ e`, as bounds in units of `2 ^ (e - 2)`.
Below a power of two the neighbour is only half as far away. -/
def bounds (m : Nat) (e : Int) : Nat × Nat :=
  if m = Binary64.leastNormal ∧ Binary64.minExponent < e then (4 * m - 1, 4 * m + 2)
  else (4 * m - 2, 4 * m + 2)

/-- The unit of the bounds and the unit of the grid of `10 ^ k`, brought to one denominator. -/
def units (e : Int) (k : Int) : Nat × Nat :=
  let (unitNum, unitDen) := Binary64.ratio 1 (e - 2)
  let (gridNum, gridDen) := ratio ⟨1, k⟩
  (unitNum * gridDen, gridNum * unitDen)

/-- Whether `c * 10 ^ k` reads back to `m * 2 ^ e`.  The ends of the interval read back when
the significand is even. -/
def inside (m : Nat) (e : Int) (k : Int) (c : Nat) : Bool :=
  let (lo, hi) := bounds m e
  let (unit, grid) := units e k
  if m % 2 = 0 then decide (lo * unit ≤ c * grid) && decide (c * grid ≤ hi * unit)
  else decide (lo * unit < c * grid) && decide (c * grid < hi * unit)

/-- The nearest numeral with digits at `10 ^ k` and above that reads back to
`m * 2 ^ e`, if there is one. -/
def onGrid? (m : Nat) (e : Int) (k : Int) : Option Decimal :=
  let (unit, grid) := units e k
  let v := 4 * m * unit
  let below := v / grid
  let above := below + 1
  let nearestIsBelow : Bool :=
    let down := v - below * grid
    let up := above * grid - v
    down < up || (down == up && below % 2 == 0)
  if inside m e k below && (nearestIsBelow || !inside m e k above) then some ⟨below, k⟩
  else if inside m e k above then some ⟨above, k⟩
  else none

/-- The first grid, of those with `n`, `n + 1`, … digits, that has a numeral. -/
def search (m : Nat) (e : Int) (top : Int) : Nat → Nat → Decimal
  | 0, n => (onGrid? m e (top - n)).getD ⟨m, 0⟩
  | fuel + 1, n =>
    match onGrid? m e (top - n) with
    | some d => d
    | none => search m e top fuel (n + 1)

/-- The shortest numeral that reads back to `m * 2 ^ e`. -/
def shortest (m : Nat) (e : Int) : Decimal :=
  if m = 0 then ⟨0, 0⟩
  else
    let (num, den) := Binary64.ratio m e
    -- A first guess from the binary order of magnitude, at most the true exponent.
    let guess : Int := (Binary64.floorLog2 num den) * 30103 / 100000 - 1
    let top := magnitude num den 8 guess
    trim (search m e top 17 1) 20

/-- The digits as text. -/
def digitText (d : Decimal) : List Char := Nat.toDigits 10 d.digits

/-- Plain notation: all digits written out, with a point only before a fraction. -/
def positional (d : Decimal) : List Char :=
  let ds := d.digitText
  if 0 ≤ d.exponent then
    if d.digits = 0 then ['0'] else ds ++ List.replicate d.exponent.toNat '0'
  else
    let point : Int := ds.length + d.exponent
    if 0 < point then ds.take point.toNat ++ '.' :: ds.drop point.toNat
    else '0' :: '.' :: (List.replicate (-point).toNat '0' ++ ds)

/-- Digits with a point behind the first one, if there are others. -/
def pointed : List Char → List Char
  | [] => ['0']
  | [c] => [c]
  | c :: cs => c :: '.' :: cs

/-- Scientific notation: one digit before the point, and the exponent with its sign
after an `e`. -/
def scientific (d : Decimal) : List Char :=
  let ds := d.digitText
  let e : Int := ds.length + d.exponent - 1
  pointed ds ++ 'e' :: (if e < 0 then '-' else '+') :: Nat.toDigits 10 e.natAbs

example : shortest 0x1999999999999A (-56) = ⟨1, -1⟩ := by decide +kernel

example : shortest 1 (-1074) = ⟨5, -324⟩ := by decide +kernel

example : positional ⟨15, -1⟩ = "1.5".toList := by decide

example : scientific ⟨15, 299⟩ = "1.5e+300".toList := by decide +kernel

example : scientific ⟨5, -324⟩ = "5e-324".toList := by decide +kernel

end Decimal

end PluginChain
