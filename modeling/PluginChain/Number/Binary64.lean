set_option autoImplicit false

/-!
# Binary floating-point numbers of 64 bits

`Binary64` holds the double-precision numbers as a sign, a significand and a
power of two, so that their arithmetic is arithmetic of integers.  A finite number
comes with a proof that this is its one form.  Every operation computes the exact
quotient of two naturals and rounds it once: `Binary64.round` returns the
representable number nearest to that quotient, of two equally near the one with the
even significand, and an infinity beyond the largest finite number.
-/

namespace PluginChain

namespace Binary64

/-- The exponent of the subnormal numbers. -/
def minExponent : Int := -1074

/-- The exponent of the largest finite number. -/
def maxExponent : Int := 971

/-- The least significand of a number that is not subnormal, two to the power 52. -/
def leastNormal : Nat := 4503599627370496

/-- Whether a significand and an exponent are the one form of a number: the exponent is
as small as a significand of 53 bits allows. -/
def Canonical (m : Nat) (e : Int) : Prop :=
  m < 2 * leastNormal ∧ minExponent ≤ e ∧ e ≤ maxExponent ∧ (leastNormal ≤ m ∨ e = minExponent)

instance (m : Nat) (e : Int) : Decidable (Canonical m e) :=
  inferInstanceAs (Decidable (_ ∧ _))

end Binary64

/-- A double-precision number.  The magnitude of `finite n m e` is `m * 2 ^ e`. -/
inductive Binary64 where
  | finite (negative : Bool) (significand : Nat) (exponent : Int)
      (canonical : Binary64.Canonical significand exponent)
  | infinite (negative : Bool)
  | nan
  deriving DecidableEq, Repr, Inhabited

namespace Binary64

/-- Zero, with a sign. -/
def zero (negative : Bool) : Binary64 := .finite negative 0 minExponent (by decide)

/-- The quotient `num / den` rounded to an integer, a half to the even one. -/
def roundHalfEven (num den : Nat) : Nat :=
  let q := num / den
  let r := num % den
  if 2 * r < den then q
  else if den < 2 * r then q + 1
  else if q % 2 = 0 then q else q + 1

/-- The exponent `k` with `2 ^ k ≤ num / den < 2 ^ (k + 1)`. -/
def floorLog2 (num den : Nat) : Int :=
  let k : Int := (num.log2 : Int) - (den.log2 : Int)
  let reached : Bool :=
    if 0 ≤ k then decide (den * Nat.pow 2 k.toNat ≤ num)
    else decide (den ≤ num * Nat.pow 2 (-k).toNat)
  if reached then k else k - 1

/-- The number nearest to `num / den`, where `den` is not zero. -/
def round (negative : Bool) (num den : Nat) : Binary64 :=
  if num = 0 then zero negative
  else
    let q := max (floorLog2 num den - 52) minExponent
    let m :=
      if 0 ≤ q then roundHalfEven num (den * Nat.pow 2 q.toNat)
      else roundHalfEven (num * Nat.pow 2 (-q).toNat) den
    -- Rounding up may reach the next power of two.
    let (m, q) := if m = 2 * leastNormal then (leastNormal, q + 1) else (m, q)
    -- Only a number beyond the largest finite one is left without a form.
    if canonical : Canonical m q then .finite negative m q canonical else .infinite negative

/-- The number nearest to a natural. -/
def ofNat (n : Nat) : Binary64 := round false n 1

/-- The magnitude `m * 2 ^ e` as a quotient of naturals. -/
def ratio (m : Nat) (e : Int) : Nat × Nat :=
  if 0 ≤ e then (m * Nat.pow 2 e.toNat, 1) else (m, Nat.pow 2 (-e).toNat)

/-- The negative of a number. -/
def neg : Binary64 → Binary64
  | .finite n m e canonical => .finite (!n) m e canonical
  | .infinite n => .infinite (!n)
  | .nan => .nan

/-- The product, rounded once. -/
def mul : Binary64 → Binary64 → Binary64
  | .finite n m e _, .finite n' m' e' _ =>
    let (num, den) := ratio (m * m') (e + e')
    round (n != n') num den
  | .finite n m _ _, .infinite n' => if m = 0 then .nan else .infinite (n != n')
  | .infinite n, .finite n' m _ _ => if m = 0 then .nan else .infinite (n != n')
  | .infinite n, .infinite n' => .infinite (n != n')
  | _, _ => .nan

/-- The quotient, rounded once. -/
def div : Binary64 → Binary64 → Binary64
  | .finite n m e _, .finite n' m' e' _ =>
    if m' = 0 then
      if m = 0 then .nan else .infinite (n != n')
    else
      let (num, den) := ratio m (e - e')
      round (n != n') num (den * m')
  | .finite n _ _ _, .infinite n' => zero (n != n')
  | .infinite n, .finite n' _ _ _ => .infinite (n != n')
  | _, _ => .nan

/-- Whether the number is zero, of either sign. -/
def isZero : Binary64 → Bool
  | .finite _ m _ _ => m == 0
  | _ => false

/-- Whether the number is neither infinite nor a NaN. -/
def isFinite : Binary64 → Bool
  | .finite _ _ _ _ => true
  | _ => false

/-- Equality of the values: the two zeros are equal and a NaN equals nothing. -/
def equal : Binary64 → Binary64 → Bool
  | .finite n m e _, .finite n' m' e' _ => (m == 0 && m' == 0) || (n == n' && m == m' && e == e')
  | .infinite n, .infinite n' => n == n'
  | _, _ => false

/-- Ten to a power, as the nearest number. -/
example : ofNat 10 = .finite false (10 * 2 ^ 49) (-49) (by decide) := by decide

example : round false 1 10 = .finite false 0x1999999999999A (-56) (by decide) := by decide +kernel

end Binary64

end PluginChain
