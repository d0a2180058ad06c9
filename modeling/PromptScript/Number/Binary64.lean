/-!
Finite binary floating-point numbers with 53 significant bits, as exact multiples of powers of two.
Rounding goes to the nearest number, and to the even one of two that are equally near.
-/
namespace PromptScript

/-- The number `± mantissa * 2 ^ exponent`. Numbers built by `roundRatio` are normal: the mantissa
is below `2 ^ 53`, and below `2 ^ 52` only at the least exponent. -/
structure Binary64 where
  negative : Bool
  mantissa : Nat
  exponent : Int
deriving DecidableEq, Repr, Inhabited

namespace Binary64

/-- The exponent of the numbers nearest to zero. -/
def minExponent : Int := -1074

/-- The exponent of the numbers furthest from zero. -/
def maxExponent : Int := 971

def zero (negative : Bool) : Binary64 := ⟨negative, 0, minExponent⟩

/-- The quotient rounded to the nearest integer, a half going to the even one. -/
def roundDiv (num den : Nat) : Nat :=
  let quotient := num / den
  let twice := 2 * (num % den)
  if twice < den then quotient
  else if den < twice then quotient + 1
  else quotient + quotient % 2

/-- `num / den / 2 ^ exponent` as a fraction. -/
def scaled (num den : Nat) (exponent : Int) : Nat × Nat :=
  (num * Nat.pow 2 (-exponent).toNat, den * Nat.pow 2 exponent.toNat)

/-- The exponent at which `num / den` has 53 bits before the point, if that exponent is allowed. -/
def exponentOf (num den : Nat) : Int :=
  let guess : Int := num.log2 - den.log2 - 52
  let (n, d) := scaled num den guess
  max minExponent (if n / d < Nat.pow 2 52 then guess - 1 else guess)

/-- The number nearest to `± num / den`, unless it is out of range. -/
def roundRatio (negative : Bool) (num den : Nat) : Option Binary64 :=
  if num = 0 then some (zero negative)
  else
    let exponent := exponentOf num den
    let (n, d) := scaled num den exponent
    let mantissa := roundDiv n d
    let (mantissa, exponent) :=
      if mantissa = Nat.pow 2 53 then (Nat.pow 2 52, exponent + 1) else (mantissa, exponent)
    if maxExponent < exponent then none else some ⟨negative, mantissa, exponent⟩

/-- The number nearest to `± digits * 10 ^ power`, unless it is out of range. Powers far outside
the range are settled by their size alone. -/
def ofDecimal (negative : Bool) (digits : Nat) (power : Int) : Option Binary64 :=
  let magnitude : Int := (Nat.toDigits 10 digits).length + power
  if digits = 0 ∨ magnitude < -400 then some (zero negative)
  else if 400 < magnitude then none
  else roundRatio negative (digits * Nat.pow 10 power.toNat) (Nat.pow 10 (-power).toNat)

/-- The number nearest to an integer of at most 64 bits. -/
def ofInt (n : Int) : Binary64 :=
  (roundRatio (n < 0) n.natAbs 1).getD (zero false)

def significand (x : Binary64) : Int :=
  if x.negative then -x.mantissa else x.mantissa

/-- Whether the number is zero of either sign. -/
def isZero (x : Binary64) : Bool :=
  x.mantissa == 0

/-- Numeric order; zeros of both signs are equal. -/
def order (x y : Binary64) : Ordering :=
  let least := min x.exponent y.exponent
  compare (x.significand * Nat.pow 2 (x.exponent - least).toNat)
    (y.significand * Nat.pow 2 (y.exponent - least).toNat)

/-- The integer that the number is, if it is one. -/
def toInt? (x : Binary64) : Option Int :=
  if 0 ≤ x.exponent then some (x.significand * Nat.pow 2 x.exponent.toNat)
  else
    let unit : Int := Nat.pow 2 (-x.exponent).toNat
    if x.significand % unit = 0 then some (x.significand / unit) else none

end Binary64

end PromptScript
