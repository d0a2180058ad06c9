import PromptScript.Number.Binary64

/-!
The decimal text of a floating-point number: the fewest digits that read back as the same number,
and of those the nearest. Numbers from 0.00001 up to sixteen integer digits are written plainly.
-/
namespace PromptScript.Binary64

/-- A decimal number `digits * 10 ^ power`. -/
structure Decimal where
  digits : Nat
  power : Int
deriving DecidableEq, Repr

/-- The exponent of the leading decimal digit of `num / den`. -/
def leadingPower (num den : Nat) : Int :=
  if den ≤ num then (Nat.toDigits 10 (num / den)).length - 1
  else
    let length := (Nat.toDigits 10 (den / num)).length
    if den ≤ num * Nat.pow 10 (length - 1) then 1 - (length : Int) else -(length : Int)

/-- The reals that round to a number, as numerators over `2 ^ 2` of its last binary place: the
halves towards both neighbours, the lower one being nearer below a power of two. -/
def lowerQuarters (x : Binary64) : Nat :=
  if x.mantissa = Nat.pow 2 52 ∧ minExponent < x.exponent then 4 * x.mantissa - 1
  else 4 * x.mantissa - 2

def upperQuarters (x : Binary64) : Nat :=
  4 * x.mantissa + 2

/-- The magnitude of a number, given in quarters of its last binary place, as a fraction. -/
def quartersRatio (x : Binary64) (quarters : Nat) : Nat × Nat :=
  (quarters * Nat.pow 2 x.exponent.toNat, 4 * Nat.pow 2 (-x.exponent).toNat)

/-- Whether a decimal rounds to the number; the ends count when the mantissa is even. -/
def readsBack (x : Binary64) (d : Decimal) : Bool :=
  let (low, den) := x.quartersRatio x.lowerQuarters
  let (high, _) := x.quartersRatio x.upperQuarters
  let num := d.digits * Nat.pow 10 d.power.toNat * den
  let unit := Nat.pow 10 (-d.power).toNat
  if x.mantissa % 2 = 0 then low * unit ≤ num && num ≤ high * unit
  else low * unit < num && num < high * unit

/-- The nearest decimal with a given last place that reads back, if one does. -/
def nearestAt (x : Binary64) (power : Int) : Option Decimal :=
  let (num, den) := x.quartersRatio (4 * x.mantissa)
  let num := num * Nat.pow 10 (-power).toNat
  let den := den * Nat.pow 10 power.toNat
  let nearest := roundDiv num den
  let below := num / den
  -- The nearest point of the grid need not read back where the lower neighbour is nearer.
  let candidates := [nearest, below, below + 1].map (Decimal.mk · power)
  candidates.find? x.readsBack

/-- The fewest digits that read back; seventeen always do. -/
def shortest (x : Binary64) : Decimal :=
  let (num, den) := x.quartersRatio (4 * x.mantissa)
  let lead := leadingPower num den
  ((List.range 17).findSome? fun (extra : Nat) => x.nearestAt (lead - extra)).getD ⟨0, 0⟩

def significantDigits (d : Decimal) : List Char :=
  ((Nat.toDigits 10 d.digits).reverse.dropWhile (· = '0')).reverse

/-- Digits with a point after the first `whole` of them, padded with zeros on both sides. -/
def plainText (digits : List Char) (whole : Int) : List Char :=
  let digits := List.replicate (1 - whole).toNat '0' ++ digits
  let whole := (max 1 whole).toNat
  let digits := digits ++ List.replicate (whole + 1 - digits.length) '0'
  digits.take whole ++ '.' :: digits.drop whole

/-- Digits with a point after the first, and a signed power of ten. -/
def scientificText (digits : List Char) (power : Int) : List Char :=
  let fraction := if digits.length ≤ 1 then [] else '.' :: digits.drop 1
  let sign := if power < 0 then '-' else '+'
  digits.take 1 ++ fraction ++ ['e', sign] ++ Nat.toDigits 10 power.natAbs

def text (x : Binary64) : String :=
  let sign := if x.negative then ['-'] else []
  if x.isZero then .ofList (sign ++ ['0', '.', '0'])
  else
    let d := x.shortest
    let digits := significantDigits d
    let lead := (Nat.toDigits 10 d.digits).length + d.power - 1
    let body :=
      if -5 ≤ lead ∧ lead ≤ 15 then plainText digits (lead + 1) else scientificText digits lead
    .ofList (sign ++ body)

end PromptScript.Binary64
