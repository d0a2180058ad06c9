import PromptScript.Yaml.Scalar

/-!
What plain scalars spell, which their text alone decides.
-/
namespace PromptScript.Yaml

def isNull (text : List Char) : Bool :=
  ["", "~", "null", "Null", "NULL"].contains (.ofList text)

def bool? (text : List Char) : Option Bool :=
  if ["true", "True", "TRUE"].contains (.ofList text) then some true
  else if ["false", "False", "FALSE"].contains (.ofList text) then some false
  else none

/-- A text without a sign at its start, which may be a minus, or a plus. -/
def splitSign : List Char → Bool × List Char
  | '-' :: rest => (true, rest)
  | '+' :: rest => (false, rest)
  | text => (false, text)

/-- Whether digits start with a zero that does not stand alone, and so do not spell a number. -/
def hasExtraZero (digits : List Char) : Bool :=
  1 < digits.length && digits.head? == some '0' && digits.all Char.isDigit

/-- The integer that a plain scalar spells, in base 10, 16, 8 or 2. -/
def int? (text : List Char) : Option Int :=
  let (negative, rest) := splitSign text
  let magnitude := match rest with
    | '0' :: 'x' :: digits => digits? 16 digits
    | '0' :: 'o' :: digits => digits? 8 digits
    | '0' :: 'b' :: digits => digits? 2 digits
    | digits => if hasExtraZero digits then none else digits? 10 digits
  magnitude.map fun n => if negative then -n else n

/-- The floating-point number that a text spells: digits around an optional point, and an optional
exponent. -/
def decimal? (text : List Char) : Option Binary64 := do
  let (negative, rest) := splitSign text
  let (whole, rest) := Value.spanDigits rest
  let (fraction, rest) := match rest with
    | '.' :: more => Value.spanDigits more
    | more => ([], more)
  let (exponent, rest) ← Value.readExponent rest
  if (whole.isEmpty ∧ fraction.isEmpty) ∨ ¬rest.isEmpty then none
  else
    Binary64.ofDecimal negative (Value.digitsValue (whole ++ fraction))
      (exponent.getD 0 - fraction.length)

/-- The floating-point number that a plain scalar spells. -/
def float? (text : List Char) : Option Binary64 :=
  if hasExtraZero (splitSign text).2 then none else decimal? text

/-- Whether a plain scalar spells an infinite number or none at all. -/
def isNotFinite (text : List Char) : Bool :=
  [".inf", ".Inf", ".INF", "+.inf", "+.Inf", "+.INF", "-.inf", "-.Inf", "-.INF", ".nan", ".NaN",
    ".NAN"].contains (.ofList text)

/-- The value of a plain scalar. An integer must fit into 64 bits, unless it is so large that it
becomes a floating-point number; what is not finite becomes null. -/
def plainValue? (text : List Char) : Option Value :=
  if isNull text then some .null
  else
    match bool? text, int? text with
    | some b, _ => some (.bool b)
    | none, some n =>
      if fitsInteger n then some (.int n)
      else if -Nat.pow 2 127 ≤ n ∧ n < Nat.pow 2 128 then none
      else some (((float? text).map fun x => .num (.float x)).getD (.str (.ofList text)))
    | none, none =>
      match float? text with
      | some x => some (.num (.float x))
      | none => some (if isNotFinite text then .null else .str (.ofList text))

end PromptScript.Yaml
