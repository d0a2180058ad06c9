import PromptScript.Expr.EvalError
import PromptScript.Expr.IntRange
import PromptScript.Template.Expr
import PromptScript.Text.Trim
import PromptScript.Value.Printer

/-!
Truth, equality, order and membership of values. An absent value is equal to null.
-/
namespace PromptScript

/-- Signed integers are compared exactly; any other two numbers as floating-point numbers. -/
def Number.order (a b : Number) : Ordering :=
  match a.toInt64?, b.toInt64? with
  | some x, some y => compare x y
  | _, _ => a.toBinary64.order b.toBinary64

namespace Value

/-- Absent, null, false, zero and everything empty are false. -/
def isTruthy : Option Value → Bool
  | none | some .null => false
  | some (.bool b) => b
  | some (.num n) => !n.isZero
  | some (.str s) => !s.isEmpty
  | some (.list items) => !items.isEmpty
  | some (.map entries) => !entries.isEmpty

/-- The text that stands for a value in prose: nothing for absent and null, strings as they are, and
everything else as compact JSON. -/
def display : Option Value → String
  | none | some .null => ""
  | some (.str s) => s
  | some value => value.toText

mutual

/-- Whether two values are the same data; mappings may differ in the order of their keys. -/
def same : Value → Value → Bool
  | .num a, .num b => a.order b == .eq
  | .list a, .list b => sameItems a b
  | .map a, .map b => a.length == b.length && sameEntries a b
  | .null, .null => true
  | .bool a, .bool b => a == b
  | .str a, .str b => a == b
  | _, _ => false

def sameItems : List Value → List Value → Bool
  | [], [] => true
  | a :: as, b :: bs => same a b && sameItems as bs
  | _, _ => false

/-- Whether all entries of the first mapping are in the second. -/
def sameEntries : List (String × Value) → List (String × Value) → Bool
  | [], _ => true
  | (key, a) :: rest, other =>
    (match Mapping.get? other key with
      | some b => same a b
      | none => false) && sameEntries rest other

end

/-- Equality of values that may be absent. -/
def equals (lhs rhs : Option Value) : Bool :=
  same (lhs.getD .null) (rhs.getD .null)

/-- The order of two numbers, two strings or two booleans. -/
def order? : Option Value → Option Value → Option Ordering
  | some (.num a), some (.num b) => some (a.order b)
  | some (.str a), some (.str b) => some (compare a b)
  | some (.bool a), some (.bool b) => some (compare a b)
  | _, _ => none

/-- The order of two values, or the error that they have none. -/
def orderFor (op : CompareOp) (lhs rhs : Option Value) : Except EvalError Ordering :=
  match order? lhs rhs with
  | some ordering => .ok ordering
  | none => .error (.typeMismatch op.symbol (.ofValue lhs) (.ofValue rhs))

end Value

def CompareOp.holds (op : CompareOp) (lhs rhs : Option Value) : Except EvalError Bool :=
  match op with
  | .eq => .ok (Value.equals lhs rhs)
  | .ne => .ok (!Value.equals lhs rhs)
  | .lt => (Value.orderFor op lhs rhs).map (·.isLT)
  | .le => (Value.orderFor op lhs rhs).map (·.isLE)
  | .gt => (Value.orderFor op lhs rhs).map (·.isGT)
  | .ge => (Value.orderFor op lhs rhs).map (·.isGE)

namespace Value

/-- Whether `needle` is an item of a list, a key of a mapping, or a part of a string. -/
def isIn (needle haystack : Option Value) : Except EvalError Bool :=
  match haystack with
  | none | some .null => .ok false
  | some (.list items) => .ok (items.any fun item => equals needle (some item))
  | some (.map entries) =>
    match needle with
    | some (.str key) => .ok (Mapping.contains entries key)
    | _ => .ok false
  | some (.str text) =>
    match needle with
    | some (.str part) => .ok (Text.occursIn part.toList text.toList)
    | other => .error (.typeMismatch "in" (.ofValue other) .string)
  | other => .error (.unsupportedMembership (.ofValue other))

/-- Whether a value is a number of a range; an integral floating-point number may be one. -/
def isInRange (needle : Option Value) (r : IntRange) : Bool :=
  match needle with
  | some (.num n) =>
    match n.toInt64?.or (n.toBinary64.toInt?.filter fitsInt64) with
    | some i => r.contains i
    | none => false
  | _ => false

end Value

end PromptScript
