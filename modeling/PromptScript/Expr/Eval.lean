import PromptScript.Expr.Compare
import PromptScript.Expr.Context

/-!
Evaluation of expressions. A range is kept as such until it is needed as a list, so that loops and
membership tests work on ranges of any length.
-/
namespace PromptScript

/-- What an expression evaluates to before a value is asked for. -/
inductive Operand
  | range (r : IntRange)
  /-- A value, or none when it is absent. -/
  | value (v : Option Value)
deriving Repr

namespace Operand

/-- The length of the longest range that becomes a list. -/
def maxListLength : Nat := 100000

/-- The value of an operand; a range becomes the list of its numbers. -/
def force : Operand → Except EvalError (Option Value)
  | .value v => .ok v
  | .range r =>
    if maxListLength < r.length then .error (.rangeTooLarge r.length maxListLength)
    else .ok (some (.list (LoopItems.range r.iter).toList))

def contains (haystack : Operand) (needle : Option Value) : Except EvalError Bool :=
  match haystack with
  | .range r => .ok (Value.isInRange needle r)
  | .value v => Value.isIn needle v

/-- The items for a loop: the numbers of a range, the items of a list, the keys of a mapping, or the
characters of a string. -/
def items : Operand → Except EvalError LoopItems
  | .range r => .ok (.range r.iter)
  | .value none | .value (some .null) => .ok (.values [])
  | .value (some (.list items)) => .ok (.values items)
  | .value (some (.map entries)) => .ok (.values ((Mapping.keys entries).map .str))
  | .value (some (.str s)) => .ok (.values (s.toList.map fun c => .str c.toString))
  | .value v => .error (.notIterable (.ofValue v))

end Operand

namespace Expr

/-- How an error names an expression whose value is absent. -/
def description : Expr → String
  | .path p => p.text
  | _ => "expression"

/-- The integer that a bound of a range is. -/
def boundOf (e : Expr) : Option Value → Except EvalError Int
  | none => .error (.absent e.description)
  | some (.num n) =>
    match n.toInt64? with
    | some i => .ok i
    | none => .error (.nonIntegerRange n.text)
  | v => .error (.nonIntegerRange (Value.display v))

/-- Evaluates an expression as far as is needed to use it as an operand. -/
def operand (ctx : Context) : Expr → Except EvalError Operand
  | .literal v => .ok (.value (some v))
  | .path p => .ok (.value (ctx.resolve? p))
  | .compare op lhs rhs => do
    let l ← (← operand ctx lhs).force
    let r ← (← operand ctx rhs).force
    return .value (some (.bool (← op.holds l r)))
  | .membership negated needle haystack => do
    let n ← (← operand ctx needle).force
    let found ← (← operand ctx haystack).contains n
    return .value (some (.bool (found != negated)))
  | .not e => do
    let v ← (← operand ctx e).force
    return .value (some (.bool (!Value.isTruthy v)))
  | .and lhs rhs => do
    let l ← (← operand ctx lhs).force
    if Value.isTruthy l then
      let r ← (← operand ctx rhs).force
      return .value (some (.bool (Value.isTruthy r)))
    else return .value (some (.bool false))
  | .or lhs rhs => do
    let l ← (← operand ctx lhs).force
    if Value.isTruthy l then return .value (some (.bool true))
    else
      let r ← (← operand ctx rhs).force
      return .value (some (.bool (Value.isTruthy r)))
  | .range start stop step => do
    let stopBound ← boundOf stop (← (← operand ctx stop).force)
    let startBound ← match start with
      | some e => do boundOf e (← (← operand ctx e).force)
      | none => pure 0
    let stepBound ← match step with
      | some e => do boundOf e (← (← operand ctx e).force)
      | none => pure 1
    return .range (← IntRange.make startBound stopBound stepBound)

/-- The value of an expression, or none when it is absent. -/
def eval (ctx : Context) (e : Expr) : Except EvalError (Option Value) := do
  (← e.operand ctx).force

/-- Whether an expression holds as a condition. -/
def holds (ctx : Context) (e : Expr) : Except EvalError Bool := do
  return Value.isTruthy (← e.eval ctx)

/-- The items of an expression for a loop. -/
def items (ctx : Context) (e : Expr) : Except EvalError LoopItems := do
  (← e.operand ctx).items

def evalRange (ctx : Context) (e : Expr) : Except EvalError IntRange := do
  match ← e.operand ctx with
  | .range r => return r
  | .value v => .error (.notIterable (.ofValue v))

end Expr

end PromptScript
