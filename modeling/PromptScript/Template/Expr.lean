import PromptScript.Template.Name
import PromptScript.Value.Basic

/-!
The expressions of conditions, loops, bindings, assignments and function arguments.
-/
namespace PromptScript

inductive CompareOp
  | eq
  | ne
  | lt
  | le
  | gt
  | ge
deriving DecidableEq, Repr, Inhabited

def CompareOp.symbol : CompareOp → String
  | .eq => "=="
  | .ne => "!="
  | .lt => "<"
  | .le => "<="
  | .gt => ">"
  | .ge => ">="

inductive Expr
  | literal (value : Value)
  | path (path : VarPath)
  | compare (op : CompareOp) (lhs rhs : Expr)
  /-- `needle in haystack`, or `needle not in haystack` when `negated`. -/
  | membership (negated : Bool) (needle haystack : Expr)
  | not (operand : Expr)
  | and (lhs rhs : Expr)
  | or (lhs rhs : Expr)
  /-- The integers from `start`, or zero, to `stop`, which is excluded. -/
  | range (start : Option Expr) (stop : Expr) (step : Option Expr)
deriving Repr, Inhabited

end PromptScript
