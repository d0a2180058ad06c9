import PromptScript.Value.Basic

/-!
What can go wrong when an expression is evaluated.
-/
namespace PromptScript

/-- The kinds of values, and of their absence. -/
inductive Kind
  | absent
  | null
  | boolean
  | number
  | string
  | list
  | mapping
deriving DecidableEq, Repr, Inhabited

namespace Kind

def name : Kind → String
  | .absent => "absent"
  | .null => "null"
  | .boolean => "boolean"
  | .number => "number"
  | .string => "string"
  | .list => "list"
  | .mapping => "mapping"

/-- The kind of a value, or of an absent one. -/
def ofValue : Option Value → Kind
  | none => .absent
  | some .null => .null
  | some (.bool _) => .boolean
  | some (.num _) => .number
  | some (.str _) => .string
  | some (.list _) => .list
  | some (.map _) => .mapping

end Kind

inductive EvalError
  /-- A value that must exist is absent. -/
  | absent (description : String)
  /-- An operator has no meaning between two kinds. -/
  | typeMismatch (operator : String) (lhs rhs : Kind)
  | zeroStep
  | nonIntegerRange (argument : String)
  | notIterable (kind : Kind)
  | unsupportedMembership (kind : Kind)
  /-- A range is too long to become a list. -/
  | rangeTooLarge (length limit : Nat)
deriving DecidableEq, Repr, Inhabited

def EvalError.message : EvalError → String
  | .absent description => "variable '" ++ description ++ "' is not defined"
  | .typeMismatch operator lhs rhs =>
    "cannot compare " ++ lhs.name ++ " " ++ operator ++ " " ++ rhs.name
  | .zeroStep => "range() step must not be zero"
  | .nonIntegerRange argument => "range() argument '" ++ argument ++ "' is not an integer"
  | .notIterable kind => kind.name ++ " is not iterable"
  | .unsupportedMembership kind => "'in' is not supported against " ++ kind.name
  | .rangeTooLarge length limit =>
    "range() has " ++ toString length ++ " elements, more than the " ++ toString limit
      ++ " allowed outside a for loop"

end PromptScript
