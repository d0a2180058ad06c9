import PromptScript.Template.Name
import PromptScript.Value.Reader

/-!
Variable scopes. Loops and includes open scopes of their own; a name is looked up from the innermost
scope outwards, and nothing is ever bound in an outer scope.
-/
namespace PromptScript

structure Context where
  scopes : List Mapping
deriving DecidableEq, Repr, Inhabited

namespace Context

def empty : Context := ⟨[]⟩

/-- One scope that holds the given variables. -/
def ofMapping (vars : Mapping) : Context := ⟨[vars]⟩

/-- The context with a new innermost scope. -/
def child (ctx : Context) (vars : Mapping) : Context := ⟨vars :: ctx.scopes⟩

/-- The value of a variable in the first scope that has it. -/
def lookup? : List Mapping → String → Option Value
  | [], _ => none
  | scope :: outer, name =>
    match Mapping.get? scope name with
    | some value => some value
    | none => lookup? outer name

def get? (ctx : Context) (name : String) : Option Value :=
  lookup? ctx.scopes name

def index? (segment : String) : Option Nat :=
  if !segment.isEmpty ∧ segment.toList.all Char.isDigit then
    some (Value.digitsValue segment.toList)
  else none

/-- The part of a value that a segment of a path names: an entry of a mapping or an item of a
list. -/
def select? (value : Value) (segment : String) : Option Value :=
  match value with
  | .map entries => Mapping.get? entries segment
  | .list items => (index? segment).bind fun i => items[i]?
  | _ => none

/-- The value that a path leads to. -/
def resolve? (ctx : Context) (path : VarPath) : Option Value := do
  path.rest.foldlM select? (← ctx.get? path.root)

/-- All bindings in one scope, in which inner bindings win. -/
def flatten (ctx : Context) : Mapping :=
  ctx.scopes.foldr (fun scope outer => Mapping.merge outer scope) []

@[simp] theorem get?_empty (name : String) : empty.get? name = none := rfl

theorem get?_child (ctx : Context) (vars : Mapping) (name : String) :
    (ctx.child vars).get? name = (Mapping.get? vars name).or (ctx.get? name) := by
  simp only [get?, child, lookup?]
  split <;> simp_all

end Context

end PromptScript
