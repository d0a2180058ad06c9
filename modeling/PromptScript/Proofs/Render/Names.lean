import PromptScript.Render.Output

/-!
The variables that a template mentions. What is evaluated, shown or included depends on the values of these
variables and on nothing else of a context.
-/
namespace PromptScript

mutual

/-- The variables at the roots of the paths in an expression. -/
def Expr.names : Expr → List String
  | .literal _ => []
  | .path p => [p.root]
  | .not e => e.names
  | .compare _ lhs rhs | .membership _ lhs rhs | .and lhs rhs | .or lhs rhs => lhs.names ++ rhs.names
  | .range start stop step => boundNames start ++ stop.names ++ boundNames step

def boundNames : Option Expr → List String
  | none => []
  | some e => e.names

end

def IncludePath.names : IncludePath → List String
  | .literal _ => []
  | .dynamic p => [p.root]

def Include.names (target : Include) : List String :=
  target.path.names ++ target.bindings.flatMap (·.2.names)

mutual

/-- The variables that a node mentions, at any depth. What only scripts use is not looked at. -/
def Node.names : Node → List String
  | .interpolation path => [path.root]
  | .conditional branches orElse => branchesNames branches ++ orElseNames orElse
  | .loop _ iterable body => iterable.names ++ nodesNames body
  | .include target => target.names
  | .block body => nodesNames body
  | .text _ | .functionImport .. | .effect _ | .stateAssign .. => []

def nodesNames : List Node → List String
  | [] => []
  | node :: rest => node.names ++ nodesNames rest

def branchesNames : List (Expr × List Node) → List String
  | [] => []
  | (condition, body) :: rest => condition.names ++ nodesNames body ++ branchesNames rest

def orElseNames : Option (List Node) → List String
  | none => []
  | some body => nodesNames body

end

variable {ctx other : Context}

theorem Context.resolve?_congr {path : VarPath} (same : ctx.get? path.root = other.get? path.root) :
    ctx.resolve? path = other.resolve? path := by
  rw [resolve?, resolve?, same]

theorem interpolate_congr {path : VarPath} (same : ctx.get? path.root = other.get? path.root)
    (strict : Bool) : interpolate strict ctx path = interpolate strict other path := by
  rw [interpolate, interpolate, Context.resolve?_congr same]

namespace Expr

theorem operand_congr : (e : Expr) → (∀ name ∈ e.names, ctx.get? name = other.get? name) →
    e.operand ctx = e.operand other
  | .literal _, _ => rfl
  | .path p, same => by
    rw [operand, operand, Context.resolve?_congr (same p.root (by simp [names]))]
  | .not e, same => by
    rw [names] at same
    rw [operand, operand, operand_congr e same]
  | .compare _ lhs rhs, same | .membership _ lhs rhs, same | .and lhs rhs, same | .or lhs rhs, same => by
    rw [names, List.forall_mem_append] at same
    rw [operand, operand, operand_congr lhs same.1, operand_congr rhs same.2]
  | .range start stop step, same => by
    rw [names, List.forall_mem_append, List.forall_mem_append] at same
    obtain ⟨⟨first, middle⟩, last⟩ := same
    have stop := operand_congr stop middle
    cases start with
    | none =>
      cases step with
      | none => simp only [operand, stop]
      | some width => simp only [operand, stop, operand_congr width last]
    | some lower =>
      cases step with
      | none => simp only [operand, stop, operand_congr lower first]
      | some width => simp only [operand, stop, operand_congr lower first, operand_congr width last]

variable {e : Expr}

theorem eval_congr (same : ∀ name ∈ e.names, ctx.get? name = other.get? name) :
    e.eval ctx = e.eval other := by
  rw [eval, eval, operand_congr e same]

theorem holds_congr (same : ∀ name ∈ e.names, ctx.get? name = other.get? name) :
    e.holds ctx = e.holds other := by
  rw [holds, holds, eval_congr same]

theorem items_congr (same : ∀ name ∈ e.names, ctx.get? name = other.get? name) :
    e.items ctx = e.items other := by
  rw [items, items, operand_congr e same]

end Expr

theorem IncludePath.path_congr {target : IncludePath}
    (same : ∀ name ∈ target.names, ctx.get? name = other.get? name) : target.path ctx = target.path other := by
  cases target with
  | literal => rfl
  | dynamic p =>
    rw [IncludePath.path, IncludePath.path, Context.resolve?_congr (same p.root (by simp [names]))]

theorem Include.values_congr {bindings : List (String × Expr)}
    (same : ∀ name ∈ bindings.flatMap (·.2.names), ctx.get? name = other.get? name) :
    values ctx bindings = values other bindings := by
  rw [values, values]
  -- The values are added to those of the bindings before, which differ from one step to the next.
  generalize ([] : Mapping) = vars
  induction bindings generalizing vars with
  | nil => rfl
  | cons binding rest ih =>
    rw [List.flatMap_cons, List.forall_mem_append] at same
    simp only [List.foldlM_cons, Expr.eval_congr same.1, ih same.2]

end PromptScript
