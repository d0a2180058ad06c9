import PromptScript.Proofs.Computation
import PromptScript.Render.Output

/-!
Two ways to expand includes. What relates them for each include of some nodes relates the ways in
which these nodes are rendered, if it is kept by sequences.
-/
namespace PromptScript

mutual

/-- The includes of a node, at any depth. -/
def Node.includes : Node → List Include
  | .include target => [target]
  | .conditional branches orElse => branchesIncludes branches ++ orElseIncludes orElse
  | .loop _ _ body | .block body => nodesIncludes body
  | .text _ | .interpolation _ | .functionImport .. | .effect _ | .stateAssign .. => []

def nodesIncludes : List Node → List Include
  | [] => []
  | node :: rest => node.includes ++ nodesIncludes rest

def branchesIncludes : List (Expr × List Node) → List Include
  | [] => []
  | (_, body) :: rest => nodesIncludes body ++ branchesIncludes rest

def orElseIncludes : Option (List Node) → List Include
  | none => []
  | some body => nodesIncludes body

end

/-- A relation between computations that holds of what needs no template, and that sequences keep. -/
structure Loading.Congruence (Related : ∀ {α : Type}, Loading α → Loading α → Prop) : Prop where
  ofEval : ∀ {α : Type} (result : Except EvalError α),
    Related (Loading.ofEval result) (Loading.ofEval result)
  bind : ∀ {α β : Type} {first first' : Loading α} {second second' : α → Loading β},
    Related first first' → (∀ a, Related (second a) (second' a)) →
      Related (first >>= second) (first' >>= second')

namespace Loading.Congruence

variable {α : Type} {Related : ∀ {α : Type}, Loading α → Loading α → Prop}

theorem pure (congruence : Congruence Related) (a : α) :
    Related (pure a : Loading α) (pure a) :=
  congruence.ofEval (.ok a)

theorem collectFrom (congruence : Congruence Related) {text text' : Value → Loading String}
    (related : ∀ value, Related (text value) (text' value)) (before : String) (items : LoopItems) :
    Related (items.collectFrom before text) (items.collectFrom before text') := by
  -- Of each item that is taken, fewer are left.
  induction bound : items.bound using Nat.strongRecOn generalizing items before with
  | ind n ih =>
    cases found : items.next? with
    | none =>
      simp only [LoopItems.collectFrom_of_next?_none found]
      exact congruence.pure before
    | some next =>
      simp only [LoopItems.collectFrom_of_next?_some found]
      refine congruence.bind (related next.1) fun more => ?_
      exact ih _ (bound ▸ LoopItems.bound_next_lt found) _ next.2 rfl

end Loading.Congruence

section

variable {Related : ∀ {α : Type}, Loading α → Loading α → Prop} {strict : Bool}
  {expand expand' : Include → Context → Loading String}

mutual

theorem Node.render_related (congruence : Loading.Congruence Related) : (node : Node) →
    (∀ target ∈ node.includes, ∀ ctx, Related (expand target ctx) (expand' target ctx)) → ∀ ctx,
      Related (node.render strict expand ctx) (node.render strict expand' ctx)
  | .text text, _, _ => congruence.pure text
  | .interpolation path, _, ctx => congruence.ofEval _
  | .block body, expands, ctx => by
    rw [Node.render, Node.render]
    rw [Node.includes] at expands
    exact renderNodes_related congruence body expands ctx
  | .conditional branches orElse, expands, ctx => by
    rw [Node.render, Node.render]
    rw [Node.includes, List.forall_mem_append] at expands
    refine congruence.bind (renderBranches_related congruence branches expands.1 ctx) fun found => ?_
    cases found with
    | some text => exact congruence.pure text
    | none => exact renderLast_related congruence orElse expands.2 ctx
  | .loop var iterable body, expands, ctx => by
    rw [Node.render, Node.render]
    rw [Node.includes] at expands
    refine congruence.bind (congruence.ofEval _) fun items => ?_
    exact congruence.collectFrom
      (fun value => renderNodes_related congruence body expands (ctx.child [(var, value)])) "" items
  | .include target, expands, ctx => by
    rw [Node.render, Node.render]
    rw [Node.includes] at expands
    exact expands target List.mem_cons_self ctx
  | .functionImport .., _, _ | .effect _, _, _ | .stateAssign .., _, _ => by
    rw [Node.render, Node.render]
    exact congruence.pure ""

theorem renderNodes_related (congruence : Loading.Congruence Related) : (nodes : List Node) →
    (∀ target ∈ nodesIncludes nodes, ∀ ctx, Related (expand target ctx) (expand' target ctx)) →
      ∀ ctx, Related (renderNodes strict expand ctx nodes) (renderNodes strict expand' ctx nodes)
  | [], _, _ => congruence.pure ""
  | node :: rest, expands, ctx => by
    rw [renderNodes, renderNodes]
    rw [nodesIncludes, List.forall_mem_append] at expands
    refine congruence.bind (Node.render_related congruence node expands.1 ctx) fun text => ?_
    refine congruence.bind (renderNodes_related congruence rest expands.2 ctx) fun more => ?_
    exact congruence.pure (text ++ more)

theorem renderBranches_related (congruence : Loading.Congruence Related) :
    (branches : List (Expr × List Node)) →
    (∀ target ∈ branchesIncludes branches, ∀ ctx, Related (expand target ctx) (expand' target ctx)) →
      ∀ ctx, Related (renderBranches strict expand ctx branches)
        (renderBranches strict expand' ctx branches)
  | [], _, _ => congruence.pure none
  | (condition, body) :: rest, expands, ctx => by
    rw [renderBranches, renderBranches]
    rw [branchesIncludes, List.forall_mem_append] at expands
    refine congruence.bind (congruence.ofEval _) fun holds => ?_
    cases holds with
    | true =>
      refine congruence.bind (renderNodes_related congruence body expands.1 ctx) fun text => ?_
      exact congruence.pure (some text)
    | false => exact renderBranches_related congruence rest expands.2 ctx

theorem renderLast_related (congruence : Loading.Congruence Related) : (orElse : Option (List Node)) →
    (∀ target ∈ orElseIncludes orElse, ∀ ctx, Related (expand target ctx) (expand' target ctx)) →
      ∀ ctx, Related (renderLast strict expand ctx orElse) (renderLast strict expand' ctx orElse)
  | none, _, _ => congruence.pure ""
  | some body, expands, ctx => renderNodes_related congruence body expands ctx

end

end

end PromptScript
