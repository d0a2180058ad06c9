import PromptScript.Proofs.Render.Names
import PromptScript.Proofs.Value.Mapping

/-!
Contexts that give every name the same value are interchangeable: expressions evaluate alike in them,
and templates render alike, with all that they include. A context agrees with the one scope into which
its scopes are flattened, in which inner bindings win.
-/
namespace PromptScript

namespace Context

/-- In every scope, no name is bound twice. -/
def Distinct (ctx : Context) : Prop :=
  ∀ scope ∈ ctx.scopes, (Mapping.keys scope).Nodup

instance (ctx : Context) : Decidable ctx.Distinct :=
  inferInstanceAs (Decidable (∀ scope ∈ ctx.scopes, (Mapping.keys scope).Nodup))

/-- Two contexts give every name the same value. -/
def Agrees (ctx other : Context) : Prop :=
  ∀ name, ctx.get? name = other.get? name

theorem get?_ofMapping (vars : Mapping) (name : String) :
    (ofMapping vars).get? name = Mapping.get? vars name := by
  simp only [get?, ofMapping, lookup?]
  split <;> simp_all

theorem get?_flatten {ctx : Context} (distinct : ctx.Distinct) (name : String) :
    Mapping.get? ctx.flatten name = ctx.get? name := by
  obtain ⟨scopes⟩ := ctx
  induction scopes with
  | nil => rfl
  | cons scope outer ih =>
    have inner := distinct scope List.mem_cons_self
    have outwards : Distinct ⟨outer⟩ := fun s known => distinct s (List.mem_cons_of_mem _ known)
    exact (Mapping.get?_merge inner (flatten ⟨outer⟩) name).trans
      ((congrArg _ (ih outwards)).trans (get?_child ⟨outer⟩ scope name).symm)

namespace Agrees

variable {ctx other : Context}

theorem child (agrees : ctx.Agrees other) (vars : Mapping) :
    (ctx.child vars).Agrees (other.child vars) := by
  intro name
  rw [get?_child, get?_child, agrees name]

theorem eval (agrees : ctx.Agrees other) (e : Expr) : e.eval ctx = e.eval other :=
  Expr.eval_congr fun name _ => agrees name

theorem holds (agrees : ctx.Agrees other) (e : Expr) : e.holds ctx = e.holds other :=
  Expr.holds_congr fun name _ => agrees name

theorem items (agrees : ctx.Agrees other) (e : Expr) : e.items ctx = e.items other :=
  Expr.items_congr fun name _ => agrees name

theorem interpolate (agrees : ctx.Agrees other) (strict : Bool) (path : VarPath) :
    interpolate strict ctx path = PromptScript.interpolate strict other path :=
  interpolate_congr (agrees path.root) strict

theorem includeResolve (agrees : ctx.Agrees other) (fs : FileSystem) (extension dir : String)
    (chain : List String) (target : Include) :
    target.resolve fs extension ctx dir chain = target.resolve fs extension other dir chain := by
  have path : target.path.path ctx = target.path.path other :=
    IncludePath.path_congr fun name _ => agrees name
  have values : Include.values ctx target.bindings = Include.values other target.bindings :=
    Include.values_congr fun name _ => agrees name
  simp only [Include.resolve, IncludePath.locate, IncludePath.completePath, path, values]

end Agrees

end Context

/-- Renders includes alike in contexts that agree. -/
def Uniform (expand : Include → Context → Loading String) : Prop :=
  ∀ target ctx other, Context.Agrees ctx other → expand target ctx = expand target other

section

variable {strict : Bool} {expand : Include → Context → Loading String}

mutual

theorem Node.render_uniform (uniform : Uniform expand) : (node : Node) →
    ∀ ctx other, Context.Agrees ctx other →
      node.render strict expand ctx = node.render strict expand other
  | .text _, _, _, _ => rfl
  | .interpolation path, _, _, agrees => by rw [Node.render, Node.render, agrees.interpolate]
  | .block body, ctx, other, agrees => by
    rw [Node.render, Node.render, renderNodes_uniform uniform body ctx other agrees]
  | .conditional branches orElse, ctx, other, agrees => by
    rw [Node.render, Node.render, renderBranches_uniform uniform branches ctx other agrees,
      renderLast_uniform uniform orElse ctx other agrees]
  | .loop var iterable body, ctx, other, agrees => by
    -- The loop variable comes before both contexts.
    have bodies : (fun value => renderNodes strict expand (ctx.child [(var, value)]) body) =
        fun value => renderNodes strict expand (other.child [(var, value)]) body :=
      funext fun value => renderNodes_uniform uniform body _ _ (agrees.child [(var, value)])
    rw [Node.render, Node.render, agrees.items, bodies]
  | .include target, ctx, other, agrees => by
    rw [Node.render, Node.render, uniform target ctx other agrees]
  | .functionImport .., _, _, _ | .effect _, _, _, _ | .stateAssign .., _, _, _ => by
    rw [Node.render, Node.render]

theorem renderNodes_uniform (uniform : Uniform expand) : (nodes : List Node) →
    ∀ ctx other, Context.Agrees ctx other →
      renderNodes strict expand ctx nodes = renderNodes strict expand other nodes
  | [], _, _, _ => rfl
  | node :: rest, ctx, other, agrees => by
    rw [renderNodes, renderNodes, Node.render_uniform uniform node ctx other agrees,
      renderNodes_uniform uniform rest ctx other agrees]

theorem renderBranches_uniform (uniform : Uniform expand) : (branches : List (Expr × List Node)) →
    ∀ ctx other, Context.Agrees ctx other →
      renderBranches strict expand ctx branches = renderBranches strict expand other branches
  | [], _, _, _ => rfl
  | (condition, body) :: rest, ctx, other, agrees => by
    rw [renderBranches, renderBranches, agrees.holds, renderNodes_uniform uniform body ctx other agrees,
      renderBranches_uniform uniform rest ctx other agrees]

theorem renderLast_uniform (uniform : Uniform expand) : (orElse : Option (List Node)) →
    ∀ ctx other, Context.Agrees ctx other →
      renderLast strict expand ctx orElse = renderLast strict expand other orElse
  | none, _, _, _ => rfl
  | some body, ctx, other, agrees => renderNodes_uniform uniform body ctx other agrees

end

end

/-- What includes stand for renders alike, however deep they nest. -/
theorem expandInclude_uniform (fs : FileSystem) (options : RenderOptions) (chain : List String)
    (dir : String) : Uniform (expandInclude fs options chain dir) := by
  -- Each include adds a file to the chain, of which fewer files are left out.
  induction outside : fs.countOutside chain using Nat.strongRecOn generalizing chain dir with
  | ind n ih =>
    intro target ctx other agrees
    rw [expandInclude, expandInclude, agrees.includeResolve]
    congr 1
    funext ⟨path, isFile, isNew, template, bindings⟩
    have fewer := FileSystem.countOutside_append_lt isFile isNew
    exact renderNodes_uniform (ih _ (outside ▸ fewer) _ _ rfl) template.nodes _ _
      (agrees.child bindings)

theorem render_uniform {ctx other : Context} (agrees : ctx.Agrees other) (fs : FileSystem)
    (options : RenderOptions) (dir : String) (nodes : List Node) :
    render fs options dir nodes ctx = render fs options dir nodes other :=
  renderNodes_uniform (expandInclude_uniform fs options [] dir) nodes ctx other agrees

end PromptScript
