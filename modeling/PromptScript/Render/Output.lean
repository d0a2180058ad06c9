import PromptScript.Render.Include

/-!
The text that a template renders to. Nodes are rendered from left to right; the first error ends the
walk, and no partial text is left. Only scripts use the nodes for imports, assignments and effects:
here they render to nothing.

A walk ends whatever the files include: the files being expanded are existing files and pairwise
distinct, so that includes nest at most as deep as there are files.
-/
namespace PromptScript

namespace LoopItems

/-- The texts of all items, one after the other, behind a first text. -/
def collectFrom (text : String) (items : LoopItems) (f : Value → Loading String) :
    Loading String := do
  match found : items.next? with
  | none => return text
  | some (value, rest) =>
    have := bound_next_lt found
    collectFrom (text ++ (← f value)) rest f
termination_by items.bound

theorem collectFrom_of_next?_none {items : LoopItems} (h : items.next? = none) (text : String)
    (f : Value → Loading String) : items.collectFrom text f = pure text := by
  rw [collectFrom]
  split
  · rfl
  · next found => rw [h] at found; cases found

theorem collectFrom_of_next?_some {items rest : LoopItems} {value : Value}
    (h : items.next? = some (value, rest)) (text : String) (f : Value → Loading String) :
    items.collectFrom text f = (do rest.collectFrom (text ++ (← f value)) f) := by
  rw [collectFrom]
  split
  · next found => rw [h] at found; cases found
  · next found => rw [h] at found; cases found; rfl

/-- The texts of all items, one after the other. -/
def collect (items : LoopItems) (f : Value → Loading String) : Loading String :=
  items.collectFrom "" f

end LoopItems

/-- The text of a variable in prose. -/
def interpolate (strict : Bool) (ctx : Context) (path : VarPath) : Except EvalError String :=
  match ctx.resolve? path with
  | none => if strict then .error (.absent path.text) else .ok ""
  | some value => .ok (Value.display value)

mutual

/-- Renders a node; `expand` renders what includes stand for. -/
def Node.render (strict : Bool) (expand : Include → Context → Loading String) (ctx : Context) :
    Node → Loading String
  | .text text => return text
  | .interpolation path => Loading.ofEval (interpolate strict ctx path)
  | .block body => renderNodes strict expand ctx body
  | .conditional branches orElse => do
    match ← renderBranches strict expand ctx branches with
    | some text => return text
    | none => renderLast strict expand ctx orElse
  | .loop var iterable body => do
    let items ← Loading.ofEval (iterable.items ctx)
    items.collect fun value => renderNodes strict expand (ctx.child [(var, value)]) body
  | .include target => expand target ctx
  | .functionImport .. | .effect _ | .stateAssign .. => return ""

def renderNodes (strict : Bool) (expand : Include → Context → Loading String) (ctx : Context) :
    List Node → Loading String
  | [] => return ""
  | node :: rest => do
    let text ← node.render strict expand ctx
    return text ++ (← renderNodes strict expand ctx rest)

/-- Renders the body of the first branch whose condition holds, if there is one. -/
def renderBranches (strict : Bool) (expand : Include → Context → Loading String) (ctx : Context) :
    List (Expr × List Node) → Loading (Option String)
  | [] => return none
  | (condition, body) :: rest => do
    if ← Loading.ofEval (condition.holds ctx) then
      return some (← renderNodes strict expand ctx body)
    else renderBranches strict expand ctx rest

def renderLast (strict : Bool) (expand : Include → Context → Loading String) (ctx : Context) :
    Option (List Node) → Loading String
  | none => return ""
  | some body => renderNodes strict expand ctx body

end

namespace FileSystem

/-- How many files are not being expanded. -/
def countOutside (fs : FileSystem) (chain : List String) : Nat :=
  (fs.filePaths.filter (· ∉ chain)).length

theorem countOutside_append_lt {fs : FileSystem} {chain : List String} {path : String}
    (isFile : path ∈ fs.filePaths) (isNew : path ∉ chain) :
    fs.countOutside (chain ++ [path]) < fs.countOutside chain := by
  simp only [countOutside]
  generalize fs.filePaths = paths at isFile
  induction paths with
  | nil => simp at isFile
  | cons first rest ih =>
    have shorter : (rest.filter (· ∉ chain ++ [path])).length ≤
        (rest.filter (· ∉ chain)).length := by
      rw [← List.countP_eq_length_filter, ← List.countP_eq_length_filter]
      exact List.countP_mono_left fun p _ outside => by simp_all
    by_cases same : first = path
    · subst same
      simp [isNew] at shorter ⊢
      omega
    · have later : path ∈ rest := by
        rcases List.mem_cons.mp isFile with here | later
        · exact absurd here.symm same
        · exact later
      by_cases old : first ∈ chain <;> simp [old, same] at ih ⊢ <;> exact ih later

end FileSystem

/-- Renders what an include in a template of the directory `dir` stands for. -/
def expandInclude (fs : FileSystem) (options : RenderOptions) (chain : List String) (dir : String)
    (target : Include) (ctx : Context) : Loading String := do
  let ⟨path, isFile, isNew, template, bindings⟩ ←
    target.resolve fs options.defaultExtension ctx dir chain
  -- One more file is being expanded, so fewer are left to nest.
  have := FileSystem.countOutside_append_lt isFile isNew
  renderNodes options.strict
    (expandInclude fs options (chain ++ [path]) ((Path.parent? path).getD ""))
    (ctx.child bindings) template.nodes
termination_by fs.countOutside chain

/-- Renders nodes of a template of the directory `dir`. -/
def render (fs : FileSystem) (options : RenderOptions) (dir : String) (nodes : List Node)
    (ctx : Context) : Loading String :=
  renderNodes options.strict (expandInclude fs options [] dir) ctx nodes

/-- Renders the template of a file; an include of that file is a cycle. -/
def renderFile (fs : FileSystem) (options : RenderOptions) (path : String) (ctx : Context) :
    Loading String := do
  match fs.canonicalize path with
  | .error _ => throw (.includeNotFound path)
  | .ok path =>
    let template ← TemplateCache.load fs path
    renderNodes options.strict (expandInclude fs options [path] ((Path.parent? path).getD ""))
      ctx template.nodes

end PromptScript
