import PromptScript.Render.Output

/-!
A render as a sequence of steps on a stack of what is left to do. No measure tells here that the
steps come to an end: an include puts the nodes of its template on the stack, whatever they are.
-/
namespace PromptScript

/-- What is left to do. The nodes of a template come with the directory of the template. -/
inductive RenderWork
  | nodes (nodes : List Node) (ctx : Context) (dir : String)
  | branches (branches : List (Expr × List Node)) (orElse : Option (List Node)) (ctx : Context)
      (dir : String)
  | items (var : String) (items : LoopItems) (body : List Node) (ctx : Context) (dir : String)
  /-- The template of the last file of the chain ends. -/
  | leave

structure RenderState where
  tasks : List RenderWork
  /-- The files being expanded, the outermost first. -/
  chain : List String
  /-- What has been rendered so far. -/
  text : String
  cache : TemplateCache

inductive RenderStage
  | running (state : RenderState)
  | ended (outcome : Except RenderError String × TemplateCache)

namespace RenderState

def push (s : RenderState) (task : RenderWork) : RenderState :=
  { s with tasks := task :: s.tasks }

def write (s : RenderState) (text : String) : RenderState :=
  { s with text := s.text ++ text }

/-- Puts the nodes of a template on the stack; the file of the template joins the chain. -/
def enter (s : RenderState) (path : String) (template : Template) (ctx : Context) : RenderState :=
  { (s.push .leave).push (.nodes template.nodes ctx ((Path.parent? path).getD "")) with
    chain := s.chain ++ [path] }

def leave (s : RenderState) : RenderState :=
  { s with chain := s.chain.dropLast }

/-- Goes on with what has been evaluated, or ends with the reason why it has no value. -/
def evaluated {α : Type} (s : RenderState) (go : α → RenderState) : Except EvalError α → RenderStage
  | .ok a => .running (go a)
  | .error cause => .ended (.error (.eval cause), s.cache)

variable (fs : FileSystem) (options : RenderOptions)

/-- One step on a node; what comes behind the node is on the stack. -/
def visit (s : RenderState) (ctx : Context) (dir : String) : Node → RenderStage
  | .text text => .running (s.write text)
  | .interpolation path => s.evaluated s.write (interpolate options.strict ctx path)
  | .block body => .running (s.push (.nodes body ctx dir))
  | .conditional branches orElse => .running (s.push (.branches branches orElse ctx dir))
  | .loop var iterable body =>
    s.evaluated (fun items => s.push (.items var items body ctx dir)) (iterable.items ctx)
  | .include target =>
    match target.resolve fs options.defaultExtension ctx dir s.chain s.cache with
    | (.ok found, cache) =>
      .running ({ s with cache }.enter found.path found.template (ctx.child found.bindings))
    | (.error e, cache) => .ended (.error e, cache)
  | .functionImport .. | .effect _ | .stateAssign .. => .running s

/-- One step on a task that has been taken from the stack. -/
def perform (s : RenderState) : RenderWork → RenderStage
  | .nodes [] _ _ => .running s
  | .nodes (node :: rest) ctx dir => (s.push (.nodes rest ctx dir)).visit fs options ctx dir node
  | .branches [] none _ _ => .running s
  | .branches [] (some body) ctx dir => .running (s.push (.nodes body ctx dir))
  | .branches ((condition, body) :: rest) orElse ctx dir =>
    s.evaluated (fun holds =>
      if holds then s.push (.nodes body ctx dir) else s.push (.branches rest orElse ctx dir))
      (condition.holds ctx)
  | .items var items body ctx dir =>
    match items.next? with
    | none => .running s
    | some (value, rest) =>
      .running ((s.push (.items var rest body ctx dir)).push
        (.nodes body (ctx.child [(var, value)]) dir))
  | .leave => .running s.leave

end RenderState

namespace RenderStage

def next (fs : FileSystem) (options : RenderOptions) : RenderStage → RenderStage
  | .running s =>
    match s.tasks with
    | [] => .ended (.ok s.text, s.cache)
    | task :: later => { s with tasks := later }.perform fs options task
  | .ended outcome => .ended outcome

/-- The next step is one on a node, in a scope. -/
def IsAt (node : Node) (ctx : Context) : RenderStage → Prop
  | .running s => ∃ rest dir later, s.tasks = .nodes (node :: rest) ctx dir :: later
  | .ended _ => False

/-- Before the first node of a template of the directory `dir`. -/
def start (dir : String) (nodes : List Node) (ctx : Context) (cache : TemplateCache) : RenderStage :=
  .running ⟨[.nodes nodes ctx dir], [], "", cache⟩

/-- Before the first node of the template of a file, if there is one. -/
def startFile (fs : FileSystem) (path : String) (ctx : Context) (cache : TemplateCache) :
    RenderStage :=
  match fs.canonicalize path with
  | .error _ => .ended (.error (.includeNotFound path), cache)
  | .ok path =>
    match TemplateCache.load fs path cache with
    | (.ok template, cache) =>
      .running ⟨[.nodes template.nodes ctx ((Path.parent? path).getD "")], [path], "", cache⟩
    | (.error e, cache) => .ended (.error e, cache)

end RenderStage

end PromptScript
