import PromptScript.Render.Output
import PromptScript.Session.Basic
import PromptScript.Session.Registry

/-!
Executing one segment of a script. A segment either opens frames, as conditionals and loops do, or
acts: on the variables, the buffer, the tools, the imports, the host or the agent. When it fails, the
session is as it was before.
-/
namespace PromptScript

/-- What a session is given once and for all. -/
structure Setup (σ : Type) where
  registry : Registry σ
  options : RenderOptions
  /-- Variables that a script can read, but not change. -/
  base : Mapping
  baseDir : String
  /-- The variable that receives the answer of the agent. -/
  lastResult : String

/-- The variable that receives the answer of the agent unless another one is asked for. -/
def defaultLastResult : String := "last_result"

/-- What a session works on besides its own data. -/
structure World (σ : Type) where
  files : FileSystem
  cache : TemplateCache
  host : σ
deriving Inhabited

/-- A computation that can fail; what it has done to the world stays done. -/
abbrev Acting (σ : Type) := ExceptT EffectError (StateM (World σ))

namespace Acting

variable {σ α β : Type}

/-- The second computation goes on in the world that the first one leaves, unless that fails. -/
theorem bind_apply (first : Acting σ α) (second : α → Acting σ β) (world : World σ) :
    (first >>= second) world = match first world with
      | (.ok a, world) => second a world
      | (.error e, world) => (.error e, world) := by
  simp only [bind, ExceptT.bind, ExceptT.mk, StateT.bind, ExceptT.bindCont]
  cases first world with
  | mk result world => cases result <;> rfl

@[simp] theorem pure_apply (a : α) (world : World σ) : (pure a : Acting σ α) world = (.ok a, world) :=
  rfl

@[simp] theorem throw_apply (e : EffectError) (world : World σ) :
    (throw e : Acting σ α) world = (.error e, world) := rfl

/-- A result that does not need the world. -/
def ofEval (result : Except EvalError α) : Acting σ α :=
  ExceptT.mk (pure (result.mapError .eval))

@[simp] theorem ofEval_ok (a : α) (world : World σ) :
    (ofEval (.ok a) : Acting σ α) world = (.ok a, world) := rfl

@[simp] theorem ofEval_error (e : EvalError) (world : World σ) :
    (ofEval (.error e) : Acting σ α) world = (.error (.eval e), world) := rfl

/-- A computation that reads files through the cache. -/
def ofLoading (f : FileSystem → Loading α) : Acting σ α := ExceptT.mk fun world =>
  let (result, cache) := (f world.files).run world.cache
  (result.mapError .render, { world with cache })

/-- Calls a function of the host by its name. -/
def call (name : String) (function : HostFunction σ) (args : List Value) : Acting σ Value :=
  ExceptT.mk fun world =>
    let (result, host) := function args world.host
    (result.mapError (.functionFailed name), { world with host })

end Acting

namespace Session

variable {σ : Type}

/-- What a segment sees: the loop variables, behind them the variables of the session, behind them
those it was given. -/
def scope (setup : Setup σ) (s : Session) (bindings : Mapping) : Context :=
  .ofMapping (Mapping.merge (Mapping.merge setup.base s.state.vars) bindings)

/-- The value of an expression as it is stored: what is absent becomes null. -/
def valueOf (ctx : Context) (e : Expr) : Except EvalError Value := do
  return (← e.eval ctx).getD .null

/-- The body of the first branch whose condition holds, else the last body. -/
def choose (ctx : Context) (orElse : Option (List Node)) :
    List (Expr × List Node) → Except EvalError (Option (List Node))
  | [] => .ok orElse
  | (condition, body) :: rest => do
    if ← condition.holds ctx then return some body else choose ctx orElse rest

/-- The frames that a segment puts onto the stack. -/
def opened (ctx : Context) (segment : Segment) : Except EvalError Stack :=
  match segment.node with
  | .conditional branches orElse => do
    match ← choose ctx orElse branches with
    | some body => return [.nodes body segment.bindings]
    | none => return []
  | .loop var iterable body => do
    return [.loop var body (← iterable.items ctx) segment.bindings]
  | _ => return []

/-- The function of the host for an imported name. -/
def function (setup : Setup σ) (s : Session) (name : String) :
    Except EffectError (HostFunction σ) :=
  match s.module? name with
  | none => .error (.unknownFunction name)
  | some module =>
    match setup.registry.lookup? module name with
    | some function => .ok function
    | none => .error (.notProvided name module)

/-- Adds prose to the buffer, unless it is empty. -/
def addProse (s : Session) (text : String) : Session :=
  { s with state := if text.isEmpty then s.state else s.state.push text }.record .prose
    [("bytes", .int text.utf8ByteSize)]

def perform (setup : Setup σ) (s : Session) (ctx : Context) : Effect → Acting σ Session
  | .call name args target => do
    let function ← ExceptT.mk (pure (s.function setup name))
    let values ← Acting.ofEval (args.mapM (valueOf ctx))
    let result ← Acting.call name function values
    let stored := match target with
      | some var => s.setVariable var result
      | none => s
    return stored.record .functionCall
      [("name", .str name), ("target", (target.map Value.str).getD .null)]
  | .registerTools names =>
    return { s with state := names.foldl SessionState.registerTool s.state }.record .toolRegister
      [("names", .list (names.map .str))]
  | .run =>
    return { s with phase := .suspended s.state.request }.record .run
      [("tools", .list (s.state.tools.map .str))]
  | .clearContext =>
    return { s with state := { s.state with buffer := [] } }.record .contextClear []
  | .clearTools => return { s with state := { s.state with tools := [] } }.record .toolClear []

/-- What a node does, apart from opening frames. -/
def act (setup : Setup σ) (s : Session) (ctx : Context) (node : Node) : Acting σ Session :=
  match node with
  | .conditional .. | .loop .. => return s
  | .functionImport names source =>
    return (names.foldl (fun s name => s.addImport name source) s).record .functionImport
      [("names", .list (names.map .str)), ("source", .str source)]
  | .stateAssign name value => do
    let stored ← Acting.ofEval (valueOf ctx value)
    return (s.setVariable name stored).record .state [("name", .str name)]
  | .effect e => s.perform setup ctx e
  | .text _ | .interpolation _ | .block _ | .include _ => do
    let text ← Acting.ofLoading fun files => render files setup.options setup.baseDir [node] ctx
    return s.addProse text

/-- Executes a segment that has been taken from the stack. -/
def execute (setup : Setup σ) (s : Session) (segment : Segment) : Acting σ Session := do
  let ctx := s.scope setup segment.bindings
  let frames ← Acting.ofEval (opened ctx segment)
  let acted ← s.act setup ctx segment.node
  return { acted with stack := frames ++ s.stack }

theorem execute_eq (setup : Setup σ) (s : Session) (segment : Segment) (world : World σ) :
    s.execute setup segment world =
      match opened (s.scope setup segment.bindings) segment with
      | .error e => (.error (.eval e), world)
      | .ok frames =>
        match s.act setup (s.scope setup segment.bindings) segment.node world with
        | (.error e, world) => (.error e, world)
        | (.ok acted, world) => (.ok { acted with stack := frames ++ s.stack }, world) := by
  simp only [execute, Acting.bind_apply]
  cases opened (s.scope setup segment.bindings) segment with
  | error e => rfl
  | ok frames =>
    simp only [Acting.ofEval_ok]
    cases s.act setup (s.scope setup segment.bindings) segment.node world with
    | mk result world => cases result <;> rfl

theorem choose_cons (ctx : Context) (orElse : Option (List Node)) (condition : Expr)
    (body : List Node) (rest : List (Expr × List Node)) :
    choose ctx orElse ((condition, body) :: rest) = match condition.holds ctx with
      | .error e => .error e
      | .ok true => .ok (some body)
      | .ok false => choose ctx orElse rest := by
  rw [choose]
  rcases condition.holds ctx with e | truth
  · rfl
  · cases truth <;> rfl

theorem choose_mem {ctx : Context} {branches : List (Expr × List Node)}
    {orElse : Option (List Node)} {body : List Node}
    (h : choose ctx orElse branches = .ok (some body)) :
    body ∈ branches.map (·.2) ++ orElse.toList := by
  induction branches with
  | nil =>
    simp only [choose, Except.ok.injEq] at h
    simp [h]
  | cons branch rest ih =>
    obtain ⟨condition, first⟩ := branch
    rw [choose_cons] at h
    cases holds : condition.holds ctx with
    | error e => rw [holds] at h; contradiction
    | ok truth =>
      rw [holds] at h
      cases truth with
      | true =>
        have same : first = body := by cases h; rfl
        simp [same]
      | false => exact List.mem_cons_of_mem _ (ih h)

/-- Only bodies of the node are opened. -/
theorem opens_of_opened {ctx : Context} {segment : Segment} {frames : Stack}
    (h : opened ctx segment = .ok frames) : Stack.Opens segment frames := by
  obtain ⟨node, bindings⟩ := segment
  cases node with
  | conditional branches orElse =>
    simp only [opened] at h
    cases chosen : choose ctx orElse branches with
    | error e => rw [chosen] at h; contradiction
    | ok last =>
      rw [chosen] at h
      cases last with
      | none => cases h; exact .nothing
      | some body => cases h; exact .body (choose_mem chosen)
  | loop var iterable body =>
    simp only [opened] at h
    cases found : iterable.items ctx with
    | error e => rw [found] at h; contradiction
    | ok items => rw [found] at h; cases h; exact .loop (List.mem_singleton.mpr rfl)
  | _ => cases h; exact .nothing

end Session

end PromptScript
