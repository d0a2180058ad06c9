import Mathlib
import PromptScript.Proofs.Session.Transition

/-!
Sessions that are changed in place. Here every change of a session happens at its own moment, and what
a computation has changed before it fails stays changed. That a segment or a call of a tool which
fails has changed nothing is then a matter of the order in which it looks, calls and writes: in place
they do the same as `execute` and `invokeTool`, which give no session when they fail.
-/
namespace PromptScript

/-- A computation that works on a session and on the world and can fail in the middle. -/
abbrev InPlace (σ : Type) := ExceptT EffectError (StateM (Session × World σ))

namespace InPlace

variable {σ α : Type}

def session : InPlace σ Session :=
  ExceptT.mk fun (s, world) => (.ok s, (s, world))

def change (f : Session → Session) : InPlace σ Unit :=
  ExceptT.mk fun (s, world) => (.ok (), (f s, world))

/-- A computation that sees the world, but no session. -/
def ofActing (action : Acting σ α) : InPlace σ α :=
  ExceptT.mk fun (s, world) =>
    let (result, world) := action world
    (result, (s, world))

@[simp] theorem session_apply (s : Session) (world : World σ) :
    (session : InPlace σ Session) (s, world) = (.ok s, (s, world)) := rfl

theorem session_bind (later : Session → InPlace σ α) (s : Session) (world : World σ) :
    (session >>= later) (s, world) = later s (s, world) := rfl

@[simp] theorem change_apply (f : Session → Session) (s : Session) (world : World σ) :
    (change f : InPlace σ Unit) (s, world) = (.ok (), (f s, world)) := rfl

@[simp] theorem ofActing_apply (action : Acting σ α) (s : Session) (world : World σ) :
    ofActing action (s, world) = ((action world).1, (s, (action world).2)) := rfl

@[simp] theorem ofActing_lift (result : Except EffectError α) (s : Session) (world : World σ) :
    ofActing (ExceptT.mk (pure result)) (s, world) = (result, (s, world)) := rfl

@[simp] theorem throw_apply (e : EffectError) (s : Session) (world : World σ) :
    (throw e : InPlace σ α) (s, world) = (.error e, (s, world)) := rfl

@[simp] theorem pure_apply (a : α) (s : Session) (world : World σ) :
    (pure a : InPlace σ α) (s, world) = (.ok a, (s, world)) := rfl

theorem forM_change {ι : Type} (items : List ι) (f : ι → Session → Session) (s : Session)
    (world : World σ) :
    (items.forM fun item => change (f item) : InPlace σ Unit) (s, world) =
      (.ok (), (items.foldl (fun s item => f item s) s, world)) := by
  induction items generalizing s with
  | nil => rfl
  | cons item rest ih =>
    have first : (change (f item) : InPlace σ Unit) (s, world) = (.ok (), (f item s, world)) := rfl
    exact (Computation.bind_of_ok first).trans (ih (f item s))

end InPlace

namespace Session

variable {σ : Type}

open InPlace

def push (s : Session) (frame : Frame) : Session :=
  { s with stack := frame :: s.stack }

def addTool (s : Session) (name : String) : Session :=
  { s with state := s.state.registerTool name }

/-- Evaluates arguments in what a segment sees, then calls the host, then stores the result. -/
def callInPlace (setup : Setup σ) (bindings : Mapping) (name : String) (args : List Expr)
    (target : Option String) : InPlace σ Unit := do
  let function ← ofActing (ExceptT.mk (pure ((← session).function setup name)))
  let values ← ofActing (.ofEval (args.mapM (valueOf ((← session).scope setup bindings))))
  let result ← ofActing (.call name function values)
  if let some var := target then change (·.setVariable var result)
  change (·.record .functionCall [("name", .str name), ("target", (target.map Value.str).getD .null)])

def performInPlace (setup : Setup σ) (bindings : Mapping) : Effect → InPlace σ Unit
  | .call name args target => callInPlace setup bindings name args target
  | .registerTools names => do
    names.forM fun name => change (·.addTool name)
    change (·.record .toolRegister [("names", .list (names.map .str))])
  | .run => do
    let request := (← session).state.request
    change ({ · with phase := .suspended request })
    change (·.record .run [("tools", .list (request.tools.map .str))])
  | .clearContext => do
    change fun s => { s with state := { s.state with buffer := [] } }
    change (·.record .contextClear [])
  | .clearTools => do
    change fun s => { s with state := { s.state with tools := [] } }
    change (·.record .toolClear [])

/-- Executes a segment that has been taken from the stack, one change after the other. -/
def executeInPlace (setup : Setup σ) (segment : Segment) : InPlace σ Unit :=
  match segment.node with
  | .conditional branches orElse => do
    let ctx := (← session).scope setup segment.bindings
    match ← ofActing (.ofEval (choose ctx orElse branches)) with
    | some body => change (·.push (.nodes body segment.bindings))
    | none => return ()
  | .loop var iterable body => do
    let items ← ofActing (.ofEval (iterable.items ((← session).scope setup segment.bindings)))
    change (·.push (.loop var body items segment.bindings))
  | .functionImport names source => do
    names.forM fun name => change (·.addImport name source)
    change (·.record .functionImport [("names", .list (names.map .str)), ("source", .str source)])
  | .stateAssign name value => do
    let stored ← ofActing (.ofEval (valueOf ((← session).scope setup segment.bindings) value))
    change (·.setVariable name stored)
    change (·.record .state [("name", .str name)])
  | .effect e => performInPlace setup segment.bindings e
  | .text _ | .interpolation _ | .block _ | .include _ => do
    let ctx := (← session).scope setup segment.bindings
    let text ← ofActing (.ofLoading fun files =>
      render files setup.options setup.baseDir [segment.node] ctx)
    if !text.isEmpty then change fun s => { s with state := s.state.push text }
    change (·.record .prose [("bytes", .int text.utf8ByteSize)])

/-- What a tool gives back. Of the tools, only `set_variable` changes the session. -/
def useToolInPlace (setup : Setup σ) (name : String) (args : List Value) : InPlace σ Value := do
  if name = "get_variable" then
    let var ← ofActing (ExceptT.mk (pure (variableArgument name args)))
    return ((← session).stored? var).getD .null
  else if name = "set_variable" then
    let var ← ofActing (ExceptT.mk (pure (variableArgument name args)))
    let value := args[1]?.getD .null
    change (·.setVariable var value)
    return value
  else if (← session).state.hasTool name then
    let function ← ofActing (ExceptT.mk (pure ((← session).toolFunction setup name)))
    ofActing (.call name function args)
  else throw (.unknownTool name)

/-- Calls a tool for the agent of a pending run, one change after the other. -/
def invokeToolInPlace (setup : Setup σ) (name : String) (args : List Value) : InPlace σ Value := do
  match (← session).phase with
  | .suspended _ =>
    let result ← useToolInPlace setup name args
    change (·.record .toolCall [("name", .str name), ("args", .list args)])
    change fun s => { s with state :=
      { s.state with pendingCalls := s.state.pendingCalls ++ [⟨name, args, result⟩] } }
    return result
  | phase => throw (.invalidStep (.noAgentRunning phase.name))

variable {setup : Setup σ}

/-- Where a computation leaves a session that it changes only at its end. -/
def settle (s : Session) : Except EffectError Session × World σ →
    Except EffectError Unit × Session × World σ
  | (.ok next, world) => (.ok (), next, world)
  | (.error e, world) => (.error e, s, world)

theorem settle_error_iff {s left : Session} {result : Except EffectError Session × World σ}
    {e : EffectError} {world : World σ} :
    s.settle result = (.error e, left, world) ↔ result = (.error e, world) ∧ left = s := by
  rcases result with ⟨cause | next, between⟩
  · simp only [settle, Prod.mk.injEq, Except.error.injEq]
    constructor
    · rintro ⟨rfl, rfl, rfl⟩
      exact ⟨⟨rfl, rfl⟩, rfl⟩
    · rintro ⟨⟨rfl, rfl⟩, rfl⟩
      exact ⟨rfl, rfl, rfl⟩
  · simp only [settle, Prod.mk.injEq, reduceCtorEq, false_and]

/-- What comes before the first change does not matter to where a failure leaves a session. -/
theorem settle_bind {α : Type} {s : Session} {first : Acting σ α} {later : α → InPlace σ Unit}
    {second : α → Acting σ Session} {world : World σ}
    (settles : ∀ a world, later a (s, world) = s.settle (second a world)) :
    (ofActing first >>= later) (s, world) = s.settle ((first >>= second) world) := by
  rw [Computation.bind_apply, Computation.bind_apply, ofActing_apply]
  rcases first world with ⟨e | a, between⟩
  · rfl
  · exact settles a between

theorem foldl_addTool (s : Session) (names : List String) :
    names.foldl addTool s = { s with state := names.foldl SessionState.registerTool s.state } := by
  induction names generalizing s with
  | nil => rfl
  | cons name rest ih => exact ih (s.addTool name)

theorem callInPlace_apply (s : Session) (bindings : Mapping) (name : String) (args : List Expr)
    (target : Option String) (world : World σ) :
    callInPlace setup bindings name args target (s, world) =
      s.settle (s.perform setup (s.scope setup bindings) (.call name args target) world) := by
  rw [callInPlace, session_bind]
  refine settle_bind fun function between => ?_
  rw [session_bind]
  refine settle_bind fun values between => settle_bind fun result between => ?_
  cases target <;> rfl

theorem performInPlace_apply (s : Session) (bindings : Mapping) (e : Effect) (world : World σ) :
    performInPlace setup bindings e (s, world) =
      s.settle (s.perform setup (s.scope setup bindings) e world) := by
  cases e with
  | call name args target => exact callInPlace_apply s bindings name args target world
  | registerTools names =>
    rw [performInPlace,
      Computation.bind_of_ok (forM_change names (fun name s => s.addTool name) s world), foldl_addTool]
    rfl
  | run | clearContext | clearTools => rfl

/-- No node that acts puts a frame onto the stack by that. -/
theorem Acts.stack_eq {s next : Session} {ctx : Context} {node : Node} {world world' : World σ}
    (acts : Acts setup s ctx world node next world') : next.stack = s.stack := by
  cases acts with
  | @imports names source =>
    obtain ⟨imports, folded, _⟩ := foldl_addImport s names source
    rw [folded]
    rfl
  | @calls _ _ target => cases target <;> rfl
  | _ => rfl

/-- Executing a segment that opens nothing is acting. -/
theorem execute_of_opened_nil {s : Session} {segment : Segment} (world : World σ)
    (opens : opened (s.scope setup segment.bindings) segment = .ok []) :
    s.execute setup segment world =
      s.act setup (s.scope setup segment.bindings) segment.node world := by
  rw [execute_eq, opens]
  rcases acted : s.act setup (s.scope setup segment.bindings) segment.node world with
    ⟨e | next, world'⟩
  · rfl
  · have same : next.stack = s.stack := (act_ok_iff.mp acted).stack_eq
    simp only [List.nil_append, ← same]

/-- A segment that is executed in place leaves what `execute` gives. If it fails, it leaves the
session that it was given. -/
theorem executeInPlace_apply (s : Session) (segment : Segment) (world : World σ) :
    executeInPlace setup segment (s, world) = s.settle (s.execute setup segment world) := by
  obtain ⟨node, bindings⟩ := segment
  cases node with
  | conditional branches orElse =>
    simp only [executeInPlace]
    rw [execute_eq, session_bind, Computation.bind_apply, ofActing_apply]
    simp only [opened]
    rcases choose (s.scope setup bindings) orElse branches with e | _ | body <;> rfl
  | loop var iterable body =>
    simp only [executeInPlace]
    rw [execute_eq, session_bind, Computation.bind_apply, ofActing_apply]
    simp only [opened]
    rcases iterable.items (s.scope setup bindings) with e | items <;> rfl
  | functionImport names source =>
    rw [execute_of_opened_nil world rfl]
    exact Computation.bind_of_ok (forM_change names (fun name s => s.addImport name source) s world)
  | stateAssign name value =>
    rw [execute_of_opened_nil world rfl]
    simp only [executeInPlace, act, session_bind]
    refine settle_bind fun stored between => rfl
  | effect e =>
    rw [execute_of_opened_nil world rfl]
    exact performInPlace_apply s bindings e world
  | text | interpolation | block | «include» =>
    rw [execute_of_opened_nil world rfl]
    simp only [executeInPlace, act, session_bind]
    refine settle_bind fun text between => ?_
    simp only [addProse]
    cases text.isEmpty <;> rfl

/-- Where a call of a tool leaves a session, with what it gives back. -/
def settleTool (s : Session) : Except EffectError (Value × Session) × World σ →
    Except EffectError Value × Session × World σ
  | (.ok (value, next), world) => (.ok value, next, world)
  | (.error e, world) => (.error e, s, world)

theorem useToolInPlace_apply (s : Session) (name : String) (args : List Value) (world : World σ) :
    useToolInPlace setup name args (s, world) = s.settleTool (s.useTool setup name args world) := by
  unfold useToolInPlace useTool
  split
  · rcases variableArgument name args with e | var <;> rfl
  · split
    · rcases variableArgument name args with e | var <;> rfl
    · rw [session_bind]
      split
      · rw [session_bind]
        rcases s.toolFunction setup name with e | function
        · rfl
        · change ofActing (Acting.call name function args) (s, world) = s.settleTool
            ((Acting.call name function args >>= fun value => pure (value, s)) world)
          rw [ofActing_apply, Computation.bind_apply]
          rcases Acting.call name function args world with ⟨e | value, world'⟩ <;> rfl
      · rfl

/-- A tool that is called in place leaves what `invokeTool` gives, or, if it fails, the session as it
was. -/
theorem invokeToolInPlace_apply (s : Session) (name : String) (args : List Value)
    (world : World σ) :
    invokeToolInPlace setup name args (s, world) =
      s.settleTool (s.invokeTool setup name args world) := by
  rw [invokeToolInPlace, invokeTool, session_bind]
  cases s.phase with
  | suspended request =>
    simp only [Computation.bind_apply, useToolInPlace_apply]
    rcases s.useTool setup name args world with ⟨e | ⟨value, used⟩, world'⟩ <;> rfl
  | _ => rfl

end Session

end PromptScript
