import PromptScript.Session.Execute

/-!
Running a session: segment by segment, up to the next run of the agent, again after a failure, and
with tools that the agent calls meanwhile. An operation that does not fit the phase of the session is
refused and changes nothing.
-/
namespace PromptScript

inductive Progress
  | advanced
  | suspended (request : RunRequest)
  | completed
deriving DecidableEq, Repr, Inhabited

inductive StepOutcome
  | suspended (request : RunRequest)
  | completed (state : SessionState)
  | failed (e : EffectError)
deriving DecidableEq, Repr, Inhabited

namespace Session

variable {σ : Type}

/-- Where a session is after a segment that did not fail. -/
def progress (s : Session) : Progress :=
  match s.phase with
  | .suspended request => .suspended request
  | _ => .advanced

/-- Executes a segment, and remembers it if it fails. -/
def attempt (setup : Setup σ) (s : Session) (segment : Segment) :
    StateM (World σ) (Except EffectError Progress × Session) := do
  match ← (s.execute setup segment).run with
  | .ok next => return (.ok next.progress, next)
  | .error e => return (.error e, s.fail e (.segment segment))

def complete (s : Session) : Session :=
  { s with phase := .completed, stack := [] }.record .completed []

def advance (setup : Setup σ) (s : Session) :
    StateM (World σ) (Except EffectError Progress × Session) :=
  match s.phase with
  | .ready | .running =>
    match s.stack.next? with
    | none => return (.ok .completed, s.complete)
    | some (segment, stack) => { s with phase := .running, stack }.attempt setup segment
  | .suspended _ => return (.error (.invalidStep .suspended), s)
  | .completed | .failed _ => return (.error (.invalidStep (.over s.phase.name)), s)

theorem attempt_eq (setup : Setup σ) (s : Session) (segment : Segment) (world : World σ) :
    s.attempt setup segment world =
      match s.execute setup segment world with
      | (.ok next, world) => ((.ok next.progress, next), world)
      | (.error e, world) => ((.error e, s.fail e (.segment segment)), world) := by
  simp only [attempt, bind, ExceptT.run, StateT.bind]
  cases s.execute setup segment world with
  | mk result world => cases result <;> rfl

/-- A segment that did not fail leads on. -/
theorem after_of_attempt {setup : Setup σ} {s next : Session} {segment : Segment}
    {world world' : World σ} {progress : Progress} {stack : Stack}
    (found : stack.next? = some (segment, s.stack))
    (h : s.attempt setup segment world = ((.ok progress, next), world')) :
    Stack.After next.stack stack := by
  rw [attempt_eq, execute_eq] at h
  cases opens : opened (s.scope setup segment.bindings) segment with
  | error e => rw [opens] at h; cases h
  | ok frames =>
    rw [opens] at h
    cases acts : s.act setup (s.scope setup segment.bindings) segment.node world with
    | mk result world'' =>
      cases result with
      | error e => simp only [acts] at h; cases h
      | ok acted =>
        simp only [acts] at h
        cases h
        exact Stack.after_of_next? found (opens_of_opened opens)

/-- A segment that did not fail and was not the last one leads on. -/
theorem after_of_advance {setup : Setup σ} {s next : Session} {world world' : World σ}
    {progress : Progress} (h : s.advance setup world = ((.ok progress, next), world'))
    (notDone : progress ≠ .completed) : Stack.After next.stack s.stack := by
  obtain ⟨state, phase, stack, imports, events⟩ := s
  have executed (h : (match stack.next? with
      | none => pure (.ok .completed, complete ⟨state, phase, stack, imports, events⟩)
      | some (segment, rest) => attempt setup ⟨state, .running, rest, imports, events⟩ segment :
      StateM (World σ) (Except EffectError Progress × Session)) world =
        ((.ok progress, next), world')) : Stack.After next.stack stack := by
    cases found : stack.next? with
    | none =>
      rw [found] at h
      cases h
      contradiction
    | some taken =>
      rw [found] at h
      exact after_of_attempt found h
  cases phase with
  | ready | running => exact executed h
  | suspended | completed | failed => cases h

/-- Executes segments until the session is suspended, completed or failed. -/
def runOn (setup : Setup σ) (s : Session) (world : World σ) :
    (StepOutcome × Session) × World σ :=
  match h : s.advance setup world with
  | ((.ok .advanced, next), world) =>
    have := after_of_advance h (by simp)
    runOn setup next world
  | ((.ok (.suspended request), next), world) => ((.suspended request, next), world)
  | ((.ok .completed, next), world) => ((.completed next.state, next), world)
  | ((.error e, next), world) => ((.failed e, next), world)
termination_by s.stack

/-- The session with the answer of the agent. -/
def answered (setup : Setup σ) (s : Session) (text : String) : Session :=
  let state := (s.state.push text).setVariable setup.lastResult (.str text)
  { s with
    state := { state with pendingCalls := [], turn := state.turn + 1 }
    phase := .running }.record .resume []

/-- Goes on until the session is suspended, completed or failed. A pending run needs an answer, and
nothing else may have one. -/
def step (setup : Setup σ) (s : Session) (answer : Option RunAnswer) (world : World σ) :
    (StepOutcome × Session) × World σ :=
  match s.phase, answer with
  | .suspended _, some (.response text) => (s.answered setup text).runOn setup world
  | .suspended request, some (.failed message) =>
    ((.failed (.runFailed message), s.fail (.runFailed message) (.run request)), world)
  | .suspended request, some .cancelled =>
    ((.failed .cancelled, s.fail .cancelled (.run request)), world)
  | .suspended _, none => ((.failed (.invalidStep .responseRequired), s), world)
  | .ready, none | .running, none => s.runOn setup world
  | .ready, some _ | .running, some _ => ((.failed (.invalidStep .noRunPending), s), world)
  | .completed, _ | .failed _, _ => ((.failed (.invalidStep (.over s.phase.name)), s), world)

/-- Tries again what failed, and goes on. A run is handed to the agent as before; any other segment
is executed once more. What was done before is neither undone nor done again. -/
def retry (setup : Setup σ) (s : Session) (world : World σ) :
    (StepOutcome × Session) × World σ :=
  match s.phase with
  | .failed (.run request) =>
    ((.suspended request, { s with phase := .suspended request }.record .retry
      [("segment", .str (RetryPoint.run request).name)]), world)
  | .failed (.segment segment) =>
    let again := { s with phase := .running }.record .retry
      [("segment", .str (RetryPoint.segment segment).name)]
    match again.attempt setup segment world with
    | ((.ok (.suspended request), next), world) => ((.suspended request, next), world)
    | ((.ok _, next), world) => next.runOn setup world
    | ((.error e, next), world) => ((.failed e, next), world)
  | phase => ((.failed (.invalidStep (.notFailed phase.name)), s), world)

/-- The name of the variable that is the first argument of a tool. -/
def variableArgument (tool : String) (args : List Value) : Except EffectError String :=
  match args.head? with
  | some (.str name) => .ok name
  | _ => .error (.functionFailed tool "argument 1 must be a variable name")

/-- The function of the host behind a tool, which may be imported or not. -/
def toolFunction (setup : Setup σ) (s : Session) (name : String) :
    Except EffectError (HostFunction σ) :=
  match s.module? name with
  | some _ => s.function setup name
  | none =>
    match setup.registry.get? name with
    | some function => .ok function
    | none => .error (.unknownFunction name)

/-- What a tool gives back, and what it does to the variables. The tools `get_variable` and
`set_variable` are always there. -/
def useTool (setup : Setup σ) (s : Session) (name : String) (args : List Value) :
    Acting σ (Value × Session) := do
  if name = "get_variable" then
    let var ← ExceptT.mk (pure (variableArgument name args))
    return ((s.stored? var).getD .null, s)
  else if name = "set_variable" then
    let var ← ExceptT.mk (pure (variableArgument name args))
    let value := args[1]?.getD .null
    return (value, s.setVariable var value)
  else if s.state.hasTool name then
    let function ← ExceptT.mk (pure (s.toolFunction setup name))
    return (← Acting.call name function args, s)
  else throw (.unknownTool name)

/-- Keeps a call of a tool until the pending run is answered. -/
def noteCall (s : Session) (call : ToolCall) : Session :=
  let noted := s.record .toolCall [("name", .str call.name), ("args", .list call.args)]
  { noted with state := { s.state with pendingCalls := s.state.pendingCalls ++ [call] } }

/-- Calls a tool for the agent of a pending run. -/
def invokeTool (setup : Setup σ) (s : Session) (name : String) (args : List Value) :
    Acting σ (Value × Session) := do
  match s.phase with
  | .suspended _ =>
    let (result, used) ← s.useTool setup name args
    return (result, used.noteCall ⟨name, args, result⟩)
  | phase => throw (.invalidStep (.noAgentRunning phase.name))

end Session

end PromptScript
