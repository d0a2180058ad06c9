import Mathlib.Data.List.Nodup
import PromptScript.Proofs.Computation
import PromptScript.Session.Run

/-!
What executing one segment can do, said once. `Acts` and `Fails` list the ways in which a node acts
on a session and those in which it fails; both agree with the executable step.
-/
namespace PromptScript

/-- Whether a node opens frames and does nothing else. -/
def Node.isControl : Node → Bool
  | .conditional .. | .loop .. => true
  | _ => false

/-- Whether a node is rendered into the buffer. -/
def Node.isProse : Node → Bool
  | .text _ | .interpolation _ | .block _ | .include _ => true
  | _ => false

/-- Whether a session in this phase has segments to execute. -/
def Phase.isActive : Phase → Bool
  | .ready | .running => true
  | _ => false

namespace Acting

variable {σ α : Type}

theorem ofEval_ok_iff {result : Except EvalError α} {world world' : World σ} {a : α} :
    (ofEval result : Acting σ α) world = (.ok a, world') ↔ result = .ok a ∧ world' = world := by
  cases result with
  | error e => exact ⟨nofun, nofun⟩
  | ok b => exact ⟨fun h => by cases h; exact ⟨rfl, rfl⟩, fun ⟨h, same⟩ => by cases h; rw [same]; rfl⟩

theorem ofEval_error_iff {result : Except EvalError α} {world world' : World σ} {e : EffectError} :
    (ofEval result : Acting σ α) world = (.error e, world') ↔
      ∃ cause, result = .error cause ∧ e = .eval cause ∧ world' = world := by
  cases result with
  | error cause =>
    refine ⟨fun h => by cases h; exact ⟨cause, rfl, rfl, rfl⟩, ?_⟩
    rintro ⟨_, h, rfl, rfl⟩
    cases h
    rfl
  | ok b => exact ⟨nofun, nofun⟩

theorem call_ok_iff {name : String} {function : HostFunction σ} {args : List Value}
    {world world' : World σ} {value : Value} :
    call name function args world = (.ok value, world') ↔
      ∃ host, function args world.host = (.ok value, host) ∧ world' = { world with host } := by
  simp only [call, ExceptT.mk]
  rcases function args world.host with ⟨_ | v, host⟩
  · exact ⟨nofun, nofun⟩
  · refine ⟨fun h => by cases h; exact ⟨host, rfl, rfl⟩, ?_⟩
    rintro ⟨_, h, rfl⟩
    cases h
    rfl

theorem call_error_iff {name : String} {function : HostFunction σ} {args : List Value}
    {world world' : World σ} {e : EffectError} :
    call name function args world = (.error e, world') ↔
      ∃ message host, function args world.host = (.error message, host) ∧
        e = .functionFailed name message ∧ world' = { world with host } := by
  simp only [call, ExceptT.mk]
  rcases function args world.host with ⟨message | v, host⟩
  · refine ⟨fun h => by cases h; exact ⟨message, host, rfl, rfl, rfl⟩, ?_⟩
    rintro ⟨_, _, h, rfl, rfl⟩
    cases h
    rfl
  · exact ⟨nofun, nofun⟩

theorem ofLoading_ok_iff {f : FileSystem → Loading α} {world world' : World σ} {a : α} :
    ofLoading f world = (.ok a, world') ↔
      ∃ cache, f world.files world.cache = (.ok a, cache) ∧ world' = { world with cache } := by
  simp only [ofLoading, ExceptT.mk, ExceptT.run]
  rcases f world.files world.cache with ⟨_ | b, cache⟩
  · exact ⟨nofun, nofun⟩
  · refine ⟨fun h => by cases h; exact ⟨cache, rfl, rfl⟩, ?_⟩
    rintro ⟨_, h, rfl⟩
    cases h
    rfl

theorem ofLoading_error_iff {f : FileSystem → Loading α} {world world' : World σ}
    {e : EffectError} : ofLoading f world = (.error e, world') ↔
      ∃ cause cache, f world.files world.cache = (.error cause, cache) ∧ e = .render cause ∧
        world' = { world with cache } := by
  simp only [ofLoading, ExceptT.mk, ExceptT.run]
  rcases f world.files world.cache with ⟨cause | b, cache⟩
  · refine ⟨fun h => by cases h; exact ⟨cause, cache, rfl, rfl, rfl⟩, ?_⟩
    rintro ⟨_, _, h, rfl, rfl⟩
    cases h
    rfl
  · exact ⟨nofun, nofun⟩

end Acting

namespace SessionState

theorem registerTool_nodup {s : SessionState} (name : String) (nodup : s.tools.Nodup) :
    (s.registerTool name).tools.Nodup := by
  unfold registerTool
  by_cases here : s.hasTool name
  · rwa [if_pos here]
  · have absent : name ∉ s.tools := by simpa [hasTool] using here
    rw [if_neg here]
    exact nodup.append (List.nodup_singleton name) (by simpa using absent)

theorem foldl_registerTool (s : SessionState) (names : List String) :
    ∃ tools, names.foldl registerTool s = { s with tools } ∧ (s.tools.Nodup → tools.Nodup) := by
  induction names generalizing s with
  | nil => exact ⟨s.tools, rfl, id⟩
  | cons name rest ih =>
    obtain ⟨tools, folded, nodup⟩ := ih (s.registerTool name)
    refine ⟨tools, folded.trans ?_, fun distinct => nodup (registerTool_nodup name distinct)⟩
    unfold registerTool
    split <;> rfl

end SessionState

namespace Session

variable {σ : Type}

def keep (s : Session) (target : Option String) (result : Value) : Session :=
  match target with
  | some var => s.setVariable var result
  | none => s

/-- What a node does to a session when it does not fail. -/
inductive Acts (setup : Setup σ) (s : Session) (ctx : Context) (world : World σ) :
    Node → Session → World σ → Prop
  | controls {node : Node} : node.isControl → Acts setup s ctx world node s world
  | imports {names : List String} {source : String} :
    Acts setup s ctx world (.functionImport names source)
      ((names.foldl (fun s name => s.addImport name source) s).record .functionImport
        [("names", .list (names.map .str)), ("source", .str source)]) world
  | assigns {name : String} {value : Expr} {stored : Value} :
    valueOf ctx value = .ok stored →
    Acts setup s ctx world (.stateAssign name value)
      ((s.setVariable name stored).record .state [("name", .str name)]) world
  | calls {name : String} {args : List Expr} {target : Option String} {function : HostFunction σ}
      {values : List Value} {result : Value} {host : σ} :
    s.function setup name = .ok function → args.mapM (valueOf ctx) = .ok values →
    function values world.host = (.ok result, host) →
    Acts setup s ctx world (.effect (.call name args target))
      ((s.keep target result).record .functionCall
        [("name", .str name), ("target", (target.map Value.str).getD .null)]) { world with host }
  | registers {names : List String} :
    Acts setup s ctx world (.effect (.registerTools names))
      ({ s with state := names.foldl SessionState.registerTool s.state }.record .toolRegister
        [("names", .list (names.map .str))]) world
  | runs :
    Acts setup s ctx world (.effect .run)
      ({ s with phase := .suspended s.state.request }.record .run
        [("tools", .list (s.state.tools.map .str))]) world
  | clearsContext :
    Acts setup s ctx world (.effect .clearContext)
      ({ s with state := { s.state with buffer := [] } }.record .contextClear []) world
  | clearsTools :
    Acts setup s ctx world (.effect .clearTools)
      ({ s with state := { s.state with tools := [] } }.record .toolClear []) world
  | renders {node : Node} {text : String} {cache : TemplateCache} :
    node.isProse →
    render world.files setup.options setup.baseDir [node] ctx world.cache = (.ok text, cache) →
    Acts setup s ctx world node (s.addProse text) { world with cache }

/-- How a node fails. Only a host that is called and templates that are loaded leave a trace. -/
inductive Fails (setup : Setup σ) (s : Session) (ctx : Context) (world : World σ) :
    Node → EffectError → World σ → Prop
  | assigns {name : String} {value : Expr} {cause : EvalError} :
    valueOf ctx value = .error cause →
    Fails setup s ctx world (.stateAssign name value) (.eval cause) world
  | lookup {name : String} {args : List Expr} {target : Option String} {e : EffectError} :
    s.function setup name = .error e →
    Fails setup s ctx world (.effect (.call name args target)) e world
  | arguments {name : String} {args : List Expr} {target : Option String}
      {function : HostFunction σ} {cause : EvalError} :
    s.function setup name = .ok function → args.mapM (valueOf ctx) = .error cause →
    Fails setup s ctx world (.effect (.call name args target)) (.eval cause) world
  | calls {name : String} {args : List Expr} {target : Option String} {function : HostFunction σ}
      {values : List Value} {message : String} {host : σ} :
    s.function setup name = .ok function → args.mapM (valueOf ctx) = .ok values →
    function values world.host = (.error message, host) →
    Fails setup s ctx world (.effect (.call name args target)) (.functionFailed name message)
      { world with host }
  | renders {node : Node} {cause : RenderError} {cache : TemplateCache} :
    node.isProse →
    render world.files setup.options setup.baseDir [node] ctx world.cache = (.error cause, cache) →
    Fails setup s ctx world node (.render cause) { world with cache }

theorem act_ok_iff {setup : Setup σ} {s next : Session} {ctx : Context} {node : Node}
    {world world' : World σ} : s.act setup ctx node world = (.ok next, world') ↔
      Acts setup s ctx world node next world' := by
  constructor
  · intro h
    cases node with
    | conditional | loop => cases h; exact .controls rfl
    | functionImport => cases h; exact .imports
    | stateAssign name value =>
      simp only [act, Computation.bind_ok_iff, Acting.ofEval_ok_iff] at h
      obtain ⟨stored, _, ⟨evaluated, rfl⟩, h⟩ := h
      cases h
      exact .assigns evaluated
    | effect e =>
      cases e with
      | call name args target =>
        simp only [act, perform, Computation.bind_ok_iff, Acting.ofEval_ok_iff, Acting.call_ok_iff,
          Computation.lift_ok_iff] at h
        obtain ⟨function, _, ⟨found, rfl⟩, values, _, ⟨evaluated, rfl⟩, result, _,
          ⟨host, called, rfl⟩, h⟩ := h
        cases h
        exact .calls found evaluated called
      | registerTools => cases h; exact .registers
      | run => cases h; exact .runs
      | clearContext => cases h; exact .clearsContext
      | clearTools => cases h; exact .clearsTools
    | text | interpolation | block | «include» =>
      simp only [act, Computation.bind_ok_iff, Acting.ofLoading_ok_iff] at h
      obtain ⟨text, _, ⟨cache, rendered, rfl⟩, h⟩ := h
      cases h
      exact .renders rfl rendered
  · intro h
    cases h with
    | controls control =>
      cases node with
      | conditional | loop => rfl
      | _ => cases control
    | imports | registers | runs | clearsContext | clearsTools => rfl
    | assigns evaluated =>
      simp only [act, Computation.bind_ok_iff, Acting.ofEval_ok_iff]
      exact ⟨_, _, ⟨evaluated, rfl⟩, rfl⟩
    | @calls name args target function values result host found evaluated called =>
      simp only [act, perform, Computation.bind_ok_iff, Acting.ofEval_ok_iff, Acting.call_ok_iff,
        Computation.lift_ok_iff]
      refine ⟨function, _, ⟨found, rfl⟩, values, _, ⟨evaluated, rfl⟩, result, _,
        ⟨host, called, rfl⟩, ?_⟩
      cases target <;> rfl
    | renders prose rendered =>
      cases node with
      | text | interpolation | block | «include» =>
        simp only [act, Computation.bind_ok_iff, Acting.ofLoading_ok_iff]
        exact ⟨_, _, ⟨_, rendered, rfl⟩, rfl⟩
      | _ => cases prose

theorem act_error_iff {setup : Setup σ} {s : Session} {ctx : Context} {node : Node}
    {world world' : World σ} {e : EffectError} :
    s.act setup ctx node world = (.error e, world') ↔ Fails setup s ctx world node e world' := by
  constructor
  · intro h
    cases node with
    | conditional | loop | functionImport => cases h
    | stateAssign name value =>
      simp only [act, Computation.bind_error_iff, Acting.ofEval_error_iff] at h
      obtain ⟨cause, evaluated, rfl, rfl⟩ | ⟨_, _, _, h⟩ := h
      · exact .assigns evaluated
      · cases h
    | effect e =>
      cases e with
      | call name args target =>
        simp only [act, perform, Computation.bind_error_iff, Acting.ofEval_error_iff,
          Acting.ofEval_ok_iff, Acting.call_error_iff, Computation.lift_error_iff,
          Computation.lift_ok_iff] at h
        obtain ⟨missing, rfl⟩ | ⟨function, _, ⟨found, rfl⟩, h⟩ := h
        · exact .lookup missing
        obtain ⟨cause, evaluated, rfl, rfl⟩ | ⟨values, _, ⟨evaluated, rfl⟩, h⟩ := h
        · exact .arguments found evaluated
        obtain ⟨message, host, called, rfl, rfl⟩ | ⟨_, _, _, h⟩ := h
        · exact .calls found evaluated called
        · cases h
      | registerTools | run | clearContext | clearTools => cases h
    | text | interpolation | block | «include» =>
      simp only [act, Computation.bind_error_iff, Acting.ofLoading_error_iff] at h
      obtain ⟨cause, cache, rendered, rfl, rfl⟩ | ⟨_, _, _, h⟩ := h
      · exact .renders rfl rendered
      · cases h
  · intro h
    cases h with
    | assigns evaluated =>
      simp only [act, Computation.bind_error_iff, Acting.ofEval_error_iff]
      exact .inl ⟨_, evaluated, rfl, trivial⟩
    | lookup missing =>
      simp only [act, perform, Computation.bind_error_iff, Computation.lift_error_iff]
      exact .inl ⟨missing, trivial⟩
    | arguments found evaluated =>
      simp only [act, perform, Computation.bind_error_iff, Computation.lift_ok_iff,
        Acting.ofEval_error_iff]
      exact .inr ⟨_, _, ⟨found, rfl⟩, .inl ⟨_, evaluated, rfl, rfl⟩⟩
    | calls found evaluated called =>
      simp only [act, perform, Computation.bind_error_iff, Computation.lift_ok_iff,
        Acting.ofEval_ok_iff, Acting.call_error_iff]
      exact .inr ⟨_, _, ⟨found, rfl⟩, .inr ⟨_, _, ⟨evaluated, rfl⟩, .inl ⟨_, _, called, rfl, rfl⟩⟩⟩
    | renders prose rendered =>
      cases node with
      | text | interpolation | block | «include» =>
        simp only [act, Computation.bind_error_iff, Acting.ofLoading_error_iff]
        exact .inl ⟨_, _, rendered, rfl, rfl⟩
      | _ => cases prose

theorem foldl_addImport (s : Session) (names : List String) (source : String) :
    ∃ imports, names.foldl (fun s name => s.addImport name source) s = { s with imports } ∧
      ∀ name, module? { s with imports } name =
        if name ∈ names then some source else s.module? name := by
  -- All names come from one source, so that it does not matter which of them is imported last.
  induction names generalizing s with
  | nil => exact ⟨s.imports, rfl, fun name => by simp⟩
  | cons first rest ih =>
    obtain ⟨imports, folded, modules⟩ := ih (s.addImport first source)
    refine ⟨imports, folded, fun name => (modules name).trans ?_⟩
    simp only [module?_addImport, List.mem_cons]
    by_cases inRest : name ∈ rest <;> by_cases here : first = name <;>
      simp [inRest, here, eq_comm (a := name)]

theorem Acts.eq_of_isControl {setup : Setup σ} {world world' : World σ} {ctx : Context}
    {node : Node} {s next : Session} (acts : Acts setup s ctx world node next world')
    (control : node.isControl) : next = s ∧ world' = world := by
  cases acts with
  | controls => exact ⟨rfl, rfl⟩
  | renders prose =>
    cases node with
    | conditional | loop => cases prose
    | _ => cases control
  | _ => cases control

/-- Only a run changes the phase, and it changes nothing else but the log. -/
theorem Acts.phase_cases {setup : Setup σ} {world world' : World σ} {ctx : Context} {node : Node}
    {s next : Session} (acts : Acts setup s ctx world node next world') :
    next.phase = s.phase ∨
      node = .effect .run ∧ next.phase = .suspended s.state.request ∧ next.state = s.state := by
  cases acts with
  | runs => exact .inr ⟨rfl, rfl, rfl⟩
  | @imports names source =>
    obtain ⟨imports, folded, _⟩ := foldl_addImport s names source
    rw [folded]
    exact .inl rfl
  | @calls _ _ target => cases target <;> exact .inl rfl
  | _ => exact .inl rfl

/-- Whatever a node does, it keeps the calls, the turn, and the tools apart from each other. -/
theorem Acts.keeps {setup : Setup σ} {world world' : World σ} {ctx : Context} {node : Node}
    {s next : Session} (acts : Acts setup s ctx world node next world') :
    next.state.pendingCalls = s.state.pendingCalls ∧ next.state.turn = s.state.turn ∧
      (s.state.tools.Nodup → next.state.tools.Nodup) := by
  cases acts with
  | @imports names source =>
    obtain ⟨imports, folded, _⟩ := foldl_addImport s names source
    rw [folded]
    exact ⟨rfl, rfl, id⟩
  | @calls _ _ target => cases target <;> exact ⟨rfl, rfl, id⟩
  | @registers names =>
    obtain ⟨tools, folded, nodup⟩ := SessionState.foldl_registerTool s.state names
    rw [folded]
    exact ⟨rfl, rfl, nodup⟩
  | clearsTools => exact ⟨rfl, rfl, fun _ => List.nodup_nil⟩
  | @renders _ text => simp only [addProse, record]; split <;> exact ⟨rfl, rfl, id⟩
  | _ => exact ⟨rfl, rfl, id⟩

/-- What an executed segment leaves: its effect on the session, below the frames that it opens. -/
theorem execute_ok_iff {setup : Setup σ} {s next : Session} {segment : Segment}
    {world world' : World σ} : s.execute setup segment world = (.ok next, world') ↔
      ∃ frames acted, opened (s.scope setup segment.bindings) segment = .ok frames ∧
        Acts setup s (s.scope setup segment.bindings) world segment.node acted world' ∧
        next = { acted with stack := frames ++ s.stack } := by
  simp only [execute, Computation.bind_ok_iff, Acting.ofEval_ok_iff, act_ok_iff]
  constructor
  · rintro ⟨frames, _, ⟨opens, rfl⟩, acted, _, acts, h⟩
    cases h
    exact ⟨frames, acted, opens, acts, rfl⟩
  · rintro ⟨frames, acted, opens, acts, rfl⟩
    exact ⟨frames, _, ⟨opens, rfl⟩, acted, _, acts, rfl⟩

/-- A segment fails where it evaluates what it opens, or where it acts. -/
theorem execute_error_iff {setup : Setup σ} {s : Session} {segment : Segment}
    {world world' : World σ} {e : EffectError} :
    s.execute setup segment world = (.error e, world') ↔
      (∃ cause, opened (s.scope setup segment.bindings) segment = .error cause ∧
        e = .eval cause ∧ world' = world) ∨
      ∃ frames, opened (s.scope setup segment.bindings) segment = .ok frames ∧
        Fails setup s (s.scope setup segment.bindings) world segment.node e world' := by
  simp only [execute, Computation.bind_error_iff, Acting.ofEval_ok_iff, Acting.ofEval_error_iff,
    act_error_iff]
  constructor
  · rintro (failed | ⟨frames, _, ⟨opens, rfl⟩, fails | ⟨_, _, _, h⟩⟩)
    · exact .inl failed
    · exact .inr ⟨frames, opens, fails⟩
    · cases h
  · rintro (failed | ⟨frames, opens, fails⟩)
    · exact .inl failed
    · exact .inr ⟨frames, _, ⟨opens, rfl⟩, .inl fails⟩

/-- A segment that was executed leaves the session active, or waiting for what its state asks. -/
theorem phase_of_execute_ok {setup : Setup σ} {s next : Session} {segment : Segment}
    {world world' : World σ} (active : s.phase.isActive)
    (h : s.execute setup segment world = (.ok next, world')) :
    next.phase.isActive ∨ next.phase = .suspended next.state.request := by
  obtain ⟨frames, acted, _, acts, rfl⟩ := execute_ok_iff.mp h
  rcases acts.phase_cases with same | ⟨_, suspended, same⟩
  · exact .inl (same ▸ active)
  · exact .inr (same ▸ suspended)

theorem progress_of_isActive {s : Session} (active : s.phase.isActive) : s.progress = .advanced := by
  obtain ⟨state, phase, stack, imports, events⟩ := s
  cases phase with
  | suspended => cases active
  | _ => rfl

theorem turn_of_execute_ok {setup : Setup σ} {s next : Session} {segment : Segment}
    {world world' : World σ} (h : s.execute setup segment world = (.ok next, world')) :
    next.state.turn = s.state.turn := by
  obtain ⟨frames, acted, _, acts, rfl⟩ := execute_ok_iff.mp h
  exact acts.keeps.2.1

theorem Fails.ne_invalidStep {setup : Setup σ} {s : Session} {ctx : Context} {node : Node}
    {world world' : World σ} {e : EffectError} (fails : Fails setup s ctx world node e world')
    (cause : StepRefusal) : e ≠ .invalidStep cause := by
  rintro rfl
  cases fails with
  | lookup missing =>
    unfold function at missing
    split at missing
    · cases missing
    · split at missing <;> cases missing

theorem ne_invalidStep_of_execute_error {setup : Setup σ} {s : Session} {segment : Segment}
    {world world' : World σ} {e : EffectError}
    (h : s.execute setup segment world = (.error e, world')) (cause : StepRefusal) :
    e ≠ .invalidStep cause := by
  rcases execute_error_iff.mp h with ⟨_, _, rfl, _⟩ | ⟨_, _, fails⟩
  · nofun
  · exact fails.ne_invalidStep cause

def taking (s : Session) (stack : Stack) : Session :=
  { s with phase := .running, stack }

theorem advance_of_isActive {s : Session} (setup : Setup σ) (world : World σ)
    (active : s.phase.isActive) :
    s.advance setup world = match s.stack.next? with
      | none => ((.ok .completed, s.complete), world)
      | some (segment, stack) => (s.taking stack).attempt setup segment world := by
  obtain ⟨state, phase, stack, imports, events⟩ := s
  cases phase with
  | ready | running => simp only [advance, taking]; cases stack.next? <;> rfl
  | suspended | completed | failed => cases active

theorem advance_of_next?_none {s : Session} (setup : Setup σ) (world : World σ)
    (active : s.phase.isActive) (done : s.stack.next? = none) :
    s.advance setup world = ((.ok .completed, s.complete), world) := by
  rw [advance_of_isActive setup world active, done]

theorem advance_of_next?_some {s : Session} {segment : Segment} {stack : Stack} (setup : Setup σ)
    (world : World σ) (active : s.phase.isActive) (found : s.stack.next? = some (segment, stack)) :
    s.advance setup world = (s.taking stack).attempt setup segment world := by
  rw [advance_of_isActive setup world active, found]

/-- An active session completes, or executes its next segment. -/
theorem advance_cases (setup : Setup σ) (s : Session) (world : World σ)
    (active : s.phase.isActive) :
    (s.stack.next? = none ∧ s.advance setup world = ((.ok .completed, s.complete), world)) ∨
    (∃ segment stack next world', s.stack.next? = some (segment, stack) ∧
      (s.taking stack).execute setup segment world = (.ok next, world') ∧
      s.advance setup world = ((.ok next.progress, next), world')) ∨
    (∃ segment stack e world', s.stack.next? = some (segment, stack) ∧
      (s.taking stack).execute setup segment world = (.error e, world') ∧
      s.advance setup world = ((.error e, (s.taking stack).fail e (.segment segment)), world')) := by
  rw [advance_of_isActive setup world active]
  cases found : s.stack.next? with
  | none => exact .inl ⟨rfl, rfl⟩
  | some taken =>
    obtain ⟨segment, stack⟩ := taken
    simp only [attempt_eq]
    rcases executed : (s.taking stack).execute setup segment world with ⟨e | next, world'⟩
    · exact .inr (.inr ⟨segment, stack, e, world', rfl, executed, rfl⟩)
    · exact .inr (.inl ⟨segment, stack, next, world', rfl, executed, rfl⟩)

theorem advance_of_not_isActive {s : Session} (setup : Setup σ) (world : World σ)
    (inactive : s.phase.isActive = false) :
    ∃ cause, s.advance setup world = ((.error (.invalidStep cause), s), world) := by
  obtain ⟨state, phase, stack, imports, events⟩ := s
  cases phase with
  | ready | running => cases inactive
  | suspended | completed | failed => exact ⟨_, rfl⟩

def retrying (s : Session) (segment : Segment) : Session :=
  { s with phase := .running }.record .retry
    [("segment", .str (RetryPoint.segment segment).name)]

theorem retry_of_failed {s : Session} {segment : Segment} (setup : Setup σ) (world : World σ)
    (failed : s.phase = .failed (.segment segment)) :
    s.retry setup world =
      match (s.retrying segment).attempt setup segment world with
      | ((.ok (.suspended request), next), world) => ((.suspended request, next), world)
      | ((.ok _, next), world) => next.runOn setup world
      | ((.error e, next), world) => ((.failed e, next), world) := by
  obtain ⟨state, phase, stack, imports, events⟩ := s
  cases failed
  rfl

/-- A segment that is tried again fails again, or suspends the session, or the session runs on. -/
theorem retry_cases {s : Session} {segment : Segment} (setup : Setup σ) (world : World σ)
    (failed : s.phase = .failed (.segment segment)) :
    (∃ next world', (s.retrying segment).execute setup segment world = (.ok next, world') ∧
      (next.phase.isActive ∧ s.retry setup world = next.runOn setup world' ∨
        next.phase = .suspended next.state.request ∧
          s.retry setup world = ((.suspended next.state.request, next), world'))) ∨
    (∃ e world', (s.retrying segment).execute setup segment world = (.error e, world') ∧
      s.retry setup world =
        ((.failed e, (s.retrying segment).fail e (.segment segment)), world')) := by
  rw [retry_of_failed setup world failed, attempt_eq]
  rcases executed : (s.retrying segment).execute setup segment world with ⟨e | next, world'⟩
  · exact .inr ⟨e, world', rfl, rfl⟩
  · refine .inl ⟨next, world', rfl, ?_⟩
    rcases phase_of_execute_ok rfl executed with going | waiting
    · exact .inl ⟨going, by simp only [progress_of_isActive going]⟩
    · exact .inr ⟨waiting, by simp only [progress, waiting]⟩

theorem step_of_isActive {s : Session} (setup : Setup σ) (world : World σ)
    (active : s.phase.isActive) : s.step setup none world = s.runOn setup world := by
  obtain ⟨state, phase, stack, imports, events⟩ := s
  cases phase with
  | ready | running => rfl
  | suspended | completed | failed => cases active

theorem isActive_of_advance {setup : Setup σ} {s next : Session} {world world' : World σ}
    (active : s.phase.isActive)
    (h : s.advance setup world = ((.ok .advanced, next), world')) : next.phase.isActive := by
  rcases advance_cases setup s world active with ⟨_, advanced⟩ |
    ⟨_, _, after, _, _, executed, advanced⟩ | ⟨_, _, _, _, _, _, advanced⟩
  · cases advanced.symm.trans h
  · rcases phase_of_execute_ok rfl executed with going | waiting
    · rw [progress_of_isActive going] at advanced
      cases advanced.symm.trans h
      exact going
    · rw [progress, waiting] at advanced
      cases advanced.symm.trans h
  · cases advanced.symm.trans h

theorem runOn_of_advance {setup : Setup σ} {s next : Session} {world world' : World σ}
    {progress : Except EffectError Progress} (h : s.advance setup world = ((progress, next), world')) :
    s.runOn setup world = match progress with
      | .ok .advanced => next.runOn setup world'
      | .ok (.suspended request) => ((.suspended request, next), world')
      | .ok .completed => ((.completed next.state, next), world')
      | .error e => ((.failed e, next), world') := by
  rw [runOn]
  split <;> next advanced => cases advanced.symm.trans h; rfl

/-- What every advance keeps, running on keeps. -/
theorem runOn_invariant {setup : Setup σ} {P : Session → World σ → Prop}
    (advances : ∀ s world, P s world →
      P (s.advance setup world).1.2 (s.advance setup world).2)
    {s : Session} {world : World σ} (holds : P s world) :
    P (s.runOn setup world).1.2 (s.runOn setup world).2 := by
  fun_induction runOn setup s world with
  | case1 s world next world' advanced later ih =>
    have kept := advances s world holds
    rw [advanced] at kept
    exact ih kept
  | case2 s world request next world' advanced | case3 s world next world' advanced
  | case4 s world e next world' advanced =>
    have kept := advances s world holds
    rw [advanced] at kept
    exact kept

theorem turn_of_advance (setup : Setup σ) (s : Session) (world : World σ) :
    (s.advance setup world).1.2.state.turn = s.state.turn := by
  cases active : s.phase.isActive with
  | false =>
    obtain ⟨cause, refused⟩ := advance_of_not_isActive setup world active
    rw [refused]
  | true =>
    rcases advance_cases setup s world active with ⟨_, advanced⟩ |
      ⟨_, stack, _, _, _, executed, advanced⟩ | ⟨_, _, _, _, _, _, advanced⟩
    · rw [advanced]; rfl
    · rw [advanced]; exact turn_of_execute_ok (s := s.taking stack) executed
    · rw [advanced]; rfl

theorem turn_of_runOn (setup : Setup σ) (s : Session) (world : World σ) :
    (s.runOn setup world).1.2.state.turn = s.state.turn :=
  runOn_invariant (P := fun next _ => next.state.turn = s.state.turn)
    (fun next world same => (turn_of_advance setup next world).trans same) rfl

theorem turn_of_response {s : Session} {request : RunRequest} (setup : Setup σ) (text : String)
    (world : World σ) (suspended : s.phase = .suspended request) :
    (s.step setup (some (.response text)) world).1.2.state.turn = s.state.turn + 1 := by
  simp only [step, suspended]
  exact turn_of_runOn setup (s.answered setup text) world

theorem turn_of_retry (setup : Setup σ) (s : Session) (world : World σ) :
    (s.retry setup world).1.2.state.turn = s.state.turn := by
  cases phase : s.phase with
  | ready | running | suspended | completed => simp only [retry, phase]
  | failed point =>
    cases point with
    | run request => simp only [retry, phase]; rfl
    | segment segment =>
      rcases retry_cases setup world phase with ⟨next, world', executed, ⟨_, retried⟩ | ⟨_, retried⟩⟩ |
        ⟨_, _, _, retried⟩
      · rw [retried, turn_of_runOn]; exact turn_of_execute_ok (s := s.retrying segment) executed
      · rw [retried]; exact turn_of_execute_ok (s := s.retrying segment) executed
      · rw [retried]; rfl

end Session

end PromptScript
