import PromptScript.Proofs.Session.Transition
import PromptScript.Proofs.Session.Walk

/-!
What is left to do of a session on its stack is a walk of its own: the nodes of the innermost frame,
then those of the next one. Executing a segment keeps this walk.
-/
namespace PromptScript

variable {σ : Type}

namespace Session

/-- The segments that have taken effect, as the log tells. -/
def effects (s : Session) : List Event :=
  s.events.filter (·.kind.isEffect)

/-- What a walk sees of a session. -/
def scene (s : Session) (world : World σ) (answers : List String) (requests : List RunRequest) :
    Scene σ :=
  ⟨s.state, s.effects, s.module?, world, answers, requests⟩

theorem scope_scene (setup : Setup σ) (s : Session) (bindings : Mapping) (world : World σ)
    (answers : List String) (requests : List RunRequest) :
    (s.scene world answers requests).scope setup bindings = s.scope setup bindings :=
  rfl

variable {s : Session} {kind : EventKind} {details : Mapping} {world : World σ}
  {answers : List String} {requests : List RunRequest}

theorem scene_record_of_isEffect (effect : kind.isEffect = true) :
    (s.record kind details).scene world answers requests =
      { s.scene world answers requests with
        effects := s.effects ++ [⟨kind, s.state.turn, .map details⟩] } := by
  have grown : (s.record kind details).effects =
      s.effects ++ [⟨kind, s.state.turn, .map details⟩] := by
    simp [effects, record, effect]
  rw [scene, grown]
  rfl

theorem scene_record_of_not_isEffect (other : kind.isEffect = false) :
    (s.record kind details).scene world answers requests = s.scene world answers requests := by
  have same : (s.record kind details).effects = s.effects := by simp [effects, record, other]
  rw [scene, same]
  rfl

end Session

def Frame.walk (setup : Setup σ) : Frame → Walking σ Unit
  | .nodes rest bindings => walkNodes setup bindings rest
  | .loop var body items bindings =>
    forM items.toList fun value => walkNodes setup (Mapping.insert bindings var value) body

namespace Stack

/-- The walk through what a stack has left to do. -/
def walk (setup : Setup σ) : Stack → Walking σ Unit
  | [] => return ()
  | frame :: rest => do
    frame.walk setup
    walk setup rest

theorem walk_append (setup : Setup σ) (inner outer : Stack) :
    walk setup (inner ++ outer) = (do walk setup inner; walk setup outer) := by
  induction inner with
  | nil => simp [walk]
  | cons frame rest ih => simp only [List.cons_append, walk, ih, bind_assoc]

theorem walk_of_next?_none {setup : Setup σ} {stack : Stack} (h : stack.next? = none) :
    walk setup stack = pure () := by
  fun_induction next? stack with
  | case1 => rfl
  | case2 bindings rest ih => simp only [walk, Frame.walk, walkNodes, pure_bind, ih h]
  | case3 => cases h
  | case4 var body items bindings rest done ih =>
    simp only [walk, Frame.walk, LoopItems.toList_of_next?_none done, ih h]
    rfl
  -- An iteration is unrolled: the body becomes a frame of its own above the rest of the loop.
  | case5 var body items bindings rest value later found ih =>
    have left := ih h
    simp only [walk, Frame.walk] at left ⊢
    rw [LoopItems.toList_of_next?_some found]
    simpa only [List.forM_cons, bind_assoc] using left

theorem walk_of_next?_some {setup : Setup σ} {stack rest : Stack} {segment : Segment}
    (h : stack.next? = some (segment, rest)) :
    walk setup stack = (do segment.node.walk setup segment.bindings; walk setup rest) := by
  fun_induction next? stack with
  | case1 => cases h
  | case2 bindings outer ih => simp only [walk, Frame.walk, walkNodes, pure_bind, ih h]
  | case3 => cases h; simp only [walk, Frame.walk, walkNodes, bind_assoc]
  | case4 var body items bindings outer done ih =>
    rw [← ih h, walk, Frame.walk, LoopItems.toList_of_next?_none done]
    rfl
  | case5 var body items bindings outer value later found ih =>
    have left := ih h
    simp only [walk, Frame.walk] at left ⊢
    rw [LoopItems.toList_of_next?_some found]
    simpa only [List.forM_cons, bind_assoc] using left

end Stack

namespace Walking

variable {α : Type}

theorem ofActing_of_ok {f : Scene σ → Acting σ α} {scene : Scene σ} {a : α} {world : World σ}
    (h : f scene scene.world = (.ok a, world)) :
    ofActing f scene = (.ok a, { scene with world }) := by
  simp only [ofActing, ExceptT.mk, h]
  rfl

theorem ofActing_of_error {f : Scene σ → Acting σ α} {scene : Scene σ} {e : EffectError}
    {world : World σ} (h : f scene scene.world = (.error e, world)) :
    ofActing f scene = (.error (.failed e), { scene with world }) := by
  simp only [ofActing, ExceptT.mk, h]
  rfl

variable {setup : Setup σ} {bindings : Mapping} {scene : Scene σ}

theorem eval_of_ok {f : Context → Except EvalError α} {a : α}
    (h : f (scene.scope setup bindings) = .ok a) :
    eval setup bindings f scene = (.ok a, scene) :=
  ofActing_of_ok (Acting.ofEval_ok_iff.mpr ⟨h, rfl⟩)

theorem eval_of_error {f : Context → Except EvalError α} {cause : EvalError}
    (h : f (scene.scope setup bindings) = .error cause) :
    eval setup bindings f scene = (.error (.failed (.eval cause)), scene) :=
  ofActing_of_error (Acting.ofEval_error_iff.mpr ⟨cause, h, rfl, rfl⟩)

theorem function_of_ok {s : Session} {world : World σ} {answers : List String}
    {requests : List RunRequest} {name : String} {function : HostFunction σ}
    (h : s.function setup name = .ok function) :
    Walking.function setup name (s.scene world answers requests) =
      (.ok function, s.scene world answers requests) :=
  ofActing_of_ok (Computation.lift_ok_iff.mpr ⟨h, rfl⟩)

theorem function_of_error {s : Session} {world : World σ} {answers : List String}
    {requests : List RunRequest} {name : String} {e : EffectError}
    (h : s.function setup name = .error e) :
    Walking.function setup name (s.scene world answers requests) =
      (.error (.failed e), s.scene world answers requests) :=
  ofActing_of_error (Computation.lift_error_iff.mpr ⟨h, rfl⟩)

theorem walk_conditional (branches : List (Expr × List Node)) (orElse : Option (List Node)) :
    (Node.conditional branches orElse).walk setup bindings scene =
      match Session.choose (scene.scope setup bindings) orElse branches with
      | .error cause => (.error (.failed (.eval cause)), scene)
      | .ok last => walkLast setup bindings last scene := by
  rw [Node.walk]
  induction branches with
  | nil => simp [walkBranches, Session.choose]
  | cons branch rest ih =>
    obtain ⟨condition, body⟩ := branch
    simp only [walkBranches, bind_assoc, Session.choose_cons]
    cases holds : condition.holds (scene.scope setup bindings) with
    | error cause => exact Computation.bind_of_error (eval_of_error holds)
    | ok truth =>
      rw [Computation.bind_of_ok (eval_of_ok holds)]
      cases truth with
      | true => simp [walkLast]
      | false => exact ih

end Walking

theorem Node.walk_of_isProse {setup : Setup σ} {bindings : Mapping} {node : Node}
    (prose : node.isProse) :
    node.walk setup bindings = Walking.prose setup bindings node := by
  cases node with
  | text | interpolation | block | «include» => rw [Node.walk] <;> nofun
  | _ => cases prose

namespace Session

variable {setup : Setup σ} {s next : Session} {world world' : World σ} {answers : List String}
  {requests : List RunRequest}

/-- The walk through what a session has left to do: before its stack, what is pending or has
failed. -/
def walk (setup : Setup σ) (s : Session) : Walking σ Unit :=
  match s.phase with
  | .suspended _ | .failed (.run _) => do
    Walking.ask setup
    Stack.walk setup s.stack
  | .failed (.segment segment) => do
    segment.node.walk setup segment.bindings
    Stack.walk setup s.stack
  | _ => Stack.walk setup s.stack

theorem walk_of_isActive (active : s.phase.isActive) : s.walk setup = Stack.walk setup s.stack := by
  obtain ⟨state, phase, stack, imports, events⟩ := s
  cases phase with
  | suspended | failed => cases active
  | _ => rfl

theorem walk_start (nodes : List Node) (state : SessionState) :
    (Session.start nodes state).walk setup = walkNodes setup [] nodes := by
  simp [walk, start, Stack.walk, Frame.walk]

theorem walk_of_suspended {request : RunRequest} (suspended : s.phase = .suspended request) :
    s.walk setup = (do Walking.ask setup; Stack.walk setup s.stack) := by
  simp only [walk, suspended]

/-- A node that acts, and does not wait for the agent, does to a scene what it does to the
session. -/
theorem walk_of_acts {node : Node} {bindings : Mapping}
    (acts : Acts setup s (s.scope setup bindings) world node next world')
    (acting : node.isControl = false) (going : next.phase.isActive) :
    node.walk setup bindings (s.scene world answers requests) =
      (.ok (), next.scene world' answers requests) := by
  cases acts with
  | controls control => rw [acting] at control; cases control
  | @imports names source =>
    obtain ⟨imports, folded, modules⟩ := foldl_addImport s names source
    -- The session keeps its imports as a list, the scene as the function that looks a name up.
    have same : (fun name => if name ∈ names then some source else s.module? name) =
        module? { s with imports } := funext fun name => (modules name).symm
    rw [folded, scene_record_of_isEffect rfl, Node.walk]
    simp only [scene, ← same]
    rfl
  | assigns evaluated =>
    rw [Node.walk, Computation.bind_of_ok (Walking.eval_of_ok evaluated), scene_record_of_isEffect rfl]
    rfl
  | @calls name args target function values result host found evaluated called =>
    rw [Node.walk, Effect.walk, Computation.bind_of_ok (Walking.function_of_ok found),
      Computation.bind_of_ok (Walking.eval_of_ok evaluated),
      Computation.bind_of_ok (Walking.ofActing_of_ok (Acting.call_ok_iff.mpr ⟨host, called, rfl⟩)),
      scene_record_of_isEffect rfl]
    cases target <;> rfl
  | registers | clearsContext | clearsTools => rw [scene_record_of_isEffect rfl]; rfl
  | runs => cases going
  | @renders _ text cache prose rendered =>
    rw [Node.walk_of_isProse prose, Walking.prose, Computation.bind_of_ok (Walking.ofActing_of_ok
      (Acting.ofLoading_ok_iff.mpr ⟨cache, rendered, rfl⟩)), addProse, scene_record_of_isEffect rfl]
    rfl

theorem walk_of_fails {node : Node} {bindings : Mapping} {e : EffectError}
    (fails : Fails setup s (s.scope setup bindings) world node e world') :
    node.walk setup bindings (s.scene world answers requests) =
      (.error (.failed e), s.scene world' answers requests) := by
  cases fails with
  | assigns evaluated =>
    rw [Node.walk, Computation.bind_of_error (Walking.eval_of_error evaluated)]
  | lookup missing =>
    rw [Node.walk, Effect.walk, Computation.bind_of_error (Walking.function_of_error missing)]
  | arguments found evaluated =>
    rw [Node.walk, Effect.walk, Computation.bind_of_ok (Walking.function_of_ok found),
      Computation.bind_of_error (Walking.eval_of_error evaluated)]
  | @calls name args target function values message host found evaluated called =>
    rw [Node.walk, Effect.walk, Computation.bind_of_ok (Walking.function_of_ok found),
      Computation.bind_of_ok (Walking.eval_of_ok evaluated)]
    exact Computation.bind_of_error (Walking.ofActing_of_error
      (Acting.call_error_iff.mpr ⟨message, host, called, rfl, rfl⟩))
  | @renders _ cause cache prose rendered =>
    rw [Node.walk_of_isProse prose]
    exact Computation.bind_of_error (Walking.ofActing_of_error
      (Acting.ofLoading_error_iff.mpr ⟨cause, cache, rendered, rfl, rfl⟩))

theorem walk_of_opened {segment : Segment} {frames : Stack} (control : segment.node.isControl)
    (opens : opened (s.scope setup segment.bindings) segment = .ok frames) :
    segment.node.walk setup segment.bindings (s.scene world answers requests) =
      Stack.walk setup frames (s.scene world answers requests) := by
  obtain ⟨node, bindings⟩ := segment
  cases node with
  | conditional branches orElse =>
    simp only [opened] at opens
    cases chosen : choose (s.scope setup bindings) orElse branches with
    | error cause => rw [chosen] at opens; cases opens
    | ok last =>
      rw [chosen] at opens
      rw [Walking.walk_conditional, scope_scene, chosen]
      cases last with
      | none => cases opens; rfl
      | some body => cases opens; simp [walkLast, Stack.walk, Frame.walk]
  | loop var iterable body =>
    simp only [opened] at opens
    cases found : iterable.items (s.scope setup bindings) with
    | error cause => rw [found] at opens; cases opens
    | ok items =>
      rw [found] at opens
      cases opens
      rw [Node.walk, Computation.bind_of_ok (Walking.eval_of_ok found)]
      simp [Stack.walk, Frame.walk]
  | _ => cases control

theorem opened_of_acting {ctx : Context} {segment : Segment} (acting : segment.node.isControl = false) :
    opened ctx segment = .ok [] := by
  obtain ⟨node, bindings⟩ := segment
  cases node with
  | conditional | loop => cases acting
  | _ => rfl

/-- Executing a segment keeps the walk that is left to do. -/
theorem walk_of_execute_ok {segment : Segment} (active : s.phase.isActive)
    (h : s.execute setup segment world = (.ok next, world')) (answers : List String)
    (requests : List RunRequest) :
    (do segment.node.walk setup segment.bindings; Stack.walk setup s.stack)
        (s.scene world answers requests) =
      next.walk setup (next.scene world' answers requests) := by
  obtain ⟨frames, acted, opens, acts, rfl⟩ := execute_ok_iff.mp h
  cases control : segment.node.isControl with
  | true =>
    -- Opening frames changes nothing but the stack; the frames are walked where the node was.
    obtain ⟨rfl, rfl⟩ := acts.eq_of_isControl control
    rw [walk_of_isActive (by exact active), Stack.walk_append,
      Computation.bind_congr (walk_of_opened control opens)]
    exact Computation.bind_congr rfl
  | false =>
    -- Any other node acts, and leaves the stack as it is.
    rw [opened_of_acting control] at opens
    cases opens
    rcases acts.phase_cases with same | ⟨isRun, suspended, same⟩
    · have going : acted.phase.isActive := same ▸ active
      rw [Computation.bind_of_ok (walk_of_acts acts control going),
        walk_of_isActive (by exact going)]
      rfl
    · -- The run is not walked through yet: the session still has to ask for it.
      obtain ⟨node, bindings⟩ := segment
      cases isRun
      cases acts with
      | runs =>
        have unseen : ({ s with phase := .suspended s.state.request }.record .run
            [("tools", .list (s.state.tools.map .str))]).scene world answers requests =
              s.scene world answers requests := scene_record_of_not_isEffect rfl
        exact congrArg _ unseen.symm
      | controls opening => cases opening
      | renders prose => cases prose

theorem walk_of_execute_error {segment : Segment} {e : EffectError}
    (h : s.execute setup segment world = (.error e, world')) (answers : List String)
    (requests : List RunRequest) :
    segment.node.walk setup segment.bindings (s.scene world answers requests) =
      (.error (.failed e), s.scene world' answers requests) := by
  rcases execute_error_iff.mp h with ⟨cause, opens, rfl, rfl⟩ | ⟨frames, _, fails⟩
  · obtain ⟨node, bindings⟩ := segment
    cases node with
    | conditional branches orElse =>
      simp only [opened] at opens
      cases chosen : choose (s.scope setup bindings) orElse branches with
      | error cause =>
        rw [chosen] at opens
        cases opens
        rw [Walking.walk_conditional, scope_scene, chosen]
      | ok last => rw [chosen] at opens; cases last <;> cases opens
    | loop var iterable body =>
      simp only [opened] at opens
      cases found : iterable.items (s.scope setup bindings) with
      | error cause =>
        rw [found] at opens
        cases opens
        rw [Node.walk, Computation.bind_of_error (Walking.eval_of_error found)]
      | ok items => rw [found] at opens; cases opens
    | _ => cases opens
  · exact walk_of_fails fails

end Session

end PromptScript
