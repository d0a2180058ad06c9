import PromptScript.Proofs.Session.Call

/-!
What holds of a session whatever its host has done with it: the phase, the pending run, what is to be
tried again and the state fit each other.
-/
namespace PromptScript

variable {σ : Type}

/-- Whether a call has answered the pending run. -/
def Reply.isAnswerTo (reply : Reply) : Call → Bool
  | .step (some (.response _)) => !reply.isRefusal
  | _ => false

namespace Phase

variable {phase : Phase}

theorem name_eq_suspended : phase.name = "suspended" ↔ ∃ request, phase = .suspended request := by
  cases phase <;> simp [name]

theorem name_eq_completed : phase.name = "completed" ↔ phase = .completed := by
  cases phase <;> simp [name]

theorem name_eq_failed : phase.name = "failed" ↔ ∃ point, phase = .failed point := by
  cases phase <;> simp [name]

end Phase

namespace Session

def pendingRun? (s : Session) : Option RunRequest :=
  match s.phase with
  | .suspended request => some request
  | _ => none

def retryPoint? (s : Session) : Option RetryPoint :=
  match s.phase with
  | .failed point => some point
  | _ => none

/-- The phase and the state fit each other, and so many runs have been answered. -/
structure Consistent (turn : Nat) (s : Session) : Prop where
  pending : ∀ request, s.phase = .suspended request → request = s.state.request
  tried : ∀ request, s.phase = .failed (.run request) → request = s.state.request
  calls : s.state.pendingCalls = [] ∨ s.phase = .suspended s.state.request ∨
    s.phase = .failed (.run s.state.request)
  done : s.phase = .completed → s.stack = []
  tools : s.state.tools.Nodup
  turn_eq : s.state.turn = turn

variable {setup : Setup σ} {s next : Session} {world world' : World σ} {turn : Nat}

namespace Consistent

theorem pendingCalls_of_isActive (consistent : s.Consistent turn) (active : s.phase.isActive) :
    s.state.pendingCalls = [] := by
  rcases consistent.calls with none | suspended | failed
  · exact none
  · rw [suspended] at active; cases active
  · rw [failed] at active; cases active

/-- In a phase without a request and without an end, the state alone matters. -/
theorem of_phase (noRun : ∀ request, s.phase ≠ .suspended request ∧ s.phase ≠ .failed (.run request))
    (going : s.phase ≠ .completed) (noCalls : s.state.pendingCalls = [])
    (tools : s.state.tools.Nodup) (turn_eq : s.state.turn = turn) : s.Consistent turn where
  pending request suspended := absurd suspended (noRun request).1
  tried request failed := absurd failed (noRun request).2
  calls := .inl noCalls
  done completed := absurd completed going
  tools := tools
  turn_eq := turn_eq

theorem of_isActive (active : s.phase.isActive) (noCalls : s.state.pendingCalls = [])
    (tools : s.state.tools.Nodup) (turn_eq : s.state.turn = turn) : s.Consistent turn := by
  refine of_phase ?_ ?_ noCalls tools turn_eq
  · rintro request
    constructor <;> intro h <;> rw [h] at active <;> cases active
  · intro h
    rw [h] at active
    cases active

end Consistent

/-- A tool leaves a session as it is, but for a variable that `set_variable` stores. -/
theorem useTool_ok {name : String} {args : List Value} {value : Value}
    (h : s.useTool setup name args world = (.ok (value, next), world')) :
    next = s ∨ name = "set_variable" ∧ ∃ var stored, args.head? = some (.str var) ∧
      next = s.setVariable var stored := by
  unfold useTool at h
  split at h
  · simp only [Computation.bind_ok_iff] at h
    obtain ⟨_, _, _, h⟩ := h
    cases h
    exact .inl rfl
  · split at h
    · next isSet =>
      simp only [Computation.bind_ok_iff, Computation.lift_ok_iff] at h
      obtain ⟨var, _, ⟨argument, rfl⟩, h⟩ := h
      cases h
      refine .inr ⟨isSet, var, _, ?_, rfl⟩
      unfold variableArgument at argument
      split at argument
      · next first => cases argument; exact first
      · cases argument
    · split at h
      · simp only [Computation.bind_ok_iff] at h
        obtain ⟨_, _, _, _, _, _, h⟩ := h
        cases h
        exact .inl rfl
      · cases h

theorem invokeTool_ok {name : String} {args : List Value} {value : Value}
    (h : s.invokeTool setup name args world = (.ok (value, next), world')) :
    ∃ request vars, s.phase = .suspended request ∧
      (vars = s.state.vars ∨ name = "set_variable" ∧ ∃ var stored,
        args.head? = some (.str var) ∧ vars = Mapping.insert s.state.vars var stored) ∧
      next = noteCall { s with state := { s.state with vars } } ⟨name, args, value⟩ := by
  obtain ⟨phase, here⟩ : ∃ phase, s.phase = phase := ⟨_, rfl⟩
  simp only [invokeTool, here] at h
  cases phase with
  | suspended request =>
    simp only [Computation.bind_ok_iff] at h
    obtain ⟨⟨result, used⟩, between, used_ok, h⟩ := h
    cases h
    rcases useTool_ok used_ok with rfl | ⟨isSet, var, stored, first, rfl⟩
    · exact ⟨request, _, here, .inl rfl, rfl⟩
    · exact ⟨request, _, here, .inr ⟨isSet, var, stored, first, rfl⟩, rfl⟩
  | _ => cases h

namespace Consistent

theorem execute {segment : Segment} (consistent : s.Consistent turn) (active : s.phase.isActive)
    (h : s.execute setup segment world = (.ok next, world')) : next.Consistent turn := by
  obtain ⟨frames, acted, _, acts, rfl⟩ := execute_ok_iff.mp h
  obtain ⟨calls, turns, tools⟩ := acts.keeps
  have noCalls := calls.trans (consistent.pendingCalls_of_isActive active)
  rcases acts.phase_cases with same | ⟨_, suspended, same⟩
  -- Either the session goes on, or it waits for the request that it has just made from its state.
  · exact of_isActive (by exact same ▸ active) noCalls (tools consistent.tools)
      (turns.trans consistent.turn_eq)
  · have waiting : acted.phase = .suspended acted.state.request := same ▸ suspended
    exact {
      pending := fun request h => by cases waiting.symm.trans h; rfl
      tried := fun request h => by cases waiting.symm.trans h
      calls := .inl noCalls
      done := fun h => by cases waiting.symm.trans h
      tools := tools consistent.tools
      turn_eq := turns.trans consistent.turn_eq }

theorem fail (consistent : s.Consistent turn) (active : s.phase.isActive) (e : EffectError)
    (segment : Segment) : (s.fail e (.segment segment)).Consistent turn :=
  of_phase (fun _ => ⟨nofun, nofun⟩) nofun (consistent.pendingCalls_of_isActive active)
    consistent.tools consistent.turn_eq

theorem taking (consistent : s.Consistent turn) (active : s.phase.isActive) (stack : Stack) :
    (s.taking stack).Consistent turn :=
  of_isActive rfl (consistent.pendingCalls_of_isActive active) consistent.tools consistent.turn_eq

theorem advance (consistent : s.Consistent turn) (setup : Setup σ) (world : World σ) :
    (s.advance setup world).1.2.Consistent turn := by
  cases active : s.phase.isActive with
  | false =>
    obtain ⟨cause, refused⟩ := advance_of_not_isActive setup world active
    rwa [refused]
  | true =>
    rcases advance_cases setup s world active with ⟨_, advanced⟩ |
      ⟨segment, stack, next, world', _, executed, advanced⟩ |
      ⟨segment, stack, e, world', _, _, advanced⟩
    · rw [advanced]
      exact {
        pending := nofun
        tried := nofun
        calls := .inl (consistent.pendingCalls_of_isActive active)
        done := fun _ => rfl
        tools := consistent.tools
        turn_eq := consistent.turn_eq }
    · rw [advanced]
      exact (consistent.taking active stack).execute rfl executed
    · rw [advanced]
      exact (consistent.taking active stack).fail rfl e segment

theorem runOn (consistent : s.Consistent turn) (setup : Setup σ) (world : World σ) :
    (s.runOn setup world).1.2.Consistent turn :=
  runOn_invariant (P := fun s _ => s.Consistent turn)
    (fun _ world consistent => consistent.advance setup world) consistent

theorem answered (consistent : s.Consistent turn) (setup : Setup σ) (text : String) :
    (s.answered setup text).Consistent (turn + 1) :=
  of_isActive rfl rfl consistent.tools (congrArg (· + 1) consistent.turn_eq)

theorem failRun {request : RunRequest} (consistent : s.Consistent turn)
    (suspended : s.phase = .suspended request) (e : EffectError) :
    (s.fail e (.run request)).Consistent turn := by
  obtain rfl := consistent.pending request suspended
  exact {
    pending := nofun
    tried := fun request h => by cases h; rfl
    calls := .inr (.inr rfl)
    done := nofun
    tools := consistent.tools
    turn_eq := consistent.turn_eq }

theorem retry (consistent : s.Consistent turn) (setup : Setup σ) (world : World σ) :
    (s.retry setup world).1.2.Consistent turn := by
  cases phase : s.phase with
  | ready | running | suspended | completed => simpa only [Session.retry, phase] using consistent
  | failed point =>
    cases point with
    | run request =>
      obtain rfl := consistent.tried request phase
      simp only [Session.retry, phase]
      exact {
        pending := fun request h => by cases h; rfl
        tried := fun request h => by cases h
        calls := .inr (.inl rfl)
        done := fun h => by cases h
        tools := consistent.tools
        turn_eq := consistent.turn_eq }
    | segment segment =>
      have noCalls : s.state.pendingCalls = [] := by
        rcases consistent.calls with none | suspended | failed
        · exact none
        · cases phase.symm.trans suspended
        · cases phase.symm.trans failed
      have again : (s.retrying segment).Consistent turn :=
        of_isActive rfl noCalls consistent.tools consistent.turn_eq
      rcases retry_cases setup world phase with ⟨next, world', executed, on⟩ | ⟨e, world', _, retried⟩
      · have kept := again.execute rfl executed
        rcases on with ⟨_, retried⟩ | ⟨_, retried⟩
        · exact retried ▸ kept.runOn setup world'
        · exact retried ▸ kept
      · exact retried ▸ again.fail rfl e segment

theorem invokeTool {name : String} {args : List Value} {value : Value}
    (consistent : s.Consistent turn)
    (h : s.invokeTool setup name args world = (.ok (value, next), world')) :
    next.Consistent turn := by
  obtain ⟨request, vars, suspended, _, rfl⟩ := invokeTool_ok h
  obtain rfl := consistent.pending request suspended
  exact {
    pending := fun request h => by cases suspended.symm.trans h; rfl
    tried := fun request h => by cases suspended.symm.trans h
    calls := .inr (.inl suspended)
    done := fun h => by cases suspended.symm.trans h
    tools := consistent.tools
    turn_eq := consistent.turn_eq }

theorem of_eq {vars : Mapping} {events : List Event} (consistent : s.Consistent turn) :
    Consistent turn { s with state := { s.state with vars }, events } :=
  ⟨consistent.pending, consistent.tried, consistent.calls, consistent.done, consistent.tools,
    consistent.turn_eq⟩

theorem step (consistent : s.Consistent turn) (setup : Setup σ) (answer : Option RunAnswer)
    (world : World σ) :
    (s.step setup answer world).1.2.Consistent (turn +
      if (Reply.stopped (s.step setup answer world).1.1).isAnswerTo (.step answer) then 1 else 0) := by
  cases phase : s.phase with
  | ready | running =>
    cases answer with
    | none =>
      simp only [Session.step, phase]
      exact consistent.runOn setup world
    | some answer =>
      simp only [Session.step, phase]
      cases answer <;> exact consistent
  | suspended request =>
    rcases answer with _ | text | message | _ <;> simp only [Session.step, phase]
    · exact consistent
    · have accepted : (Reply.stopped ((s.answered setup text).runOn setup world).1.1).isRefusal =
          false := runOn_isRefusal rfl
      simp only [Reply.isAnswerTo, accepted]
      exact (consistent.answered setup text).runOn setup world
    · exact consistent.failRun phase (.runFailed message)
    · exact consistent.failRun phase .cancelled
  | completed | failed =>
    simp only [Session.step, phase]
    rcases answer with _ | _ | _ | _ <;> exact consistent

theorem handle (consistent : s.Consistent turn) (setup : Setup σ) (world : World σ) (call : Call) :
    (s.handle setup world call).1.2.Consistent
      (turn + if (s.handle setup world call).1.1.isAnswerTo call then 1 else 0) := by
  cases call with
  | advance => exact consistent.advance setup world
  | step answer => exact consistent.step setup answer world
  | retry => exact consistent.retry setup world
  | invokeTool name args =>
    rcases invoked : s.invokeTool setup name args world with ⟨e | ⟨value, next⟩, world'⟩ <;>
      simp only [Session.handle, invoked]
    · exact consistent
    · exact consistent.invokeTool invoked
  | setVariable | takeEvents => exact consistent.of_eq

theorem start (nodes : List Node) {state : SessionState} (noCalls : state.pendingCalls = [])
    (tools : state.tools.Nodup) : (Session.start nodes state).Consistent state.turn :=
  of_isActive rfl noCalls tools rfl

/-- All calls keep a session consistent; of the answers to runs, the accepted ones count. -/
theorem handleAll (consistent : s.Consistent turn) (setup : Setup σ) (world : World σ)
    (calls : List Call) :
    (s.handleAll setup world calls).1.2.Consistent (turn +
      (s.handleAll setup world calls).1.1.countP fun (call, reply) => reply.isAnswerTo call) := by
  refine handleAll_invariant (P := fun history s =>
    s.Consistent (turn + history.countP fun (call, reply) => reply.isAnswerTo call))
    (fun history s world call holds => ?_) [] consistent world calls
  simpa only [List.countP_append, List.countP_singleton, Nat.add_assoc] using
    holds.handle setup world call

end Consistent

theorem pendingRun?_eq_some {request : RunRequest} :
    s.pendingRun? = some request ↔ s.phase = .suspended request := by
  unfold pendingRun?
  cases s.phase <;> simp

theorem retryPoint?_eq_some {point : RetryPoint} :
    s.retryPoint? = some point ↔ s.phase = .failed point := by
  unfold retryPoint?
  cases s.phase <;> simp

end Session

end PromptScript
