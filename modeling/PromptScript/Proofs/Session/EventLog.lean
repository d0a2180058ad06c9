import Mathlib.Data.List.Induction
import PromptScript.Proofs.Session.Failure
import PromptScript.Proofs.Session.Interpretation
import PromptScript.Proofs.Session.Lifecycle

/-!
The log of a session. Every event leads from one standing of the session to another, and the events
of a session, whatever its host has done with it and whenever they were taken, lead from its start to
where it stands.
-/
namespace PromptScript

variable {σ : Type}

/-- Where a session stands, as its log tells. -/
inductive Standing
  | going
  | pending
  | failed (atRun : Bool)
  | done

/-- How many answers to runs that were handed out are still to come. -/
def Standing.owed : Standing → Nat
  | .pending | .failed true => 1
  | .going | .failed false | .done => 0

structure LogPoint where
  standing : Standing
  turn : Nat

/-- The details of an event that tells of a run that is handed out again. -/
def Event.runAgain : Value :=
  .map [("segment", .str "run")]

/-- Whether a run is pending from an event on. -/
def Event.OpensRun (e : Event) : Prop :=
  e.kind = .run ∨ e.kind = .retry ∧ e.details = Event.runAgain

theorem EventKind.ne_of_isEffect {kind other : EventKind} (effect : kind.isEffect)
    (plain : other.isEffect = false) : kind ≠ other := by
  rintro rfl
  rw [plain] at effect
  cases effect

namespace LogPoint

/-- What an event makes of a point in the log. -/
inductive Step : LogPoint → Event → LogPoint → Prop
  | effect {kind : EventKind} {turn : Nat} {details : Value} : kind.isEffect →
    Step ⟨.going, turn⟩ ⟨kind, turn, details⟩ ⟨.going, turn⟩
  | run {turn : Nat} {details : Value} :
    Step ⟨.going, turn⟩ ⟨.run, turn, details⟩ ⟨.pending, turn⟩
  | toolCall {turn : Nat} {details : Value} :
    Step ⟨.pending, turn⟩ ⟨.toolCall, turn, details⟩ ⟨.pending, turn⟩
  | resume {turn : Nat} {details : Value} :
    Step ⟨.pending, turn⟩ ⟨.resume, turn + 1, details⟩ ⟨.going, turn + 1⟩
  | failRun {turn : Nat} {details : Value} :
    Step ⟨.pending, turn⟩ ⟨.failed, turn, details⟩ ⟨.failed true, turn⟩
  | failSegment {turn : Nat} {details : Value} :
    Step ⟨.going, turn⟩ ⟨.failed, turn, details⟩ ⟨.failed false, turn⟩
  | retryRun {turn : Nat} :
    Step ⟨.failed true, turn⟩ ⟨.retry, turn, Event.runAgain⟩ ⟨.pending, turn⟩
  | retrySegment {turn : Nat} {details : Value} : details ≠ Event.runAgain →
    Step ⟨.failed false, turn⟩ ⟨.retry, turn, details⟩ ⟨.going, turn⟩
  | complete {turn : Nat} {details : Value} :
    Step ⟨.going, turn⟩ ⟨.completed, turn, details⟩ ⟨.done, turn⟩

/-- The events lead from one point to another. -/
def Reads : LogPoint → List Event → LogPoint → Prop
  | first, [], last => first = last
  | first, e :: later, last => ∃ between, Step first e between ∧ Reads between later last

variable {first between last : LogPoint} {e : Event}

theorem reads_append {before after : List Event} :
    Reads first (before ++ after) last ↔
      ∃ between, Reads first before between ∧ Reads between after last := by
  -- Between the parts stands the point to which the first one leads.
  induction before generalizing first with
  | nil => simp [Reads]
  | cons e before ih =>
    simp only [List.cons_append, Reads, ih]
    constructor
    · rintro ⟨second, step, between, reads, later⟩
      exact ⟨between, ⟨second, step, reads⟩, later⟩
    · rintro ⟨between, ⟨second, step, reads⟩, later⟩
      exact ⟨second, step, between, reads, later⟩

theorem reads_concat {before : List Event} :
    Reads first (before ++ [e]) last ↔ ∃ between, Reads first before between ∧ Step between e last := by
  simp [reads_append, Reads]

/-- The point at which an event is noted, and the rest of the log from there on. -/
theorem Reads.at {before after : List Event} (reads : Reads first (before ++ e :: after) last) :
    ∃ between next, Reads first before between ∧ Step between e next ∧ Reads next after last := by
  obtain ⟨between, reads, next, step, later⟩ := reads_append.mp reads
  exact ⟨between, next, reads, step, later⟩

namespace Step

theorem turn_eq (step : Step first e last) :
    e.turn = last.turn ∧ last.turn = if e.kind = .resume then first.turn + 1 else first.turn := by
  cases step with
  | effect effect => exact ⟨rfl, (if_neg (EventKind.ne_of_isEffect effect rfl)).symm⟩
  | _ => simp

theorem standing_of_failed (step : Step first e last) :
    e.kind = .failed ↔ ∃ atRun, last.standing = .failed atRun := by
  cases step with
  | effect effect => simp [EventKind.ne_of_isEffect effect (rfl : EventKind.failed.isEffect = false)]
  | _ => simp

theorem standing_of_retry (step : Step first e last) :
    e.kind = .retry ↔ ∃ atRun, first.standing = .failed atRun := by
  cases step with
  | effect effect => simp [EventKind.ne_of_isEffect effect (rfl : EventKind.retry.isEffect = false)]
  | _ => simp

theorem standing_of_completed (step : Step first e last) (completed : e.kind = .completed) :
    last.standing = .done := by
  cases step with
  | effect effect => exact absurd completed (EventKind.ne_of_isEffect effect rfl)
  | complete => rfl
  | _ => cases completed

theorem not_of_done (step : Step first e last) : first.standing ≠ .done := by
  cases step <;> nofun

theorem standing_of_run (step : Step first e last) (run : e.kind = .run) :
    first.standing = .going ∧ last.standing = .pending := by
  cases step with
  | effect effect => exact absurd run (EventKind.ne_of_isEffect effect rfl)
  | run => exact ⟨rfl, rfl⟩
  | _ => cases run

theorem pending_of_toolCall_or_resume (step : Step first e last)
    (during : e.kind = .toolCall ∨ e.kind = .resume) : first.standing = .pending := by
  cases step with
  | effect effect =>
    rcases during with same | same <;> exact absurd same (EventKind.ne_of_isEffect effect rfl)
  | toolCall | resume => rfl
  | _ => rcases during with during | during <;> cases during

/-- A run is pending after the event that opens it, and after a call of a tool. -/
theorem of_pending (step : Step first e last) (pending : last.standing = .pending) :
    e.OpensRun ∨ first.standing = .pending ∧ e.kind = .toolCall := by
  cases step with
  | run => exact .inl (.inl rfl)
  | retryRun => exact .inl (.inr ⟨rfl, rfl⟩)
  | toolCall => exact .inr ⟨rfl, rfl⟩
  | _ => cases pending

theorem owed_eq (step : Step first e last) (noRun : e.kind ≠ .run) :
    first.standing.owed = last.standing.owed + if e.kind = .resume then 1 else 0 := by
  cases step with
  | effect effect => simp [EventKind.ne_of_isEffect effect (rfl : EventKind.resume.isEffect = false)]
  | run => exact absurd rfl noRun
  | _ => rfl

end Step

/-! ### Stretches of a log -/

namespace Reads

variable {before between after : List Event} {next : Event}

theorem turn_of_next (reads : Reads first (before ++ e :: next :: after) last) :
    next.turn = if next.kind = .resume then e.turn + 1 else e.turn := by
  obtain ⟨_, middle, _, step, _, step', _⟩ := reads.at
  rw [step'.turn_eq.1, step'.turn_eq.2, step.turn_eq.1]

theorem failed_iff_retry (reads : Reads first (before ++ e :: next :: after) last) :
    e.kind = .failed ↔ next.kind = .retry := by
  obtain ⟨_, middle, _, step, _, step', _⟩ := reads.at
  rw [step.standing_of_failed, step'.standing_of_retry]

theorem nil_of_completed (reads : Reads first (before ++ e :: after) last)
    (completed : e.kind = .completed) : after = [] := by
  obtain ⟨_, middle, _, step, later⟩ := reads.at
  cases after with
  | nil => rfl
  | cons next after =>
    obtain ⟨_, step', _⟩ := later
    exact absurd (step.standing_of_completed completed) step'.not_of_done

/-- Where a run is pending, it has been opened, and neither answered nor failed since. -/
theorem opened_of_pending (going : first.standing = .going) (reads : Reads first before last)
    (pending : last.standing = .pending) :
    ∃ earlier opener since, before = earlier ++ opener :: since ∧ opener.OpensRun ∧
      ∀ e ∈ since, e.kind ≠ .resume ∧ e.kind ≠ .failed := by
  -- By induction from the end of the log: only calls of tools lie between it and the opening event.
  induction before using List.reverseRecOn generalizing last with
  | nil =>
    have same : first = last := reads
    rw [← same, going] at pending
    cases pending
  | append_singleton before e ih =>
    obtain ⟨between, reads, step⟩ := reads_concat.mp reads
    rcases step.of_pending pending with opens | ⟨pending, call⟩
    · exact ⟨before, e, [], rfl, opens, nofun⟩
    · obtain ⟨earlier, opener, since, rfl, opens, quiet⟩ := ih reads pending
      refine ⟨earlier, opener, since ++ [e], by simp, opens, fun other known => ?_⟩
      rcases List.mem_append.mp known with known | known
      · exact quiet other known
      · rw [List.mem_singleton.mp known, call]
        exact ⟨nofun, nofun⟩

theorem owed_eq (reads : Reads first between last) (noRun : ∀ e ∈ between, e.kind ≠ .run) :
    first.standing.owed = last.standing.owed + between.countP (·.kind = .resume) := by
  -- Without a run in between, each answer takes away one that is owed, and nothing adds one.
  induction between generalizing first with
  | nil => exact congrArg (·.standing.owed) (show first = last from reads)
  | cons e later ih =>
    obtain ⟨middle, step, reads⟩ := reads
    obtain ⟨noRun, noRunLater⟩ := List.forall_mem_cons.mp noRun
    rw [step.owed_eq noRun, ih reads noRunLater, List.countP_cons]
    simp only [decide_eq_true_eq]
    omega

/-- What one run owes must be paid before another one is handed out. -/
theorem resumes_between_runs
    (reads : Reads first (before ++ e :: (between ++ next :: after)) last) (run : e.kind = .run)
    (run' : next.kind = .run) (noRun : ∀ other ∈ between, other.kind ≠ .run) :
    between.countP (·.kind = .resume) = 1 := by
  obtain ⟨_, opened, _, step, reads⟩ := reads.at
  obtain ⟨before', _, reads, step', _⟩ := reads.at
  have paid := reads.owed_eq noRun
  rw [(step.standing_of_run run).2, (step'.standing_of_run run').1] at paid
  simpa [Standing.owed] using paid.symm

end Reads

end LogPoint

/-! ### The log of a session -/

def Phase.standing : Phase → Standing
  | .ready | .running => .going
  | .suspended _ => .pending
  | .failed (.run _) => .failed true
  | .failed (.segment _) => .failed false
  | .completed => .done

namespace Session

/-- The events that were taken before and those that a session has kept lead to where it stands. What
is tried again is called a run only if it is one. -/
structure Logs (turn : Nat) (taken : List Event) (s : Session) : Prop where
  reads : LogPoint.Reads ⟨.going, turn⟩ (taken ++ s.events) ⟨s.phase.standing, s.state.turn⟩
  tried : ∀ segment, s.phase = .failed (.segment segment) → segment.node.segmentName ≠ "run"

variable {setup : Setup σ} {s next : Session} {world world' : World σ} {turn : Nat}
  {taken : List Event}

/-- What a node does is logged by one event, if it does anything; only a run suspends the session. -/
theorem Acts.logged {ctx : Context} {node : Node} (acts : Acts setup s ctx world node next world') :
    next = s ∨ ∃ kind details, next.events = s.events ++ [⟨kind, s.state.turn, .map details⟩] ∧
      (kind.isEffect ∧ next.phase = s.phase ∨
        kind = .run ∧ next.phase = .suspended s.state.request) := by
  cases acts with
  | controls => exact .inl rfl
  | runs => exact .inr ⟨_, _, rfl, .inr ⟨rfl, rfl⟩⟩
  | @imports names source =>
    obtain ⟨imports, folded, _⟩ := foldl_addImport s names source
    rw [folded]
    exact .inr ⟨_, _, rfl, .inl ⟨rfl, rfl⟩⟩
  | @calls _ _ target => cases target <;> exact .inr ⟨_, _, rfl, .inl ⟨rfl, rfl⟩⟩
  | @registers names =>
    obtain ⟨tools, folded, _⟩ := SessionState.foldl_registerTool s.state names
    rw [folded]
    exact .inr ⟨_, _, rfl, .inl ⟨rfl, rfl⟩⟩
  | @renders _ text =>
    refine .inr ⟨.prose, [("bytes", .int text.utf8ByteSize)], ?_, .inl ⟨rfl, rfl⟩⟩
    simp only [addProse, record]
    split <;> rfl
  | _ => exact .inr ⟨_, _, rfl, .inl ⟨rfl, rfl⟩⟩

/-- A run does not fail as a segment. -/
theorem segmentName_of_execute_error {segment : Segment} {e : EffectError}
    (h : s.execute setup segment world = (.error e, world')) : segment.node.segmentName ≠ "run" := by
  obtain ⟨node, bindings⟩ := segment
  rcases execute_error_iff.mp h with ⟨_, opens, _⟩ | ⟨_, _, fails⟩
  · cases node with
    | conditional | loop => simp [Node.segmentName]
    | _ => cases opens
  · cases fails with
    | renders prose =>
      cases node with
      | text | interpolation | block | «include» => simp [Node.segmentName]
      | _ => cases prose
    | _ => simp [Node.segmentName, Effect.kind]

theorem standing_of_isActive (active : s.phase.isActive) : s.phase.standing = .going := by
  obtain ⟨state, phase, stack, imports, events⟩ := s
  cases phase with
  | ready | running => rfl
  | _ => cases active

namespace Logs

theorem of_event {e : Event} (logs : s.Logs turn taken) (events : next.events = s.events ++ [e])
    (step : LogPoint.Step ⟨s.phase.standing, s.state.turn⟩ e
      ⟨next.phase.standing, next.state.turn⟩)
    (tried : ∀ segment, next.phase = .failed (.segment segment) →
      segment.node.segmentName ≠ "run") : next.Logs turn taken where
  reads := by
    rw [events, ← List.append_assoc]
    exact LogPoint.reads_concat.mpr ⟨_, logs.reads, step⟩
  tried := tried

theorem of_eq (logs : s.Logs turn taken) (events : next.events = s.events)
    (standing : next.phase.standing = s.phase.standing) (turns : next.state.turn = s.state.turn)
    (tried : ∀ segment, next.phase = .failed (.segment segment) →
      segment.node.segmentName ≠ "run") : next.Logs turn taken where
  reads := by
    rw [events, standing, turns]
    exact logs.reads
  tried := tried

theorem execute {segment : Segment} (logs : s.Logs turn taken) (active : s.phase.isActive)
    (h : s.execute setup segment world = (.ok next, world')) : next.Logs turn taken := by
  have going := standing_of_isActive active
  have tried : ∀ segment, next.phase = .failed (.segment segment) →
      segment.node.segmentName ≠ "run" := by
    intro segment failed
    rcases phase_of_execute_ok active h with active | suspended
    · rw [failed] at active
      cases active
    · cases suspended.symm.trans failed
  obtain ⟨frames, acted, _, acts, rfl⟩ := execute_ok_iff.mp h
  have turns : acted.state.turn = s.state.turn := acts.keeps.2.1
  rcases acts.logged with rfl | ⟨kind, details, events, ⟨effect, phase⟩ | ⟨rfl, phase⟩⟩
  · exact logs.of_eq rfl rfl rfl tried
  · refine logs.of_event events ?_ tried
    simp only [phase, turns, going]
    exact .effect effect
  · refine logs.of_event events ?_ tried
    simp only [phase, turns, going]
    exact .run

theorem fail {segment : Segment} {e : EffectError} (logs : s.Logs turn taken)
    (active : s.phase.isActive) (h : s.execute setup segment world = (.error e, world')) :
    (s.fail e (.segment segment)).Logs turn taken := by
  refine logs.of_event rfl ?_ ?_
  · rw [standing_of_isActive active]
    exact .failSegment
  · rintro _ ⟨⟩
    exact segmentName_of_execute_error h

theorem taking (logs : s.Logs turn taken) (active : s.phase.isActive) (stack : Stack) :
    (s.taking stack).Logs turn taken :=
  logs.of_eq rfl (standing_of_isActive active).symm rfl nofun

theorem advance (logs : s.Logs turn taken) (setup : Setup σ) (world : World σ) :
    (s.advance setup world).1.2.Logs turn taken := by
  cases active : s.phase.isActive with
  | false =>
    obtain ⟨cause, refused⟩ := advance_of_not_isActive setup world active
    rwa [refused]
  | true =>
    rcases advance_cases setup s world active with ⟨_, advanced⟩ |
      ⟨segment, stack, next, world', _, executed, advanced⟩ |
      ⟨segment, stack, e, world', _, executed, advanced⟩
    · rw [advanced]
      refine logs.of_event rfl ?_ nofun
      rw [standing_of_isActive active]
      exact .complete
    · rw [advanced]
      exact (logs.taking active stack).execute rfl executed
    · rw [advanced]
      exact (logs.taking active stack).fail rfl executed

theorem runOn (logs : s.Logs turn taken) (setup : Setup σ) (world : World σ) :
    (s.runOn setup world).1.2.Logs turn taken :=
  runOn_invariant (P := fun s _ => s.Logs turn taken)
    (fun _ world logs => logs.advance setup world) logs

theorem failRun {request : RunRequest} (logs : s.Logs turn taken)
    (suspended : s.phase = .suspended request) (e : EffectError) :
    (s.fail e (.run request)).Logs turn taken := by
  refine logs.of_event rfl ?_ nofun
  rw [suspended]
  exact .failRun

theorem answered {request : RunRequest} (logs : s.Logs turn taken)
    (suspended : s.phase = .suspended request) (setup : Setup σ) (text : String) :
    (s.answered setup text).Logs turn taken := by
  refine logs.of_event rfl ?_ nofun
  rw [suspended]
  exact .resume

theorem step (logs : s.Logs turn taken) (setup : Setup σ) (answer : Option RunAnswer)
    (world : World σ) : (s.step setup answer world).1.2.Logs turn taken := by
  cases phase : s.phase with
  | ready | running =>
    cases answer with
    | none =>
      simp only [Session.step, phase]
      exact logs.runOn setup world
    | some answer => cases answer <;> simpa only [Session.step, phase] using logs
  | suspended request =>
    rcases answer with _ | text | message | _ <;> simp only [Session.step, phase]
    · exact logs
    · exact (logs.answered phase setup text).runOn setup world
    · exact logs.failRun phase (.runFailed message)
    · exact logs.failRun phase .cancelled
  | completed | failed => rcases answer with _ | _ | _ | _ <;> simpa only [Session.step, phase] using logs

theorem retry (logs : s.Logs turn taken) (setup : Setup σ) (world : World σ) :
    (s.retry setup world).1.2.Logs turn taken := by
  cases phase : s.phase with
  | ready | running | suspended | completed => simpa only [Session.retry, phase] using logs
  | failed point =>
    cases point with
    | run request =>
      simp only [Session.retry, phase]
      refine logs.of_event rfl ?_ ?_
      · rw [phase]
        exact .retryRun
      · rintro _ ⟨⟩
    | segment segment =>
      have again : (s.retrying segment).Logs turn taken := by
        refine logs.of_event rfl ?_ ?_
        · rw [phase]
          apply LogPoint.Step.retrySegment
          simpa [Event.runAgain, RetryPoint.name] using logs.tried segment phase
        · rintro _ ⟨⟩
      rcases retry_cases setup world phase with
        ⟨next, world', executed, ⟨_, retried⟩ | ⟨_, retried⟩⟩ | ⟨e, world', executed, retried⟩
      · exact retried ▸ (again.execute rfl executed).runOn setup world'
      · exact retried ▸ again.execute rfl executed
      · exact retried ▸ again.fail rfl executed

theorem invokeTool {name : String} {args : List Value} {value : Value} (logs : s.Logs turn taken)
    (h : s.invokeTool setup name args world = (.ok (value, next), world')) :
    next.Logs turn taken := by
  obtain ⟨request, vars, suspended, _, rfl⟩ := invokeTool_ok h
  refine logs.of_event rfl ?_ logs.tried
  simp only [noteCall, record, suspended]
  exact .toolCall

end Logs

end Session

/-- The events that a reply hands out. -/
def Reply.taken : Reply → List Event
  | .events log => log
  | .advanced | .stopped _ | .tool _ | .stored => []

/-- The events that were taken from a session, as its replies tell. -/
def takenEvents (history : List (Call × Reply)) : List Event :=
  history.flatMap (·.2.taken)

theorem takenEvents_concat (history : List (Call × Reply)) (call : Call) (reply : Reply) :
    takenEvents (history ++ [(call, reply)]) = takenEvents history ++ reply.taken := by
  simp [takenEvents]

theorem Reply.taken_ofProgress (state : SessionState) (progress : Except EffectError Progress) :
    (Reply.ofProgress state progress).taken = [] := by
  rcases progress with _ | progress
  · rfl
  · cases progress <;> rfl

namespace Session.Logs

variable {s : Session} {turn : Nat} {history : List (Call × Reply)}

theorem handle (logs : s.Logs turn (takenEvents history)) (setup : Setup σ) (world : World σ)
    (call : Call) :
    (s.handle setup world call).1.2.Logs turn
      (takenEvents (history ++ [(call, (s.handle setup world call).1.1)])) := by
  have untaken {reply : Reply} {next : Session} (none : reply.taken = [])
      (logs : next.Logs turn (takenEvents history)) :
      next.Logs turn (takenEvents (history ++ [(call, reply)])) := by
    rwa [takenEvents_concat, none, List.append_nil]
  cases call with
  | advance => exact untaken (Reply.taken_ofProgress _ _) (logs.advance setup world)
  | step answer => exact untaken rfl (logs.step setup answer world)
  | retry => exact untaken rfl (logs.retry setup world)
  | invokeTool name args =>
    rcases invoked : s.invokeTool setup name args world with ⟨e | ⟨value, next⟩, world'⟩ <;>
      simp only [Session.handle, invoked]
    · exact untaken rfl logs
    · exact untaken rfl (logs.invokeTool invoked)
  | setVariable => exact untaken rfl (logs.of_eq rfl rfl rfl logs.tried)
  | takeEvents =>
    -- What is taken goes from the session to what was taken before.
    refine ⟨?_, logs.tried⟩
    rw [takenEvents_concat]
    simpa [Session.handle, Reply.taken, clearEvents] using logs.reads

theorem start (nodes : List Node) (state : SessionState) :
    (Session.start nodes state).Logs state.turn [] where
  reads := rfl
  tried _ failed := nomatch failed

theorem handleAll (nodes : List Node) (state : SessionState) (setup : Setup σ) (world : World σ)
    (calls : List Call) :
    ((Session.start nodes state).handleAll setup world calls).1.2.Logs state.turn
      (takenEvents ((Session.start nodes state).handleAll setup world calls).1.1) :=
  handleAll_invariant (P := fun history s => s.Logs state.turn (takenEvents history))
    (fun _ _ world call logs => logs.handle setup world call) [] (start nodes state) world calls

end Session.Logs

end PromptScript
