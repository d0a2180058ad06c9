import Mathlib
import PromptScript.Proofs.Session.Call
import PromptScript.Proofs.Session.InPlace

/-!
What a failure leaves. A call that is refused and a tool that fails change nothing. A session that
fails keeps what its last successful segment has left it: the segment that fails looks and calls
before it changes anything, so that even the session on which it works in place is as it was.
-/
namespace PromptScript

open Relation

variable {σ : Type} {setup : Setup σ}

namespace Session

/-- A segment that is to be executed: the next one on the stack, or the one that has failed. -/
inductive Takes : Session → Segment → Session → Prop
  | next {s : Session} {segment : Segment} {stack : Stack} :
    s.phase.isActive → s.stack.next? = some (segment, stack) → Takes s segment (s.taking stack)
  | again {s : Session} {segment : Segment} :
    s.phase = .failed (.segment segment) → Takes s segment (s.retrying segment)

/-- A segment is executed in place, and does not fail. -/
inductive Succeeds (setup : Setup σ) : Session × World σ → Session × World σ → Prop
  | segment {s taken : Session} {segment : Segment} {world : World σ}
      {after : Session × World σ} : Takes s segment taken →
    executeInPlace setup segment (taken, world) = (.ok (), after) → Succeeds setup (s, world) after

/-- A segment is executed in place and fails. What the changes before the failure have left of the
session is what has failed then. -/
inductive Breaks (setup : Setup σ) : Session × World σ → EffectError → Session × World σ → Prop
  | segment {s taken left : Session} {segment : Segment} {world world' : World σ}
      {e : EffectError} : Takes s segment taken →
    executeInPlace setup segment (taken, world) = (.error e, left, world') →
    Breaks setup (s, world) e (left.fail e (.segment segment), world')

/-- Segments succeed one after the other, up to one that fails. -/
def BreaksOff (setup : Setup σ) (first : Session × World σ) (e : EffectError)
    (last : Session × World σ) : Prop :=
  ∃ reached, ReflTransGen (Succeeds setup) first reached ∧ Breaks setup reached e last

/-- The session in which a call starts to execute segments. -/
def entered (setup : Setup σ) (s : Session) : Call → Session
  | .step (some (.response text)) => s.answered setup text
  | _ => s

variable {s next taken : Session} {segment : Segment} {world world' : World σ} {e : EffectError}

theorem Succeeds.of_execute (takes : Takes s segment taken)
    (executed : taken.execute setup segment world = (.ok next, world')) :
    Succeeds setup (s, world) (next, world') :=
  .segment takes (by rw [executeInPlace_apply, executed]; rfl)

theorem Breaks.of_execute (takes : Takes s segment taken)
    (executed : taken.execute setup segment world = (.error e, world')) :
    Breaks setup (s, world) e (taken.fail e (.segment segment), world') :=
  .segment takes (by rw [executeInPlace_apply, executed]; rfl)

/-- A segment that fails leaves the state and the imports, and a stack without a new frame. -/
theorem Breaks.keeps (breaks : Breaks setup (s, world) e (next, world')) :
    next.state = s.state ∧ next.imports = s.imports ∧
      ∃ segment, next.phase = .failed (.segment segment) ∧
        (s.stack.next? = some (segment, next.stack) ∨
          s.phase = .failed (.segment segment) ∧ next.stack = s.stack) := by
  obtain ⟨segment, taken, left, takes, executed, rfl⟩ :
      ∃ segment taken left, Takes s segment taken ∧
        executeInPlace setup segment (taken, world) = (.error e, left, world') ∧
        next = left.fail e (.segment segment) := by
    cases breaks with
    | segment takes executed => exact ⟨_, _, _, takes, executed, rfl⟩
  -- The session on which the segment has worked is the one that it was given.
  rw [executeInPlace_apply, settle_error_iff] at executed
  obtain ⟨_, rfl⟩ := executed
  cases takes with
  | next active found => exact ⟨rfl, rfl, segment, rfl, .inl found⟩
  | again failed => exact ⟨rfl, rfl, segment, rfl, .inr ⟨failed, rfl⟩⟩

theorem BreaksOff.of_succeeds {first second last : Session × World σ}
    (succeeds : Succeeds setup first second) (breaks : BreaksOff setup second e last) :
    BreaksOff setup first e last := by
  obtain ⟨reached, later, breaks⟩ := breaks
  exact ⟨reached, .head succeeds later, breaks⟩

theorem execute_of_advance_advanced (active : s.phase.isActive)
    (h : s.advance setup world = ((.ok .advanced, next), world')) :
    ∃ segment stack, s.stack.next? = some (segment, stack) ∧
      (s.taking stack).execute setup segment world = (.ok next, world') := by
  rcases advance_cases setup s world active with ⟨_, done⟩ |
    ⟨segment, stack, after, between, found, executed, done⟩ | ⟨_, _, _, _, _, _, done⟩
  · cases done.symm.trans h
  · rw [done, Prod.mk.injEq, Prod.mk.injEq] at h
    obtain ⟨⟨_, rfl⟩, rfl⟩ := h
    exact ⟨segment, stack, found, executed⟩
  · cases done.symm.trans h

theorem breaks_of_advance {last : Session} (active : s.phase.isActive)
    (h : s.advance setup world = ((.error e, last), world')) :
    Breaks setup (s, world) e (last, world') := by
  rcases advance_cases setup s world active with ⟨_, done⟩ | ⟨_, _, _, _, _, _, done⟩ |
    ⟨segment, stack, _, _, found, executed, done⟩
  · cases done.symm.trans h
  · cases done.symm.trans h
  · cases done.symm.trans h
    exact .of_execute (.next active found) executed

/-- Running on fails in the segment after the last one that succeeded. -/
theorem breaksOff_of_runOn {last : Session} (active : s.phase.isActive)
    (h : s.runOn setup world = ((.failed e, last), world')) :
    BreaksOff setup (s, world) e (last, world') := by
  fun_induction runOn setup s world with
  | case1 s world next between advanced _ ih =>
    obtain ⟨segment, stack, found, executed⟩ := execute_of_advance_advanced active advanced
    exact .of_succeeds (.of_execute (.next active found) executed)
      (ih (isActive_of_advance active advanced) h)
  | case2 | case3 => cases h
  | case4 s world e next between advanced =>
    cases h
    exact ⟨_, .refl, breaks_of_advance active advanced⟩

theorem breaksOff_of_retry {last : Session} (failed : s.phase = .failed (.segment segment))
    (h : s.retry setup world = ((.failed e, last), world')) :
    BreaksOff setup (s, world) e (last, world') := by
  rcases retry_cases setup world failed with ⟨next, between, executed, on⟩ |
    ⟨_, _, executed, retried⟩
  · rcases on with ⟨going, retried⟩ | ⟨_, retried⟩
    · exact .of_succeeds (.of_execute (.again failed) executed)
        (breaksOff_of_runOn going (retried.symm.trans h))
    · cases retried.symm.trans h
  · cases retried.symm.trans h
    exact ⟨_, .refl, .of_execute (.again failed) executed⟩

theorem advance_of_refusal {result : Except EffectError Progress}
    (h : s.advance setup world = ((result, next), world'))
    (refused : (Reply.ofProgress next.state result).isRefusal) : next = s ∧ world' = world := by
  cases active : s.phase.isActive with
  | false =>
    obtain ⟨cause, same⟩ := advance_of_not_isActive setup world active
    cases same.symm.trans h
    exact ⟨rfl, rfl⟩
  | true =>
    have accepted : (Reply.ofProgress next.state result).isRefusal = false := by
      rcases advance_cases setup s world active with ⟨_, done⟩ | ⟨_, _, after, _, _, _, done⟩ |
        ⟨segment, stack, _, _, found, executed, done⟩
      · cases done.symm.trans h
        rfl
      · rw [done, Prod.mk.injEq, Prod.mk.injEq] at h
        obtain ⟨⟨rfl, rfl⟩, rfl⟩ := h
        unfold progress
        split <;> rfl
      · cases done.symm.trans h
        exact Reply.isRefusal_failed (ne_invalidStep_of_execute_error executed)
    cases accepted.symm.trans refused

theorem retry_of_refusal {outcome : StepOutcome}
    (h : s.retry setup world = ((outcome, next), world'))
    (refused : (Reply.stopped outcome).isRefusal) : next = s ∧ world' = world := by
  cases phase : s.phase with
  | failed point =>
    have accepted : (Reply.stopped (s.retry setup world).1.1).isRefusal = false :=
      retry_isRefusal phase
    rw [h] at accepted
    cases accepted.symm.trans refused
  | _ =>
    simp only [retry, phase] at h
    cases h
    exact ⟨rfl, rfl⟩

/-- What a step is, by the phase of the session and the answer. -/
theorem step_cases (setup : Setup σ) (s : Session) (answer : Option RunAnswer) (world : World σ) :
    (∃ cause, s.step setup answer world = ((.failed (.invalidStep cause), s), world)) ∨
    (∃ e request, s.phase = .suspended request ∧
      (answer = some .cancelled ∧ e = .cancelled ∨
        ∃ message, answer = some (.failed message) ∧ e = .runFailed message) ∧
      s.step setup answer world = ((.failed e, s.fail e (.run request)), world)) ∨
    (s.entered setup (.step answer)).phase.isActive ∧
      s.step setup answer world = (s.entered setup (.step answer)).runOn setup world := by
  cases phase : s.phase with
  | ready | running =>
    cases answer with
    | none => exact .inr (.inr (by simp only [entered, step, phase]; exact ⟨rfl, trivial⟩))
    | some answer => exact .inl (by simp only [step, phase]; exact ⟨_, rfl⟩)
  | suspended request =>
    rcases answer with _ | text | message | _
    · exact .inl (by simp only [step, phase]; exact ⟨_, rfl⟩)
    · exact .inr (.inr ⟨rfl, by simp only [step, phase, entered]⟩)
    · exact .inr (.inl ⟨_, request, rfl, .inr ⟨message, rfl, rfl⟩, by simp only [step, phase]⟩)
    · exact .inr (.inl ⟨_, request, rfl, .inl ⟨rfl, rfl⟩, by simp only [step, phase]⟩)
  | completed | failed => exact .inl (by simp only [step, phase]; exact ⟨_, rfl⟩)

theorem function_ne_invalidStep {name : String} (cause : StepRefusal) :
    s.function setup name ≠ .error (.invalidStep cause) := by
  intro h
  unfold function at h
  split at h
  · cases h
  · split at h <;> cases h

theorem toolFunction_ne_invalidStep {name : String} (cause : StepRefusal) :
    s.toolFunction setup name ≠ .error (.invalidStep cause) := by
  intro h
  unfold toolFunction at h
  split at h
  · exact function_ne_invalidStep cause h
  · split at h <;> cases h

theorem variableArgument_ne_invalidStep {tool : String} {args : List Value} (cause : StepRefusal) :
    variableArgument tool args ≠ .error (.invalidStep cause) := by
  intro h
  unfold variableArgument at h
  split at h <;> cases h

/-- A tool fails because of its arguments, or because there is none, or by its function. -/
theorem useTool_ne_invalidStep {name : String} {args : List Value} (cause : StepRefusal) :
    s.useTool setup name args world ≠ (.error (.invalidStep cause), world') := by
  intro h
  unfold useTool at h
  split at h
  · simp only [Computation.bind_error_iff, Computation.lift_error_iff] at h
    obtain ⟨wrong, _⟩ | ⟨_, _, _, h⟩ := h
    · exact variableArgument_ne_invalidStep cause wrong
    · cases h
  · split at h
    · simp only [Computation.bind_error_iff, Computation.lift_error_iff] at h
      obtain ⟨wrong, _⟩ | ⟨_, _, _, h⟩ := h
      · exact variableArgument_ne_invalidStep cause wrong
      · cases h
    · split at h
      · simp only [Computation.bind_error_iff, Computation.lift_error_iff,
          Acting.call_error_iff] at h
        obtain ⟨missing, _⟩ | ⟨_, _, _, ⟨_, _, _, same, _⟩ | ⟨_, _, _, h⟩⟩ := h
        · exact toolFunction_ne_invalidStep cause missing
        · cases same
        · cases h
      · cases h

theorem invokeTool_of_refusal {name : String} {args : List Value} {cause : StepRefusal}
    (h : s.invokeTool setup name args world = (.error (.invalidStep cause), world')) :
    world' = world := by
  cases phase : s.phase with
  | suspended request =>
    simp only [invokeTool, phase, Computation.bind_error_iff] at h
    obtain used | ⟨_, _, _, h⟩ := h
    · exact absurd used (useTool_ne_invalidStep cause)
    · cases h
  | _ =>
    simp only [invokeTool, phase] at h
    cases h
    rfl

/-- A call that is refused changes nothing. -/
theorem handle_of_refusal (setup : Setup σ) (s : Session) (world : World σ) (call : Call)
    (refused : (s.handle setup world call).1.1.isRefusal) :
    (s.handle setup world call).1.2 = s ∧ (s.handle setup world call).2 = world := by
  cases call with
  | advance => exact advance_of_refusal rfl refused
  | step answer =>
    rcases step_cases setup s answer world with ⟨_, same⟩ | ⟨_, _, _, failed, same⟩ |
      ⟨active, same⟩
    · simp only [handle, same]
      trivial
    · rw [handle, same] at refused
      rcases failed with ⟨_, rfl⟩ | ⟨_, _, rfl⟩ <;> cases refused
    · rw [handle, same] at refused
      cases (runOn_isRefusal active).symm.trans refused
  | retry => exact retry_of_refusal rfl refused
  | invokeTool name args =>
    rcases invoked : s.invokeTool setup name args world with ⟨e | ⟨value, next⟩, world'⟩
    · simp only [handle, invoked] at refused ⊢
      cases e with
      | invalidStep cause => exact ⟨trivial, invokeTool_of_refusal invoked⟩
      | _ => cases refused
    · simp only [handle, invoked] at refused
      cases refused
  | setVariable | takeEvents => cases refused

theorem ofProgress_eq_failed {state : SessionState} {result : Except EffectError Progress} :
    Reply.ofProgress state result = .stopped (.failed e) ↔ result = .error e := by
  rcases result with cause | _ | _ | _ <;> simp [Reply.ofProgress]

/-- A call that executes segments fails by the answer to a run, or at the segment after the last one
that succeeds. -/
theorem handle_of_failed {call : Call}
    (h : s.handle setup world call = ((.stopped (.failed e), next), world'))
    (accepted : (Reply.stopped (.failed e)).isRefusal = false) :
    (∃ request, s.phase = .suspended request ∧
      (call = .step (some .cancelled) ∧ e = .cancelled ∨
        ∃ message, call = .step (some (.failed message)) ∧ e = .runFailed message) ∧
      next = s.fail e (.run request) ∧ world' = world) ∨
    ∃ reached, ReflTransGen (Succeeds setup) (s.entered setup call, world) reached ∧
      (call = .advance → reached = (s, world)) ∧ Breaks setup reached e (next, world') := by
  cases call with
  | advance =>
    rcases advanced : s.advance setup world with ⟨⟨result, after⟩, between⟩
    simp only [handle, advanced, Prod.mk.injEq, ofProgress_eq_failed] at h
    obtain ⟨⟨rfl, rfl⟩, rfl⟩ := h
    cases active : s.phase.isActive with
    | false =>
      obtain ⟨cause, refused⟩ := advance_of_not_isActive setup world active
      cases refused.symm.trans advanced
      cases accepted
    | true => exact .inr ⟨_, .refl, fun _ => rfl, breaks_of_advance active advanced⟩
  | step answer =>
    simp only [handle, Prod.mk.injEq, Reply.stopped.injEq] at h
    obtain ⟨⟨failed, rfl⟩, rfl⟩ := h
    rcases step_cases setup s answer world with ⟨cause, refused⟩ |
      ⟨_, request, suspended, answers, stepped⟩ | ⟨active, stepped⟩
    · rw [refused] at failed
      cases failed
      cases accepted
    · rw [stepped] at failed
      cases failed
      rw [stepped]
      refine .inl ⟨request, suspended, ?_, rfl, rfl⟩
      rcases answers with ⟨rfl, rfl⟩ | ⟨message, rfl, rfl⟩
      · exact .inl ⟨rfl, rfl⟩
      · exact .inr ⟨message, rfl, rfl⟩
    · rw [stepped] at failed ⊢
      obtain ⟨reached, later, breaks⟩ := breaksOff_of_runOn active
        (Prod.ext (Prod.ext failed rfl) rfl)
      refine .inr ⟨reached, later, ?_, breaks⟩
      intro other
      cases other
  | retry =>
    simp only [handle, Prod.mk.injEq, Reply.stopped.injEq] at h
    obtain ⟨⟨failed, rfl⟩, rfl⟩ := h
    cases phase : s.phase with
    | failed point =>
      cases point with
      | run request =>
        simp only [retry, phase] at failed
        cases failed
      | segment segment =>
        obtain ⟨reached, later, breaks⟩ := breaksOff_of_retry phase
          (Prod.ext (Prod.ext failed rfl) rfl)
        refine .inr ⟨reached, later, ?_, breaks⟩
        intro other
        cases other
    | _ =>
      simp only [retry, phase] at failed
      cases failed
      cases accepted
  | invokeTool name args =>
    simp only [handle] at h
    split at h <;> cases h
  | setVariable | takeEvents => cases h

end Session

/-- What is left when a call on a session goes wrong. A call that is refused has changed nothing. A
tool that has failed has changed nothing of the session, and nothing was changed in between. A run
that has failed or was cancelled leaves the state, the imports and the stack. Any other failure
happens in a segment, after others that have succeeded one by one; the state and the imports are those
that the last of them has left, and the stack has no frame more than before. -/
theorem handle_failure (setup : Setup σ) (s : Session) (world : World σ) (call : Call) :
    let ((reply, next), after) := s.handle setup world call
    (reply.isRefusal → next = s ∧ after = world) ∧
    (∀ name args e, call = .invokeTool name args → reply = .tool (.error e) →
      next = s ∧ Session.invokeToolInPlace setup name args (s, world) = (.error e, s, after)) ∧
    ∀ e, reply = .stopped (.failed e) → reply.isRefusal = false →
      (next.state = s.state ∧ next.imports = s.imports ∧ next.stack = s.stack ∧ after = world ∧
        ∃ request, s.phase = .suspended request ∧ next.phase = .failed (.run request) ∧
          (call = .step (some .cancelled) ∧ e = .cancelled ∨
            ∃ message, call = .step (some (.failed message)) ∧ e = .runFailed message)) ∨
      ∃ last between, ReflTransGen (Session.Succeeds setup) (s.entered setup call, world)
          (last, between) ∧
        (call = .advance → (last, between) = (s, world)) ∧
        Session.Breaks setup (last, between) e (next, after) ∧
        next.state = last.state ∧ next.imports = last.imports ∧
        ∃ segment, next.phase = .failed (.segment segment) ∧
          (last.stack.next? = some (segment, next.stack) ∨
            last.phase = .failed (.segment segment) ∧ next.stack = last.stack) := by
  rcases handled : s.handle setup world call with ⟨⟨reply, next⟩, after⟩
  refine ⟨fun refused => ?_, ?_, ?_⟩
  · have kept := Session.handle_of_refusal setup s world call
    rw [handled] at kept
    exact kept refused
  · rintro name args e rfl rfl
    rw [Session.invokeToolInPlace_apply]
    simp only [Session.handle] at handled
    split at handled
    · cases handled
    · next invoked =>
      cases handled
      rw [invoked]
      exact ⟨rfl, rfl⟩
  · rintro e rfl accepted
    rcases Session.handle_of_failed handled accepted with
      ⟨request, suspended, answers, rfl, rfl⟩ | ⟨⟨last, between⟩, later, first, breaks⟩
    · exact .inl ⟨rfl, rfl, rfl, rfl, request, suspended, rfl, answers⟩
    · exact .inr ⟨last, between, later, first, breaks, breaks.keeps⟩

end PromptScript
