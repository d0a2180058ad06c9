import PromptScript.Proofs.Session.Transition

/-!
The calls that a host makes on a session. What a session keeps whatever its host does is stated over
lists of calls; a script that is played to its end is a list of calls of which each fits the reply
to the one before.
-/
namespace PromptScript

inductive Call
  | advance
  | step (answer : Option RunAnswer)
  | retry
  | invokeTool (name : String) (args : List Value)
  | setVariable (name : String) (value : Value)
  | takeEvents

inductive Reply
  /-- A segment was executed, and there may be more. -/
  | advanced
  | stopped (outcome : StepOutcome)
  | tool (result : Except EffectError Value)
  | stored
  | events (events : List Event)

namespace Reply

def ofProgress (state : SessionState) : Except EffectError Progress → Reply
  | .ok .advanced => .advanced
  | .ok (.suspended request) => .stopped (.suspended request)
  | .ok .completed => .stopped (.completed state)
  | .error e => .stopped (.failed e)

/-- Whether the call did not fit the phase of the session. -/
def isRefusal : Reply → Bool
  | .stopped (.failed (.invalidStep _)) | .tool (.error (.invalidStep _)) => true
  | _ => false

theorem isRefusal_failed {e : EffectError} (h : ∀ cause, e ≠ .invalidStep cause) :
    (Reply.stopped (.failed e)).isRefusal = false := by
  cases e with
  | invalidStep cause => exact absurd rfl (h cause)
  | _ => rfl

end Reply

namespace Session

variable {σ : Type}

/-- What a call does to a session. A tool that fails leaves it as it was. -/
def handle (setup : Setup σ) (s : Session) (world : World σ) : Call → (Reply × Session) × World σ
  | .advance =>
    let ((result, next), world) := s.advance setup world
    ((.ofProgress next.state result, next), world)
  | .step answer =>
    let ((outcome, next), world) := s.step setup answer world
    ((.stopped outcome, next), world)
  | .retry =>
    let ((outcome, next), world) := s.retry setup world
    ((.stopped outcome, next), world)
  | .invokeTool name args =>
    match s.invokeTool setup name args world with
    | (.ok (value, next), world) => ((.tool (.ok value), next), world)
    | (.error e, world) => ((.tool (.error e), s), world)
  | .setVariable name value => ((.stored, s.setVariable name value), world)
  | .takeEvents => ((.events s.events, s.clearEvents), world)

theorem handle_advance {setup : Setup σ} {s next : Session} {world world' : World σ}
    {segment : Segment} {stack : Stack} {progress : Except EffectError Progress}
    (active : s.phase.isActive) (found : s.stack.next? = some (segment, stack))
    (attempted : (s.taking stack).attempt setup segment world = ((progress, next), world')) :
    s.handle setup world .advance = ((.ofProgress next.state progress, next), world') := by
  simp only [handle, advance_of_next?_some setup world active found, attempted]

theorem handle_response {s : Session} {request : RunRequest} (setup : Setup σ) (text : String)
    (world : World σ) (suspended : s.phase = .suspended request) :
    s.handle setup world (.step (some (.response text))) =
      let ((outcome, next), world) := (s.answered setup text).runOn setup world
      ((.stopped outcome, next), world) := by
  simp only [handle, step, suspended]

theorem handle_retry {setup : Setup σ} {s next : Session} {world world' : World σ}
    {segment : Segment} (failed : s.phase = .failed (.segment segment))
    (attempted : (s.retrying segment).attempt setup segment world = ((.ok .advanced, next), world')) :
    s.handle setup world .retry =
      let ((outcome, last), world) := next.runOn setup world'
      ((.stopped outcome, last), world) := by
  simp only [handle, retry_of_failed setup world failed, attempted]

def handleAll (setup : Setup σ) (s : Session) (world : World σ) :
    List Call → (List (Call × Reply) × Session) × World σ
  | [] => (([], s), world)
  | call :: later =>
    let ((reply, next), world) := s.handle setup world call
    let ((history, last), world) := next.handleAll setup world later
    (((call, reply) :: history, last), world)

theorem runOn_isRefusal {setup : Setup σ} {s : Session} {world : World σ}
    (active : s.phase.isActive) :
    (Reply.stopped (s.runOn setup world).1.1).isRefusal = false := by
  fun_induction runOn setup s world with
  | case1 s world next world' advanced _ ih => exact ih (isActive_of_advance active advanced)
  | case2 | case3 => rfl
  | case4 s world e next world' advanced =>
    refine Reply.isRefusal_failed fun cause => ?_
    rcases advance_cases setup s world active with ⟨_, done⟩ | ⟨_, _, _, _, _, _, done⟩ |
      ⟨_, _, _, _, _, executed, done⟩
    · cases done.symm.trans advanced
    · cases done.symm.trans advanced
    · cases done.symm.trans advanced
      exact ne_invalidStep_of_execute_error executed cause

theorem retry_isRefusal {setup : Setup σ} {s : Session} {world : World σ} {point : RetryPoint}
    (failed : s.phase = .failed point) :
    (Reply.stopped (s.retry setup world).1.1).isRefusal = false := by
  cases point with
  | run request => simp only [retry, failed]; rfl
  | segment segment =>
    rcases retry_cases setup world failed with ⟨_, _, _, ⟨going, retried⟩ | ⟨_, retried⟩⟩ |
      ⟨e, _, executed, retried⟩
    · exact retried ▸ runOn_isRefusal going
    · exact retried ▸ rfl
    · exact retried ▸ Reply.isRefusal_failed (ne_invalidStep_of_execute_error executed)

/-- What every call keeps, all calls keep; the property may look at the calls and replies so far. -/
theorem handleAll_invariant {setup : Setup σ} {P : List (Call × Reply) → Session → Prop}
    (handles : ∀ history s world call, P history s →
      P (history ++ [(call, (s.handle setup world call).1.1)]) (s.handle setup world call).1.2)
    (history : List (Call × Reply)) {s : Session} (holds : P history s) (world : World σ)
    (calls : List Call) :
    P (history ++ (s.handleAll setup world calls).1.1) (s.handleAll setup world calls).1.2 := by
  induction calls generalizing history s world with
  | nil => simpa only [handleAll, List.append_nil] using holds
  | cons call later ih =>
    have kept := ih _ (handles history s world call holds) (s.handle setup world call).2
    rwa [List.append_assoc] at kept

end Session

end PromptScript
