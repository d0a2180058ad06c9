import PromptScript.Proofs.Session.Call
import PromptScript.Proofs.Session.Interpretation

/-!
Scripts that are played to an end. A host answers the runs of a script, mixes calls for one segment
with calls for all segments up to the next run as it likes, and may try again after failures.
-/
namespace PromptScript

variable {σ : Type}

def RunAnswer.text? : RunAnswer → Option String
  | .response text => some text
  | _ => none

/-- What an answer that is not a response makes of a session. -/
def RunAnswer.error? : RunAnswer → Option EffectError
  | .response _ => none
  | .failed message => some (.runFailed message)
  | .cancelled => some .cancelled

/-- A script that is played from a reply on, with answers of the agent: the requests that it hands
out, and what it comes to. After the failures for which `again` holds, the host tries again. -/
inductive Plays (setup : Setup σ) (again : EffectError → Bool) : (Reply × Session) × World σ →
    List RunAnswer → List RunRequest → (StepOutcome × Session) × World σ → Prop
  | onward {call : Call} {s : Session} {world : World σ} {answers : List RunAnswer}
    {requests : List RunRequest} {last : (StepOutcome × Session) × World σ} :
    call = .advance ∨ call = .step none →
    Plays setup again (s.handle setup world call) answers requests last →
    Plays setup again ((.advanced, s), world) answers requests last
  | answered {s : Session} {world : World σ} {request : RunRequest} {answer : RunAnswer}
    {later : List RunAnswer} {requests : List RunRequest}
    {last : (StepOutcome × Session) × World σ} :
    Plays setup again (s.handle setup world (.step (some answer))) later requests last →
    Plays setup again ((.stopped (.suspended request), s), world) (answer :: later)
      (request :: requests) last
  /-- No answer is left for a run. -/
  | unanswered {s : Session} {world : World σ} {request : RunRequest} :
    Plays setup again ((.stopped (.suspended request), s), world) [] [request]
      ((.suspended request, s), world)
  | completed {s : Session} {world : World σ} {state : SessionState} {answers : List RunAnswer} :
    Plays setup again ((.stopped (.completed state), s), world) answers []
      ((.completed state, s), world)
  | failed {s : Session} {world : World σ} {e : EffectError} {answers : List RunAnswer} :
    again e = false →
    Plays setup again ((.stopped (.failed e), s), world) answers [] ((.failed e, s), world)
  | retried {s : Session} {world : World σ} {e : EffectError} {answers : List RunAnswer}
    {requests : List RunRequest} {last : (StepOutcome × Session) × World σ} :
    again e = true → Plays setup again (s.handle setup world .retry) answers requests last →
    Plays setup again ((.stopped (.failed e), s), world) answers requests last

structure ScriptEnding (σ : Type) where
  requests : List RunRequest
  outcome : StepOutcome
  state : SessionState
  effects : List Event
  world : World σ

def Walking.ending : Except Halt Unit × Scene σ → ScriptEnding σ
  | (.ok (), scene) =>
    ⟨scene.requests, .completed scene.state, scene.state, scene.effects, scene.world⟩
  | (.error (.failed e), scene) =>
    ⟨scene.requests, .failed e, scene.state, scene.effects, scene.world⟩
  | (.error (.unanswered request), scene) =>
    ⟨scene.requests, .suspended request, scene.state, scene.effects, scene.world⟩

/-- What a script comes to when it is read from its first node to its last. -/
def readScript (setup : Setup σ) (nodes : List Node) (state : SessionState) (world : World σ)
    (answers : List String) : ScriptEnding σ :=
  Walking.ending (walkNodes setup [] nodes ⟨state, [], fun _ => none, world, answers, []⟩)

end PromptScript
