import PromptScript.Render.Error

/-!
What can go wrong in a session.
-/
namespace PromptScript

/-- Why an operation does not fit the phase that a session is in. -/
inductive StepRefusal
  /-- A pending run must be answered. -/
  | responseRequired
  | noRunPending
  /-- The session has ended, in the phase with this name. -/
  | over (phase : String)
  /-- A pending run is answered by a step. -/
  | suspended
  | notFailed (phase : String)
  /-- Tools are for the agent of a pending run. -/
  | noAgentRunning (phase : String)
deriving DecidableEq, Repr, Inhabited

def StepRefusal.message : StepRefusal → String
  | .responseRequired => "the model is suspended; a run response is required"
  | .noRunPending => "no run is pending"
  | .over phase => "the model has already " ++ phase
  | .suspended => "the model is suspended; resume it with step()"
  | .notFailed phase => "only a failed model can be retried (model is " ++ phase ++ ")"
  | .noAgentRunning phase =>
    "tools can only be invoked while a run is pending (model is " ++ phase ++ ")"

inductive EffectError
  | unknownFunction (name : String)
  /-- An imported function that the host does not provide. -/
  | notProvided (name module : String)
  | functionFailed (name message : String)
  | unknownTool (name : String)
  | runFailed (message : String)
  | cancelled
  | invalidStep (cause : StepRefusal)
  | render (cause : RenderError)
  | eval (cause : EvalError)
deriving DecidableEq, Repr, Inhabited

def EffectError.message : EffectError → String
  | .unknownFunction name =>
    "unknown function '" ++ name ++ "' (import it with 'from <module> import " ++ name ++ "')"
  | .notProvided name module =>
    "function '" ++ name ++ "' imported from '" ++ module
      ++ "' is not provided by the host registry"
  | .functionFailed name message => "function '" ++ name ++ "' failed: " ++ message
  | .unknownTool name => "tool '" ++ name ++ "' is not registered for this run"
  | .runFailed message => "agent run failed: " ++ message
  | .cancelled => "agent run was cancelled"
  | .invalidStep cause => "invalid step: " ++ cause.message
  | .render cause => cause.message
  | .eval cause => cause.message

end PromptScript
