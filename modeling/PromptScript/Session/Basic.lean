import PromptScript.Session.Error
import PromptScript.Session.Event
import PromptScript.Session.Frame
import PromptScript.Session.State

/-!
Sessions: a script that is being executed, with all that it has done so far.
-/
namespace PromptScript

structure RunRequest where
  /-- The number of this run, from zero in a new session. -/
  turn : Nat
  buffer : List String
  tools : List String
deriving DecidableEq, Repr, Inhabited

def RunRequest.prompt (request : RunRequest) : String :=
  String.join request.buffer

/-- The run that a state asks for. -/
def SessionState.request (s : SessionState) : RunRequest :=
  ⟨s.turn, s.buffer, s.tools⟩

/-- How a run of the agent ended. -/
inductive RunAnswer
  | response (text : String)
  | failed (message : String)
  | cancelled
deriving DecidableEq, Repr, Inhabited

/-- What failed and is to be tried again. -/
inductive RetryPoint
  | segment (segment : Segment)
  /-- A run, which is handed to the agent once more. -/
  | run (request : RunRequest)
deriving Repr, Inhabited

/-- The name of a kind of segments in the log. -/
def Node.segmentName : Node → String
  | .text _ | .interpolation _ | .block _ => "prose"
  | .include _ => "include"
  | .conditional .. => "conditional"
  | .loop .. => "loop"
  | .functionImport .. => "import"
  | .stateAssign .. => "state"
  | .effect e => e.kind

def RetryPoint.name : RetryPoint → String
  | .segment s => s.node.segmentName
  | .run _ => "run"

inductive Phase
  | ready
  | running
  | suspended (request : RunRequest)
  | completed
  | failed (point : RetryPoint)
deriving Repr, Inhabited

def Phase.name : Phase → String
  | .ready => "ready"
  | .running => "running"
  | .suspended _ => "suspended"
  | .completed => "completed"
  | .failed _ => "failed"

structure Session where
  state : SessionState
  phase : Phase
  stack : Stack
  /-- Imported functions with the modules that they come from. -/
  imports : List (String × String)
  events : List Event
deriving Repr, Inhabited

namespace Session

/-- A session that is to execute some nodes from a state on. -/
def start (nodes : List Node) (state : SessionState) : Session :=
  ⟨state, .ready, [.nodes nodes []], [], []⟩

def record (s : Session) (kind : EventKind) (details : Mapping) : Session :=
  { s with events := s.events ++ [⟨kind, s.state.turn, .map details⟩] }

def clearEvents (s : Session) : Session :=
  { s with events := [] }

def setVariable (s : Session) (name : String) (value : Value) : Session :=
  { s with state := s.state.setVariable name value }

def stored? (s : Session) (name : String) : Option Value :=
  Mapping.get? s.state.vars name

/-- Notes that a function comes from a module. -/
def addImport (s : Session) (name module : String) : Session :=
  { s with imports := (name, module) :: s.imports.filter fun (n, _) => n != name }

/-- The module that a function was imported from. -/
def module? (s : Session) (name : String) : Option String :=
  (s.imports.find? fun (n, _) => n == name).map (·.2)

theorem module?_addImport (s : Session) (name module other : String) :
    (s.addImport name module).module? other =
      if name = other then some module else s.module? other := by
  simp only [module?, addImport, List.find?_cons]
  by_cases same : name = other
  · simp [same]
  · -- The entry that goes has another name, so that the search does not see it go.
    have kept : (s.imports.filter fun (n, _) => n != name).find? (fun (n, _) => n == other) =
        s.imports.find? fun (n, _) => n == other := by
      rw [List.find?_filter]
      congr 1
      funext ⟨n, _⟩
      by_cases here : n = other <;> simp [here, Ne.symm same]
    simp [beq_false_of_ne same, same, kept]

def fail (s : Session) (e : EffectError) (point : RetryPoint) : Session :=
  { s with phase := .failed point }.record .failed [("error", .str e.message)]

end Session

end PromptScript
