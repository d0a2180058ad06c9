import PromptScript.Value.Printer

/-!
The events of a session, and the log that keeps one event a line.
-/
namespace PromptScript

inductive EventKind
  | functionImport
  | state
  | functionCall
  | toolRegister
  | contextClear
  | toolClear
  | prose
  | run
  | resume
  | toolCall
  /-- A segment that failed is executed again. -/
  | retry
  | completed
  | failed
deriving DecidableEq, Repr, Inhabited

def EventKind.name : EventKind → String
  | .functionImport => "import"
  | .state => "state"
  | .functionCall => "function_call"
  | .toolRegister => "tool_register"
  | .contextClear => "context_clear"
  | .toolClear => "tool_clear"
  | .prose => "prose"
  | .run => "run"
  | .resume => "resume"
  | .toolCall => "tool_call"
  | .retry => "retry"
  | .completed => "completed"
  | .failed => "failed"

structure Event where
  kind : EventKind
  /-- The number of runs answered when it happened. -/
  turn : Nat
  details : Value
deriving DecidableEq, Repr, Inhabited

/-- The line of the log for an event that happened at a time. -/
def Event.line (time : String) (e : Event) : String :=
  (Value.map [("ts", .str time), ("kind", .str e.kind.name), ("turn", .int e.turn),
    ("details", e.details)]).toText

def logText (events : List (String × Event)) : String :=
  String.join (events.map fun (time, e) => e.line time ++ "\n")

end PromptScript
