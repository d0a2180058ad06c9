import PromptScript.Files.Replace
import PromptScript.Session.Event
import PromptScript.Session.State

/-!
The file that keeps the log of a session: events are added at its end. Each line of a log is read back
by itself.
-/
namespace PromptScript

inductive LogError
  | directory (path : String) (cause : FileError)
  | file (path : String) (cause : FileError)
deriving DecidableEq, Repr, Inhabited

def LogError.message : LogError → String
  | .directory path cause =>
    "failed to create events directory '" ++ path ++ "': " ++ cause.message
  | .file path cause => "failed to open events file '" ++ path ++ "': " ++ cause.message

/-- Adds events to a log; the file and its directory are made if they are missing. -/
def appendLog (fs : FileSystem) (path : String) (events : List (String × Event)) :
    Except LogError FileSystem := do
  let fs ← (fs.makeParent path).mapError fun (up, cause) => .directory up cause
  (fs.append path (logText events).toUTF8).mapError (.file path)

/-! ### Reading a log -/

def EventKind.all : List EventKind :=
  [.functionImport, .state, .functionCall, .toolRegister, .contextClear, .toolClear, .prose, .run,
    .resume, .toolCall, .retry, .completed, .failed]

/-- The kind of events that a name stands for. -/
def EventKind.ofName? (name : String) : Option EventKind :=
  all.find? (·.name = name)

namespace Event

def fieldNames : List String := ["ts", "kind", "turn", "details"]

/-- The event that a record spells, and its time. All fields are required; unknown ones do not
count. -/
def ofText? (text : List Char) : Option (String × Event) := do
  let fields ← (← Outline.ofText? text).fields? fieldNames
  let read (name : String) : Option Value :=
    (fields.lookup name).bind (Value.ofTextWithin? (Value.maxDepth - 1))
  let time ← match ← read "ts" with
    | .str time => some time
    | _ => none
  let kind ← match ← read "kind" with
    | .str name => EventKind.ofName? name
    | _ => none
  let turn ← match ← read "turn" with
    | .num (.int n) => if 0 ≤ n ∧ n ≤ SessionState.maxTurn then some n.toNat else none
    | _ => none
  let details ← read "details"
  return (time, ⟨kind, turn, details⟩)

end Event

end PromptScript
