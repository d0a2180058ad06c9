import PromptScript.Files.Replace
import PromptScript.Value.Outline

/-!
What a session carries from one turn of the agent to the next, and how it is kept in a file.
-/
namespace PromptScript

/-- A call that the agent made while a run was pending. -/
structure ToolCall where
  name : String
  args : List Value
  result : Value
deriving DecidableEq, Repr, Inhabited

structure SessionState where
  vars : Mapping
  /-- The tools that are offered to the agent, in the order of their registration. -/
  tools : List String
  /-- The pieces of text that the agent gets to see. -/
  buffer : List String
  /-- How many runs of the agent have been answered. -/
  turn : Nat
  /-- The calls made during the pending run. -/
  pendingCalls : List ToolCall
deriving DecidableEq, Repr, Inhabited

/-- Why a state could not be loaded. -/
inductive StateError
  | unreadable (path : String) (cause : FileError)
  | malformed (path : String)
deriving DecidableEq, Repr, Inhabited

def StateError.message : StateError → String
  | .unreadable path cause => "failed to read state file '" ++ path ++ "': " ++ cause.message
  | .malformed path => "failed to parse state file '" ++ path ++ "': <detail>"

namespace Value

def items? : Value → Option (List Value)
  | .list items => some items
  | _ => none

/-- The strings of a list of strings. -/
def strings? (value : Value) : Option (List String) := do
  (← value.items?).mapM fun
    | .str s => some s
    | _ => none

end Value

namespace ToolCall

def fieldNames : List String := ["name", "args", "result"]

def toValue (call : ToolCall) : Value :=
  .map [("name", .str call.name), ("args", .list call.args), ("result", call.result)]

/-- The call that a record spells, with at most `depth` levels below it; only the name is
required. -/
def ofText? (depth : Nat) (text : List Char) : Option ToolCall := do
  let fields ← (← Outline.ofText? text).fields? fieldNames
  let name ← match ← (fields.lookup "name").bind (Value.ofTextWithin? depth) with
    | .str name => some name
    | _ => none
  let args ← match fields.lookup "args" with
    | none => some []
    | some text => (Value.ofTextWithin? depth text).bind Value.items?
  let result ← match fields.lookup "result" with
    | none => some .null
    | some text => Value.ofTextWithin? depth text
  return ⟨name, args, result⟩

end ToolCall

namespace SessionState

def empty : SessionState := ⟨[], [], [], 0, []⟩

def hasTool (s : SessionState) (name : String) : Bool :=
  s.tools.contains name

/-- Offers a tool to the agent; a tool that is offered already keeps its place. -/
def registerTool (s : SessionState) (name : String) : SessionState :=
  if s.hasTool name then s else { s with tools := s.tools ++ [name] }

/-- Adds a piece of text to the buffer. -/
def push (s : SessionState) (text : String) : SessionState :=
  { s with buffer := s.buffer ++ [text] }

def setVariable (s : SessionState) (name : String) (value : Value) : SessionState :=
  { s with vars := Mapping.insert s.vars name value }

def bufferText (s : SessionState) : String :=
  String.join s.buffer

def fieldNames : List String := ["variables", "tools", "buffer", "turn", "pending_tool_calls"]

/-- The largest number of turns that a file may hold. -/
def maxTurn : Nat := 0xffff_ffff

def toValue (s : SessionState) : Value :=
  .map [("variables", .map s.vars), ("tools", .list (s.tools.map .str)),
    ("buffer", .list (s.buffer.map .str)), ("turn", .int s.turn),
    ("pending_tool_calls", .list (s.pendingCalls.map ToolCall.toValue))]

/-- The calls that a list of records spells. -/
def calls? (text : List Char) : Option (List ToolCall) := do
  match ← Outline.ofText? text with
  | .list items => items.mapM (ToolCall.ofText? (Value.maxDepth - 3))
  | .record _ => none

/-- The state that a record spells; what is missing is empty. -/
def ofText? (text : String) : Option SessionState := do
  let fields ← (← Outline.ofText? text.toList).fields? fieldNames
  let read (name : String) (default : Value) : Option Value :=
    match fields.lookup name with
    | none => some default
    | some text => Value.ofTextWithin? (Value.maxDepth - 1) text
  let vars ← match ← read "variables" (.map []) with
    | .map vars => some vars
    | _ => none
  let tools ← (← read "tools" (.list [])).strings?
  let buffer ← (← read "buffer" (.list [])).strings?
  let turn ← match ← read "turn" (.int 0) with
    | .num (.int n) => if 0 ≤ n ∧ n ≤ maxTurn then some n.toNat else none
    | _ => none
  let pendingCalls ← match fields.lookup "pending_tool_calls" with
    | none => some []
    | some text => calls? text
  return ⟨vars, tools, buffer, turn, pendingCalls⟩

/-- The text of the file that keeps a state. -/
def toText (s : SessionState) : String :=
  s.toValue.toPrettyText ++ "\n"

def load (fs : FileSystem) (path : String) : Except StateError SessionState := do
  let text ← (fs.readText path).mapError (.unreadable path)
  match ofText? text with
  | some s => return s
  | none => .error (.malformed path)

def save (s : SessionState) (fs : FileSystem) (path : String) :
    Except ReplaceError Unit × FileSystem :=
  fs.replace path s.toText.toUTF8

end SessionState

end PromptScript
