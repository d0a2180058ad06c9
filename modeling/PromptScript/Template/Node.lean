import PromptScript.Template.Expr

/-!
Templates: a header of metadata and a sequence of nodes, which a renderer walks from left to right
and a session executes one by one.
-/
namespace PromptScript

/-- Where an include finds its template: at a fixed path, or at the path that a variable holds. -/
inductive IncludePath
  | literal (path : String)
  | dynamic (path : VarPath)
deriving DecidableEq, Repr, Inhabited

/-- An include path as it is written. -/
def IncludePath.text : IncludePath → String
  | .literal path => path
  | .dynamic path => "$\x7b" ++ path.text ++ "\x7d"

/-- A marker that puts another template in its place, with bindings evaluated where it stands. -/
structure Include where
  path : IncludePath
  bindings : List (String × Expr)
deriving Repr, Inhabited

/-- What a script asks of its session or of the host. -/
inductive Effect
  /-- Calls a host function and stores its result in the variable `target`, if there is one. -/
  | call (name : String) (args : List Expr) (target : Option String)
  | registerTools (names : List String)
  | run
  | clearContext
  | clearTools
deriving Repr, Inhabited

namespace Effect

/-- The name of an effect in the log. -/
def kind : Effect → String
  | .call .. => "function_call"
  | .registerTools _ => "tool_register"
  | .run => "run"
  | .clearContext => "context_clear"
  | .clearTools => "tool_clear"

end Effect

inductive Node
  | text (text : String)
  | interpolation (path : VarPath)
  /-- The body of the first branch whose condition holds, else the last body. -/
  | conditional (branches : List (Expr × List Node)) (orElse : Option (List Node))
  | loop (var : String) (iterable : Expr) (body : List Node)
  | include (target : Include)
  | functionImport (names : List String) (source : String)
  | effect (effect : Effect)
  | stateAssign (name : String) (value : Expr)
  /-- A block of prose: texts and interpolations. -/
  | block (body : List Node)
deriving Repr, Inhabited

/-- The entries of a header, in order; a repeated key keeps its first place and takes its last
value. -/
structure Metadata where
  entries : List (String × String)
deriving DecidableEq, Repr, Inhabited

namespace Metadata

def empty : Metadata := ⟨[]⟩

/-- Gives a key a value among entries; a key that is present keeps its place. -/
def insertEntry (key value : String) : List (String × String) → List (String × String)
  | [] => [(key, value)]
  | (k, v) :: rest => if k = key then (k, value) :: rest else (k, v) :: insertEntry key value rest

def insert (m : Metadata) (key value : String) : Metadata :=
  ⟨insertEntry key value m.entries⟩

def ofList (entries : List (String × String)) : Metadata :=
  entries.foldl (fun m (key, value) => m.insert key value) empty

def get? (m : Metadata) (key : String) : Option String :=
  (m.entries.find? fun (k, _) => k == key).map (·.2)

def size (m : Metadata) : Nat :=
  m.entries.length

def isEmpty (m : Metadata) : Bool :=
  m.entries.isEmpty

end Metadata

structure Template where
  metadata : Metadata
  nodes : List Node
deriving Repr, Inhabited

mutual

/-- Whether a node, at any depth, is one that only scripts use. -/
def Node.isScript : Node → Bool
  | .functionImport .. | .effect _ | .stateAssign .. => true
  | .conditional branches orElse => branchesAreScript branches || orElseIsScript orElse
  | .loop _ _ body | .block body => nodesAreScript body
  | .text _ | .interpolation _ | .include _ => false

def nodesAreScript : List Node → Bool
  | [] => false
  | node :: rest => node.isScript || nodesAreScript rest

def branchesAreScript : List (Expr × List Node) → Bool
  | [] => false
  | (_, body) :: rest => nodesAreScript body || branchesAreScript rest

def orElseIsScript : Option (List Node) → Bool
  | none => false
  | some body => nodesAreScript body

end

/-- Whether a template uses imports, assignments or effects. -/
def Template.isScript (t : Template) : Bool :=
  nodesAreScript t.nodes

end PromptScript
