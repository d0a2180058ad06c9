import PromptScript.Expr.Context
import PromptScript.Expr.EvalError
import PromptScript.Files.FileSystem
import PromptScript.Yaml.Value

/-!
Contexts from data: a mapping is a context of one scope. A file holds JSON if its extension says so,
and YAML otherwise.
-/
namespace PromptScript

inductive ContextError
  | notMapping (kind : Kind)
  | unreadable (path : String) (cause : FileError)
  | malformed (path : String)
deriving DecidableEq, Repr, Inhabited

def ContextError.message : ContextError → String
  | .notMapping kind => "context must be a mapping, got " ++ kind.name
  | .unreadable path cause =>
    "failed to read context file '" ++ path ++ "': " ++ cause.message
  | .malformed path => "failed to parse context file '" ++ path ++ "': <detail>"

namespace Context

/-- The context whose variables are the entries of a mapping. -/
def ofValue : Value → Except ContextError Context
  | .map vars => .ok (ofMapping vars)
  | value => .error (.notMapping (.ofValue value))

/-- Whether the extension of a path, in letters of either case, is that of JSON files. -/
def isJsonPath (path : String) : Bool :=
  ((Path.fileName? path).bind Path.extension?).any fun extension =>
    Text.lowerAscii extension = "json".toList

/-- The context in a file; null stands for an empty one. -/
def load (fs : FileSystem) (path : String) : Except ContextError Context := do
  let text ← (fs.readText path).mapError (.unreadable path)
  let value := if isJsonPath path then Value.ofText? text.toList
    else (Yaml.Document.ofText? text.toList).bind Yaml.Document.toValue?
  match value with
  | none => .error (.malformed path)
  | some .null => return .empty
  | some value => ofValue value

end Context

end PromptScript
