import PromptScript.Expr.EvalError
import PromptScript.Files.FileSystem
import PromptScript.Source.Fault

/-!
What can go wrong when a template is rendered.
-/
namespace PromptScript

inductive RenderError
  | includeNotFound (path : String)
  /-- The files being expanded, the outermost first, and again the one that repeats. -/
  | includeCycle (chain : List String)
  | includeParse (path : String) (cause : ParseError)
  | includeRead (path : String) (cause : FileError)
  | eval (cause : EvalError)
deriving DecidableEq, Repr, Inhabited

def RenderError.message : RenderError → String
  | .includeNotFound path => "included template not found: " ++ path
  | .includeCycle chain => "include cycle detected: " ++ " -> ".intercalate chain
  | .includeParse path cause =>
    "failed to parse included template '" ++ path ++ "': " ++ cause.message
  | .includeRead path cause =>
    "failed to read included template '" ++ path ++ "': " ++ cause.message
  | .eval cause => cause.message

end PromptScript
