import PromptScript.Config.Basic
import PromptScript.Expr.ContextFile
import PromptScript.Session.Log

/-!
Why tasks fail, in words and as exit codes.
-/
namespace PromptScript

/-- The message of an error and those of the errors that led to it. -/
def RenderError.messages : RenderError → List String
  | e@(.includeParse _ cause) => [e.message, cause.message]
  | e => [e.message]

def EffectError.messages : EffectError → List String
  | .render cause => cause.messages
  | e => [e.message]

inductive TaskError
  | template (path : String) (cause : FileError)
  | config (cause : ConfigError)
  | context (cause : ContextError)
  | state (cause : StateError)
  | log (cause : LogError)
  | output (cause : ReplaceError)
  | parse (cause : ParseError)
  | render (cause : RenderError)
  | effect (cause : EffectError)
deriving DecidableEq, Repr, Inhabited

namespace TaskError

/-- One for what the user has to mend, else a number for the part of the program that failed. -/
def exitCode : TaskError → Nat
  | .parse _ => 2
  | .render _ => 3
  | .effect _ => 4
  | _ => 1

/-- The messages of an error under a heading. -/
def under (heading : String) (messages : List String) : List String :=
  (heading ++ messages.headD "") :: messages

/-- What is told about an error, from the outermost cause inwards. -/
def messages : TaskError → List String
  | .template path cause => ["failed to read template '" ++ path ++ "': " ++ cause.message]
  | .config cause => [cause.message]
  | .context cause => [cause.message]
  | .state cause => [cause.message]
  | .log cause => [cause.message]
  | .output cause => [cause.message]
  | .parse cause => under "Parse failed: " [cause.message]
  | .render cause => under "Render failed: " cause.messages
  | .effect cause => under "Script failed: " cause.messages

/-- The file that an include does not find, if that is the error. -/
def missing? : TaskError → Option String
  | .render (.includeNotFound path) | .effect (.render (.includeNotFound path)) => some path
  | _ => none

end TaskError

inductive Activity
  | configuring
  | rendering (template : String)
  | preparing (script : String)
  | running (script : String)
deriving DecidableEq, Repr, Inhabited

def Activity.message : Activity → String
  | .configuring => "failed to load configuration"
  | .rendering template => "cannot render '" ++ template ++ "'"
  | .preparing script => "cannot run '" ++ script ++ "'"
  | .running script => "script '" ++ script ++ "' failed"

/-- An error, with the activity that it ended if that is to be told. -/
structure Failure where
  activity : Option Activity
  cause : TaskError
deriving DecidableEq, Repr, Inhabited

/-- The line that tells about a failure. -/
def Failure.report (f : Failure) : String :=
  "Error: " ++ ": ".intercalate ((f.activity.map Activity.message).toList ++ f.cause.messages)
    ++ "\n"

end PromptScript
