import PromptScript.Agent.Config
import PromptScript.Files.FileSystem
import PromptScript.Render.Include
import PromptScript.Session.Execute

/-!
Configurations: how templates are rendered and how scripts reach their agent.
-/
namespace PromptScript

structure Config where
  /-- Whether an absent variable is an error in prose. -/
  strictVariables : Bool
  /-- The extension of include paths that have none. -/
  defaultExtension : String
  /-- The variable that receives the answers of the agent. -/
  lastResultVariable : String
  agent : AgentConfig
deriving DecidableEq, Repr, Inhabited

inductive ConfigError
  | unreadable (path : String) (cause : FileError)
  | malformed
  | emptyExtension
  /-- The extension is written with the point in front of it. -/
  | leadingDot (extension : String)
  | invalidVariable (name : String)
  | zeroTimeout
deriving DecidableEq, Repr, Inhabited

def ConfigError.message : ConfigError → String
  | .unreadable path cause => "failed to read config file '" ++ path ++ "': " ++ cause.message
  | .malformed => "failed to parse config YAML: <detail>"
  | .emptyExtension => "config validation failed: default_extension must be non-empty"
  | .leadingDot extension =>
    "config validation failed: default_extension must not have a leading dot (found '" ++ extension
      ++ "'). Use '" ++ .ofList (extension.toList.dropWhile (· = '.')) ++ "' instead."
  | .invalidVariable name =>
    "config validation failed: last_result_variable '" ++ name ++ "' is not a valid variable name"
  | .zeroTimeout => "config validation failed: agent.timeout_seconds must be greater than 0"

namespace Config

def default : Config :=
  ⟨false, RenderOptions.default.defaultExtension, defaultLastResult, .default⟩

/-- The first thing that is wrong with a configuration. -/
def flaw? (c : Config) : Option ConfigError :=
  if c.defaultExtension.isEmpty then some .emptyExtension
  else if c.defaultExtension.toList.head? = some '.' then some (.leadingDot c.defaultExtension)
  else if ¬isIdentifier c.lastResultVariable.toList then
    some (.invalidVariable c.lastResultVariable)
  else if c.agent.timeoutSeconds = 0 then some .zeroTimeout
  else none

def isValid (c : Config) : Bool :=
  c.flaw?.isNone

def renderOptions (c : Config) : RenderOptions :=
  ⟨c.strictVariables, c.defaultExtension⟩

end Config

end PromptScript
