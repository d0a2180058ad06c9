import PromptScript.Text.Trim

/-!
How sessions reach their agent.
-/
namespace PromptScript

structure AgentConfig where
  /-- The template of the command line; blank when there is no agent. -/
  command : String
  timeoutSeconds : Nat
  /-- Environment variables for the agent, in the order of their names. -/
  environment : List (String × String)
deriving DecidableEq, Repr, Inhabited

namespace AgentConfig

def default : AgentConfig := ⟨"", 600, []⟩

def isConfigured (c : AgentConfig) : Bool :=
  !(Text.trim c.command.toList).isEmpty

end AgentConfig

end PromptScript
