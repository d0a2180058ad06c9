import PromptScript.Agent.Command
import PromptScript.Agent.Config
import PromptScript.Agent.Shell
import PromptScript.Agent.Words
import PromptScript.Session.Drive

/-!
Answering runs with a command. For each run the prompt is written to a file of the session's
directory, the command is started there, and what it prints is the answer; what it prints is kept in
files beside the prompt.
-/
namespace PromptScript

/-- Why an agent could not be run. -/
inductive AgentError
  | prompt (cause : ReplaceError)
  | unresolvedPrompt (path : String) (cause : FileError)
  | command (template : String) (cause : CommandError)
  /-- A quote in the command line is never closed. -/
  | quoting (line : String)
  | emptyCommand (line : String)
  | log (path : String) (cause : FileError)
  | start (program : String) (cause : FileError)
  | answer (path : String) (cause : FileError)
deriving DecidableEq, Repr, Inhabited

def AgentError.message : AgentError → String
  | .prompt cause => cause.message
  | .unresolvedPrompt path cause =>
    "failed to resolve prompt file '" ++ path ++ "': " ++ cause.message
  | .command template cause =>
    "invalid agent command '" ++ template ++ "': " ++ cause.message
      ++ "\nAvailable placeholders: prompt_file, tools, turn"
  | .quoting line =>
    "failed to parse agent command '" ++ line
      ++ "': missing closing quote\nFix: check for unmatched quotes or invalid escape sequences."
  | .emptyCommand line => "agent command is empty after parsing: '" ++ line ++ "'"
  | .log path cause => "failed to create agent log '" ++ path ++ "': " ++ cause.message
  | .start program cause =>
    "failed to execute agent command '" ++ program ++ "': " ++ cause.message
      ++ "\nFix: ensure the command is installed and in PATH."
  | .answer path cause =>
    "failed to read agent output '" ++ path ++ "': " ++ cause.message

structure AgentOutput where
  /-- None if it was ended by a signal or took too long. -/
  exitCode : Option Nat
  timedOut : Bool
  commandLine : String
  outputPath : String
  errorsPath : String
deriving DecidableEq, Repr, Inhabited

def AgentOutput.isSuccess (o : AgentOutput) : Bool :=
  !o.timedOut && o.exitCode == some 0

namespace Agent

/-- A computation on files that can fail; what it has written stays. -/
abbrev Running := ExceptT AgentError (StateM FileSystem)

/-- A result that does not depend on files. -/
def ofExcept {α : Type} (result : Except AgentError α) : Running α :=
  ExceptT.mk (pure result)

/-- Writes the prompt of a run, and says where it is. -/
def writePrompt (dir : String) (request : RunRequest) : Running String := ExceptT.mk fun fs =>
  let path := Path.join dir ("turn-" ++ toString request.turn ++ ".prompt.md")
  match fs.replace path request.prompt.toUTF8 with
  | (.error cause, fs) => (.error (.prompt cause), fs)
  | (.ok (), fs) => ((fs.canonicalize path).mapError (.unresolvedPrompt path), fs)

/-- The values for the placeholders of a command. -/
def placeholders (promptPath : String) (request : RunRequest) : List (String × String) :=
  [("prompt_file", promptPath), ("turn", toString request.turn),
    ("tools", ",".intercalate request.tools)]

/-- The command line of a run, and its words. -/
def commandLine (config : AgentConfig) (promptPath : String) (request : RunRequest) :
    Except AgentError (String × String × List String) := do
  let line ← (Command.expand (placeholders promptPath request) config.command).mapError
    (.command config.command)
  match Words.split? line with
  | none => .error (.quoting line)
  | some [] => .error (.emptyCommand line)
  | some (program :: args) => return (line, program, args)

/-- Makes an empty file for what the agent prints. -/
def makeLog (path : String) : Running Unit := ExceptT.mk fun fs =>
  match fs.write path .empty with
  | .ok fs => (.ok (), fs)
  | .error cause => (.error (.log path cause), fs)

/-- Runs a program in a directory and fills the files for what it prints. -/
def runProgram (config : AgentConfig) (dir outputPath errorsPath program : String)
    (args : List String) : Running Completion := ExceptT.mk fun fs =>
  let limit := config.timeoutSeconds * 1000
  -- The logs are filled when the program has ended; it may have replaced them meanwhile.
  let inside := { fs with current := (fs.resolve dir).toOption.getD fs.current }
  match startProgram limit maxShells ⟨program, args, config.environment, .empty⟩ inside with
  | none => (.error (.start program .notFound), fs)
  | some done =>
    let after := { done.files with current := fs.current }
    let after := (after.append outputPath done.output).toOption.getD after
    let after := (after.append errorsPath done.errors).toOption.getD after
    (.ok done, after)

/-- Runs the command of an agent for a request. -/
def execute (config : AgentConfig) (dir : String) (request : RunRequest) :
    Running AgentOutput := do
  let promptPath ← writePrompt dir request
  let (line, program, args) ← ofExcept (commandLine config promptPath request)
  let outputPath := Path.join dir ("turn-" ++ toString request.turn ++ ".stdout.log")
  let errorsPath := Path.join dir ("turn-" ++ toString request.turn ++ ".stderr.log")
  makeLog outputPath
  makeLog errorsPath
  let done ← runProgram config dir outputPath errorsPath program args
  let timedOut := config.timeoutSeconds * 1000 ≤ done.millis
  let exitCode := match done.ending with
    | .exited code => if timedOut then none else some code
    | .killed => none
  return ⟨exitCode, timedOut, line, outputPath, errorsPath⟩

/-- Why an agent that was run has no answer. -/
def failure? (config : AgentConfig) (output : AgentOutput) : Option String :=
  if output.timedOut then
    some ("agent timed out after " ++ toString config.timeoutSeconds ++ " seconds")
  else if output.isSuccess then none
  else
    let ending := match output.exitCode with
      | some code => "code " ++ toString code
      | none => "a signal"
    some ("agent exited with " ++ ending ++ " (see " ++ output.errorsPath ++ ")")

/-- Runs an agent and takes what it prints for its answer. -/
def respond (config : AgentConfig) (dir : String) (request : RunRequest) : Running RunAnswer := do
  let output ← execute config dir request
  match failure? config output with
  | some message => return .failed message
  | none =>
    let files ← get
    let text ← ofExcept ((files.readText output.outputPath).mapError (.answer output.outputPath))
    return .response text

/-- The answer of an agent; if it could not be run, the run has failed. -/
def answer (config : AgentConfig) (dir : String) (request : RunRequest) (fs : FileSystem) :
    RunAnswer × FileSystem :=
  match (respond config dir request).run fs with
  | (.ok answer, fs) => (answer, fs)
  | (.error e, fs) => (.failed e.message, fs)

/-- The channel that answers runs with a command. -/
def channel {σ : Type} (config : AgentConfig) (dir : String) : Channel σ := fun request world =>
  let (answer, files) := answer config dir request world.files
  (answer, { world with files })

end Agent

end PromptScript
