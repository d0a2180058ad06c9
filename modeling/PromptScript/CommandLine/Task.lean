import PromptScript.CommandLine.Option

/-!
What the program can be asked to do, and how that is written as arguments: options of the program,
the name of a task, and then the options of the task and the file that it is about.
-/
namespace PromptScript

structure RenderTask where
  template : String
  context : Option String
  /-- Where includes are looked up, if not beside the template. -/
  baseDir : Option String
  strict : Bool
  /-- The file for the text, if it is not to be printed. -/
  output : Option String
deriving DecidableEq, Repr, Inhabited

structure MetadataTask where
  template : String
  json : Bool
deriving DecidableEq, Repr, Inhabited

structure RunTask where
  script : String
  context : Option String
  state : Option String
  saveState : Option String
  events : Option String
  sessionDir : Option String
  agentCommand : Option String
  timeout : Option Nat
deriving DecidableEq, Repr, Inhabited

inductive Task
  | render (task : RenderTask)
  | metadata (task : MetadataTask)
  | run (task : RunTask)
deriving DecidableEq, Repr, Inhabited

/-- A task, and the file with the configuration if it is not the usual one. -/
structure Invocation where
  config : Option String
  task : Task
deriving DecidableEq, Repr, Inhabited

structure TaskForm where
  name : String
  summary : String
  details : Option String
  /-- What help calls the file that the task is about. -/
  operand : String
  operandPurpose : String
  options : List OptionForm
deriving DecidableEq, Repr, Inhabited

def Task.paths : Task → List String
  | .render task => task.template :: [task.context, task.baseDir, task.output].filterMap id
  | .metadata task => [task.template]
  | .run task =>
    task.script
      :: [task.context, task.state, task.saveState, task.events, task.sessionDir].filterMap id

namespace Invocation

/-- The configuration that is used if there is such a file and no other one is named. -/
def usualConfig : String := "margarita.yaml"

/-- The files that an invocation names, the usual configuration included. -/
def paths (invocation : Invocation) : List String :=
  invocation.config.getD usualConfig :: invocation.task.paths

end Invocation

namespace TaskForm

def config : OptionForm :=
  .valued "config" none .path "Config file (default: ./margarita.yaml if present)"

def render : TaskForm where
  name := "render"
  summary := "Render a template to text"
  details :=
    some "Includes are resolved relative to the template's directory unless --base-dir is given."
  operand := "TEMPLATE"
  operandPurpose := "Template file to render"
  options := [
    .valued "context" (some 'c') .path "JSON or YAML file with the variables to render with",
    config,
    .valued "base-dir" none .path "Directory that top-level includes resolve against",
    .switch "strict" "Fail on undefined variables instead of rendering them empty",
    .valued "output" (some 'o') .path "Write the output to a file instead of stdout"]

def metadata : TaskForm where
  name := "metadata"
  summary := "Print a template's metadata header"
  details := none
  operand := "TEMPLATE"
  operandPurpose := "Template file to read"
  options := [config, .switch "json" "Print as a JSON object instead of \x60key: value\x60 lines"]

def run : TaskForm where
  name := "run"
  summary := "Run an agent script to completion"
  details :=
    some ("Each \x60@effect run\x60 invokes the agent command configured in margarita.yaml (or"
      ++ " --agent-command) and feeds its stdout back in.")
  operand := "SCRIPT"
  operandPurpose := "Script file to run"
  options := [
    .valued "context" (some 'c') .path "JSON or YAML file with read-only variables for the script",
    config,
    .valued "state" none .path "Resume from a state file saved by an earlier run",
    .valued "save-state" none .path "Save the final state to this file",
    .valued "events" none .path "Append session events (NDJSON) to this file",
    .valued "session-dir" none .path
      "Directory for prompts and agent output (default: a temporary directory)",
    .valued "agent-command" none .text "Agent command template, overriding the config",
    .valued "timeout" none .count "Agent timeout in seconds, overriding the config"]

def all : List TaskForm := [render, metadata, run]

/-- The options and the operand of a task. Behind two hyphens alone there are no options. -/
def read (form : TaskForm) (arguments : List String) :
    Except Interruption (GivenOptions × String) := do
  let (given, rest) ← GivenOptions.read form.options [] arguments
  match rest with
  | ["--", operand] => if operand.isEmpty then .error .misuse else .ok (given, operand)
  | "--" :: _ | "" :: _ | [] => .error .misuse
  | operand :: rest =>
    let (given, rest) ← GivenOptions.read form.options given rest
    if rest = [] ∨ rest = ["--"] then .ok (given, operand) else .error .misuse

end TaskForm

namespace Task

/-- The task that options and an operand describe, if its name is known. -/
def ofGiven? (name operand : String) (given : GivenOptions) : Option Task :=
  match name with
  | "render" => some (.render {
      template := operand
      context := given.value? "context"
      baseDir := given.value? "base-dir"
      strict := given.has "strict"
      output := given.value? "output" })
  | "metadata" => some (.metadata { template := operand, json := given.has "json" })
  | "run" => some (.run {
      script := operand
      context := given.value? "context"
      state := given.value? "state"
      saveState := given.value? "save-state"
      events := given.value? "events"
      sessionDir := given.value? "session-dir"
      agentCommand := given.value? "agent-command"
      timeout := (given.value? "timeout").bind positive? })
  | _ => none

end Task

inductive Request
  | perform (invocation : Invocation)
  /-- Help on the program, or on one of its tasks, at length or not. -/
  | help (task : Option TaskForm) (long : Bool)
  | helpOnHelp
  | version (task : Option TaskForm)
deriving DecidableEq, Repr, Inhabited

namespace Request

/-- What an interruption asks for, while the arguments of a task are read or those of the program. -/
def ofInterruption? (task : Option TaskForm) : Interruption → Option Request
  | .help byName => some (.help task byName)
  | .version => some (.version task)
  | .misuse => none

/-- What the words behind `help` ask for. -/
def ofHelpWords? : List String → Option Request
  | [] => some (.help none true)
  | ["help"] => some .helpOnHelp
  | [name] => (TaskForm.all.find? (·.name = name)).map fun form => .help form true
  | _ => none

/-- What the name of a task and its arguments ask for. The configuration that is given with the task
counts more than the one given before it. -/
def ofTask? (before : GivenOptions) (form : TaskForm) (arguments : List String) : Option Request :=
  match form.read arguments with
  | .error interruption => ofInterruption? (some form) interruption
  | .ok (given, operand) => do
    let task ← Task.ofGiven? form.name operand given
    return .perform ⟨(given.value? "config").or (before.value? "config"), task⟩

/-- What arguments ask for, if they make sense. -/
def ofArguments? (arguments : List String) : Option Request :=
  match GivenOptions.read [TaskForm.config] [] arguments with
  | .error interruption => ofInterruption? none interruption
  | .ok (_, []) => none
  | .ok (_, "help" :: words) => ofHelpWords? words
  | .ok (before, name :: rest) => do
    ofTask? before (← TaskForm.all.find? (·.name = name)) rest

end Request

end PromptScript
