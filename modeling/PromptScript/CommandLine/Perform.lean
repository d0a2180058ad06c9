import PromptScript.Agent.Channel
import PromptScript.CommandLine.Failure
import PromptScript.CommandLine.Help
import PromptScript.Config.Document
import PromptScript.Source.Template

/-!
Doing what the command line asks for. A task changes files and has a text to print; when it fails,
files that it has changed stay changed.
-/
namespace PromptScript

/-- What tasks take from the system besides files. -/
structure Surroundings where
  /-- The time, for the log. -/
  now : String
  /-- Where agents work if no directory is given. -/
  sessionDir : String
deriving DecidableEq, Repr, Inhabited

/-- A computation on files that can fail. -/
abbrev Performing := ExceptT Failure (StateM FileSystem)

namespace Performing

def ofExcept {α : Type} (activity : Option Activity) (result : Except TaskError α) :
    Performing α :=
  ExceptT.mk (pure (result.mapError (⟨activity, ·⟩)))

def replace (path text : String) : Performing Unit := ExceptT.mk fun fs =>
  let (result, fs) := fs.replace path text.toUTF8
  (result.mapError (⟨none, .output ·⟩), fs)

end Performing

namespace Task

/-- The configuration in a file that must exist, or in the usual one, which need not. -/
def loadConfig (fs : FileSystem) (path : Option String) : Except TaskError Config :=
  let result := match path with
    | some path => Config.load fs path
    | none => Config.loadOrDefault fs Invocation.usualConfig
  result.mapError .config

def loadTemplate (fs : FileSystem) (path : String) : Except TaskError Template := do
  let text ← (fs.readText path).mapError (.template path)
  (Template.parse text).mapError .parse

/-- The context in a file, if there is one. -/
def loadContext (fs : FileSystem) (path : Option String) : Except TaskError Context :=
  match path with
  | some path => (Context.load fs path).mapError .context
  | none => .ok .empty

/-- The state in a file, if there is one. -/
def loadState (fs : FileSystem) (path : Option String) : Except TaskError SessionState :=
  match path with
  | some path => (SessionState.load fs path).mapError .state
  | none => .ok .empty

def directoryOf (path : String) : String :=
  match Path.parent? path with
  | some up => if up.isEmpty then "." else up
  | none => "."

end Task

/-- Renders a template. Nothing is written unless the whole template can be rendered. -/
def RenderTask.perform (task : RenderTask) (config : Config) : Performing String := do
  let activity := some (.rendering task.template)
  let fs ← get
  let template ← .ofExcept activity (Task.loadTemplate fs task.template)
  let ctx ← .ofExcept none (Task.loadContext fs task.context)
  let options := { config.renderOptions with strict := config.strictVariables || task.strict }
  let dir := task.baseDir.getD (Task.directoryOf task.template)
  let result := (render fs options dir template.nodes ctx).run.run .empty
  let text ← .ofExcept activity (result.1.mapError .render)
  match task.output with
  | none => return text
  | some path => do
    Performing.replace path text
    return ""

/-- The metadata of a template as text. -/
def MetadataTask.text (task : MetadataTask) (metadata : Metadata) : String :=
  if task.json then
    (Value.map (metadata.entries.map fun (name, value) => (name, .str value))).toPrettyText ++ "\n"
  else if metadata.isEmpty then "(no metadata)\n"
  else String.join (metadata.entries.map fun (name, value) => name ++ ": " ++ value ++ "\n")

def MetadataTask.perform (task : MetadataTask) : Performing String := do
  let fs ← get
  let template ← .ofExcept none (Task.loadTemplate fs task.template)
  return task.text template.metadata

namespace RunTask

/-- The agent of the configuration, with what the task says about it. -/
def agent (task : RunTask) (config : Config) : AgentConfig :=
  { config.agent with
    command := task.agentCommand.getD config.agent.command
    timeoutSeconds := task.timeout.getD config.agent.timeoutSeconds }

/-- The channel of a session that has no agent. -/
def noAgent : Channel Unit := fun _ world =>
  (.failed ("no agent configured (set agent.command in " ++ Invocation.usualConfig
    ++ " or pass --agent-command)"), world)

/-- The channel to the agent, if there is one. -/
def channel (task : RunTask) (surroundings : Surroundings) (config : Config) : Channel Unit :=
  let agent := task.agent config
  if agent.isConfigured then
    Agent.channel agent (task.sessionDir.getD surroundings.sessionDir)
  else noAgent

/-- Adds the events of a session to the log, if one is asked for. -/
def keepEvents (task : RunTask) (now : String) (events : List Event) : Performing Unit :=
  match task.events with
  | none => return
  | some path => ExceptT.mk fun fs =>
    match appendLog fs path (events.map fun event => (now, event)) with
    | .ok fs => (.ok (), fs)
    | .error cause => (.error ⟨none, .log cause⟩, fs)

/-- Saves the state of a session, if that is asked for. -/
def keepState (task : RunTask) (state : SessionState) : Performing Unit :=
  match task.saveState with
  | none => return
  | some path => Performing.replace path state.toText

/-- Runs a script to its end. Events and state are kept also when it fails, so that it can be gone
on with. -/
def perform (task : RunTask) (surroundings : Surroundings) (config : Config) :
    Performing String := do
  let fs ← get
  let template ← .ofExcept (some (.preparing task.script)) (Task.loadTemplate fs task.script)
  let ctx ← .ofExcept none (Task.loadContext fs task.context)
  let state ← .ofExcept none (Task.loadState fs task.state)
  let setup : Setup Unit := {
    registry := .empty
    options := config.renderOptions
    base := ctx.flatten
    baseDir := Task.directoryOf task.script
    lastResult := config.lastResultVariable }
  let ((result, session), world) := (Session.start template.nodes state).drive setup
    (task.channel surroundings config) ⟨fs, .empty, ()⟩
  set world.files
  -- Events come first: a state that cannot be saved does not lose them.
  task.keepEvents surroundings.now session.events
  task.keepState session.state
  let last ← .ofExcept (some (.running task.script)) (result.mapError .effect)
  return last.bufferText

end RunTask

def Task.perform (task : Task) (surroundings : Surroundings) (config : Config) :
    Performing String :=
  match task with
  | .render task => task.perform config
  | .metadata task => task.perform
  | .run task => task.perform surroundings config

/-- Does a task under the configuration that its invocation names. -/
def Invocation.perform (invocation : Invocation) (surroundings : Surroundings) :
    Performing String := do
  let fs ← get
  let config ← .ofExcept (some .configuring) (Task.loadConfig fs invocation.config)
  invocation.task.perform surroundings config

/-- What the program leaves: a text to print, why it failed if it did, and the files. -/
structure Outcome where
  output : String
  failure : Option Failure
  files : FileSystem
deriving Inhabited

namespace Outcome

/-- The exit code for arguments that make no sense. -/
def misuseCode : Nat := 2

def exitCode (o : Outcome) : Nat :=
  match o.failure with
  | none => 0
  | some failure => failure.cause.exitCode

def errors (o : Outcome) : String :=
  match o.failure with
  | none => ""
  | some failure => failure.report

/-- A text for the user, and no change. -/
def shown (text : String) (fs : FileSystem) : Outcome := ⟨text, none, fs⟩

def ofRequest (surroundings : Surroundings) (request : Request) (fs : FileSystem) : Outcome :=
  match request with
  | .help none _ => shown Help.program fs
  | .help (some form) long => shown (Help.task form long) fs
  | .helpOnHelp => shown Help.help fs
  | .version task => shown (Help.version task) fs
  | .perform invocation =>
    match (invocation.perform surroundings).run fs with
    | (.ok text, fs) => ⟨text, none, fs⟩
    | (.error failure, fs) => ⟨"", some failure, fs⟩

end Outcome

end PromptScript
