import PromptScript.CommandLine.Task

/-!
The texts that say how the program is used. Names stand in one column and their purposes in another;
in long texts purposes go below the names. Lines are as long as they are written.
-/
namespace PromptScript

def programName : String := "margarita"

def programVersion : String := "0.1.0"

namespace Help

/-- A name with what it is for. -/
structure Item where
  /-- The letter that stands for the name, or the room for one. -/
  lead : String
  name : String
  purpose : String
deriving DecidableEq, Repr, Inhabited

/-- The name of the value of an option. -/
def valueName (name : String) : String :=
  .ofList (name.toList.map fun c => if c = '-' then '_' else c.toUpper)

def Item.ofOption (form : OptionForm) : Item where
  lead := match form.letter? with
    | some letter => .ofList ['-', letter, ',', ' ']
    | none => "    "
  name := match form with
    | .switch name _ => "--" ++ name
    | .valued name .. => "--" ++ name ++ " <" ++ valueName name ++ ">"
  purpose := form.purpose

def commonOptions (helpPurpose : String) : List Item :=
  [⟨"-h, ", "--help", helpPurpose⟩, ⟨"-V, ", "--version", "Print version"⟩]

def longest (items : List Item) : Nat :=
  items.foldl (fun n item => max n item.name.length) 2

def columns (items : List Item) : String :=
  String.join (items.map fun item =>
    let room := longest items + 2 - item.name.length
    "  " ++ item.lead ++ item.name ++ .ofList (List.replicate room ' ') ++ item.purpose ++ "\n")

/-- The items with their purposes below them, and blank lines between them. -/
def stacked (items : List Item) : String :=
  "\n".intercalate (items.map fun item =>
    "  " ++ item.lead ++ item.name ++ "\n          " ++ item.purpose ++ "\n")

def layout (long : Bool) (items : List Item) : String :=
  if long then stacked items else columns items

def usage (words : String) : String :=
  "Usage: " ++ programName ++ " " ++ words ++ "\n"

def helpCommand : Item :=
  ⟨"", "help", "Print this message or the help of the given subcommand(s)"⟩

def program : String :=
  "Margarita: render prompt templates and run multi-turn agent scripts\n\n"
    ++ usage "[OPTIONS] <COMMAND>"
    ++ "\nCommands:\n"
    ++ columns (TaskForm.all.map (fun form => ⟨"", form.name, form.summary⟩) ++ [helpCommand])
    ++ "\nOptions:\n"
    ++ layout false (Item.ofOption TaskForm.config :: commonOptions "Print help")

/-- Help on a task, which is long only if there is more to tell. -/
def task (form : TaskForm) (long : Bool) : String :=
  let more := form.details.isSome
  let about := match long, form.details with
    | true, some details => form.summary ++ ".\n\n" ++ details
    | _, _ => form.summary
  let long := long && more
  let helpPurpose :=
    if long then "Print help (see a summary with '-h')"
    else if more then "Print help (see more with '--help')"
    else "Print help"
  about ++ "\n\n" ++ usage (form.name ++ " [OPTIONS] <" ++ form.operand ++ ">")
    ++ "\nArguments:\n"
    ++ layout long [⟨"", "<" ++ form.operand ++ ">", form.operandPurpose⟩]
    ++ "\nOptions:\n"
    ++ layout long (form.options.map Item.ofOption ++ commonOptions helpPurpose)

def help : String :=
  helpCommand.purpose ++ "\n\n" ++ usage "help [COMMAND]..."
    ++ "\nArguments:\n" ++ columns [⟨"", "[COMMAND]...", "Print help for the subcommand(s)"⟩]

/-- The version of the program, with the name of a task if it was asked for there. -/
def version (task : Option TaskForm) : String :=
  let suffix := match task with
    | some form => "-" ++ form.name
    | none => ""
  programName ++ suffix ++ " " ++ programVersion ++ "\n"

/-- What is printed when the arguments make no sense. -/
def hint : String :=
  usage "[OPTIONS] <COMMAND>" ++ "\nFor more information, try '--help'.\n"

end Help

end PromptScript
