import PromptScript.Agent.Program
import PromptScript.Agent.ShellSyntax

/-!
Running scripts of the shell, and starting programs by their names. Shells nest to a limited depth.
-/
namespace PromptScript

/-- Starts a program, if there is one with this name. -/
abbrev Starter := Process → FileSystem → Option Completion

structure Shell where
  files : FileSystem
  environment : List (String × String)
  args : List String
  input : ByteArray
  status : Nat
  output : ByteArray
  errors : ByteArray
  millis : Nat
  ended : Option Ending

namespace Shell

inductive Sink
  | output
  | errors
  | file (path : String)
deriving DecidableEq, Repr, Inhabited

/-- The value of a variable or of a parameter. -/
def value (sh : Shell) (name : String) : String :=
  if name = "?" then toString sh.status
  else if name = "$" then "1"
  else if name = "#" then toString (sh.args.length - 1)
  else if name = "@" then " ".intercalate (sh.args.drop 1)
  else if name.toList.all Char.isDigit then sh.args[name.toNat?.getD 0]?.getD ""
  else
    match sh.environment.lookup name with
    | some value => value
    | none => if name = "PWD" then FileSystem.pathOf sh.files.current else ""

/-- The words that the parts of a word give; `current` is the word that is being put together. -/
def expandParts (sh : Shell) (current : Option String) : Word → List String
  | [] => current.toList
  | .text s :: rest => expandParts sh (some (current.getD "" ++ .ofList s)) rest
  | .var name true :: rest => expandParts sh (some (current.getD "" ++ sh.value name)) rest
  | .var name false :: rest =>
    match (Text.words (sh.value name).toList).map String.ofList with
    | [] => expandParts sh current rest
    | first :: more =>
      -- The first word goes on with the current one, the last one may go on with what follows.
      let all := (current.getD "" ++ first) :: more
      all.dropLast ++ expandParts sh all.getLast? rest

def expand (sh : Shell) (words : List Word) : List String :=
  words.flatMap (expandParts sh none)

/-- The redirections of a command: the sinks for its output and its errors, and its input. A file
that is written to is made first. -/
def redirect (sh : Shell) (out err : Sink) (input : ByteArray) :
    List Redirect → Except String (Shell × Sink × Sink × ByteArray)
  | [] => .ok (sh, out, err, input)
  | r :: rest =>
    let set (sh : Shell) (descriptor : Nat) (sink : Sink) :=
      if descriptor = 2 then redirect sh out sink input rest
      else redirect sh sink err input rest
    match r with
    | .input path =>
      let path := " ".intercalate (sh.expand [path])
      match sh.files.readBytes path with
      | .ok content => redirect sh out err content rest
      | .error _ => .error ("cannot open " ++ path ++ ": No such file")
    | .output descriptor path =>
      let path := " ".intercalate (sh.expand [path])
      match sh.files.write path .empty with
      | .ok files => set { sh with files } descriptor (.file path)
      | .error e => .error ("cannot create " ++ path ++ ": " ++ Program.causeText e)
    | .append descriptor path =>
      let path := " ".intercalate (sh.expand [path])
      match sh.files.append path .empty with
      | .ok files => set { sh with files } descriptor (.file path)
      | .error e => .error ("cannot create " ++ path ++ ": " ++ Program.causeText e)
    | .copy descriptor target =>
      set sh descriptor (if sh.expand [target] = ["2"] then err else out)

def put (sh : Shell) (sink : Sink) (bytes : ByteArray) : Shell :=
  match sink with
  | .output => { sh with output := sh.output ++ bytes }
  | .errors => { sh with errors := sh.errors ++ bytes }
  | .file path => { sh with files := (sh.files.append path bytes).toOption.getD sh.files }

/-- What the shell itself says about a command. -/
def complain (sh : Shell) (code : Nat) (message : String) : Shell :=
  { sh with
    errors := sh.errors ++ ("sh: 1: " ++ message ++ "\n").toUTF8
    status := code }

/-- The commands that act on the shell itself. -/
def builtin? (sh : Shell) (program : String) (args : List String) : Option Shell :=
  match program, args with
  | "exit", [] => some { sh with ended := some (.exited sh.status) }
  | "exit", code :: _ => some { sh with ended := some (.exited (code.toNat?.getD 2 % 256)) }
  | "kill", args =>
    if args.contains "-0" then some { sh with status := 0 }
    else some { sh with ended := some .killed }
  | "cd", dir :: _ =>
    match sh.files.resolve dir with
    | .ok location =>
      if sh.files.isDirectory dir then
        some { sh with files := { sh.files with current := location }, status := 0 }
      else some (sh.complain 2 ("cd: can't cd to " ++ dir))
    | .error _ => some (sh.complain 2 ("cd: can't cd to " ++ dir))
  | "cd", [] | ":", _ => some { sh with status := 0 }
  | _, _ => none

/-- The variable and the value of an assignment. -/
def assignment? (word : String) : Option (String × String) :=
  let name := word.toList.takeWhile isVarChar
  match word.toList.drop name.length with
  | '=' :: value =>
    if name.head?.any fun c => !c.isDigit then some (.ofList name, .ofList value) else none
  | _ => none

def runCommand (start : Starter) (input : ByteArray) (sh : Shell) (command : Command) : Shell :=
  match sh.redirect .output .errors input command.redirects with
  | .error message => sh.complain 2 message
  | .ok (sh, out, err, input) =>
    -- Assignments are told apart from words after expansion, and only in front of the program.
    let words := sh.expand command.words
    let assignments := words.map assignment? |>.takeWhile Option.isSome |>.filterMap id
    match words.drop assignments.length with
    | [] => { sh with environment := assignments.reverse ++ sh.environment, status := 0 }
    | program :: args =>
      match sh.builtin? program args with
      | some next => next
      | none =>
        let process := ⟨program, args, assignments.reverse ++ sh.environment, input⟩
        let completion := if program = "echo" then some (Program.echo sh.files true args)
          else start process sh.files
        match completion with
        | none => sh.put err ("sh: 1: " ++ program ++ ": not found\n").toUTF8 |> fun sh =>
            { sh with status := 127 }
        | some done =>
          let sh := ({ sh with files := done.files }.put out done.output).put err done.errors
          { sh with
            status := match done.ending with
              | .exited code => code
              | .killed => 137
            millis := sh.millis + done.millis }

/-- Runs the commands of a pipe, of which all but the last one run in shells of their own. -/
def runPipeline (start : Starter) (input : ByteArray) (sh : Shell) : List Command → Shell
  | [] => sh
  | [command] => runCommand start input sh command
  | command :: rest =>
    let first := runCommand start input { sh with output := .empty } command
    runPipeline start first.output
      { first with output := sh.output, ended := none, environment := sh.environment } rest

/-- Runs a script until it ends or its time is over. -/
def runScript (start : Starter) (limit : Nat) (sh : Shell) : Script → Shell
  | [] => sh
  | (condition, commands) :: rest =>
    if sh.ended.isSome || limit ≤ sh.millis then sh
    else
      let runs := match condition with
        | .always => true
        | .onSuccess => sh.status = 0
        | .onFailure => sh.status ≠ 0
      runScript start limit (if runs then runPipeline start sh.input sh commands else sh) rest

/-- Runs the text of a script as a program. -/
def runText (start : Starter) (limit : Nat) (process : Process) (args : List String) (text : String)
    (fs : FileSystem) : Completion :=
  match parse? text with
  | none => Program.failed fs 2 "sh: 1: Syntax error: Unterminated quoted string\n"
  | some script =>
    let sh := runScript start limit
      ⟨fs, process.environment, args, process.input, 0, .empty, .empty, 0, none⟩ script
    ⟨sh.files, sh.output, sh.errors, sh.ended.getD (.exited sh.status), sh.millis⟩

/-- The shell as a program: it runs the script in its arguments or that of a file. -/
def run (start : Starter) (limit : Nat) (process : Process) (fs : FileSystem) : Completion :=
  match process.args with
  | "-c" :: text :: args =>
    runText start limit process (if args.isEmpty then ["sh"] else args) text fs
  | ["-c"] => Program.failed fs 2 "sh: 0: -c requires an argument\n"
  | path :: args =>
    match fs.readText path with
    | .ok text => runText start limit process (path :: args) text fs
    | .error _ => Program.failed fs 2 ("sh: 0: cannot open " ++ path ++ ": No such file\n")
  | [] => Program.printed fs .empty

end Shell

/-- Starts a program that has a limit of time, in milliseconds, when shells may nest `depth` deep. -/
def startProgram (limit : Nat) : (depth : Nat) → Starter
  | 0, _, _ => none
  | depth + 1, process, fs =>
    match process.program with
    | "sh" => some (Shell.run (startProgram limit depth) limit process fs)
    | "cat" => some (Program.cat fs process.input process.args)
    | "echo" => some (Program.echo fs false process.args)
    | "printf" => some (Program.printf fs process.args)
    | "true" => some (Program.printed fs .empty)
    | "false" => some (Program.failed fs 1 "")
    | "sleep" => some (Program.sleep fs process.args)
    | "pwd" => some (Program.pwd fs)
    | _ => none

def maxShells : Nat := 32

end PromptScript
