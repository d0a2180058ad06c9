import PromptScript.Config.Basic
import PromptScript.Yaml.Value

/-!
Configurations as documents. Unknown keys do not count, a known key must not come twice, and what is
missing has its default value. A string may be written as any scalar.
-/
namespace PromptScript

namespace Yaml

/-- Whether a scalar may spell something other than a string: it is plain, or in literal lines with
a tag that says so. -/
def Style.isOpen (style : Style) (tag : Option (List Char)) (core : CoreTag) : Bool :=
  style = .plain || (style = .literal && tag = some core.text)

def text? : Yaml → Option String
  | .scalar _ _ text => some (.ofList text)
  | _ => none

/-- The truth value that a scalar spells. -/
def truth? : Yaml → Option Bool
  | .scalar style tag text => if style.isOpen tag .bool then bool? text else none
  | _ => none

/-- The number without a sign, of at most 64 bits, that a scalar spells. -/
def natural? : Yaml → Option Nat
  | .scalar style tag text => do
    let n ← int? text
    if style.isOpen tag .int ∧ text.head? ≠ some '-' ∧ n < 0x1_0000_0000_0000_0000 then
      some n.toNat
    else none
  | _ => none

namespace Document

def key? (d : Document) (node : Yaml) : Option String :=
  (d.content? node).bind text?

/-- The entries of a mapping with their keys as texts; a mapping of which nothing is written has
none. -/
def entries? (d : Document) (node : Yaml) : Option (List (String × Yaml)) := do
  match ← d.content? node with
  | .map _ entries => entries.mapM fun (key, value) => do return (← d.key? key, value)
  | node => if node.isBlank then some [] else none

/-- The entry for a key, read by `read`, or a default if there is none. -/
def field? {α : Type} (d : Document) (entries : List (String × Yaml)) (key : String) (default : α)
    (read : Yaml → Option α) : Option α :=
  match entries.filter fun (k, _) => k = key with
  | [] => some default
  | [(_, value)] => (d.content? value).bind read
  | _ => none

end Document

end Yaml

/-- Puts an environment variable into a list in the order of the names, in place of one that has
this name. -/
def insertVariable (name value : String) : List (String × String) → List (String × String)
  | [] => [(name, value)]
  | (n, v) :: rest =>
    if name = n then (n, value) :: rest
    else if name < n then (name, value) :: (n, v) :: rest
    else (n, v) :: insertVariable name value rest

namespace AgentConfig

/-- The environment that a mapping from names to scalars describes. -/
def environmentOf? (d : Yaml.Document) (node : Yaml) : Option (List (String × String)) := do
  (← d.entries? node).foldlM (fun known (name, value) => do
    return insertVariable name (← (← d.content? value).text?) known) []

def ofYaml? (d : Yaml.Document) (node : Yaml) : Option AgentConfig := do
  let entries ← d.entries? node
  return ⟨← d.field? entries "command" default.command Yaml.text?,
    ← d.field? entries "timeout_seconds" default.timeoutSeconds Yaml.natural?,
    ← d.field? entries "environment" default.environment (environmentOf? d)⟩

end AgentConfig

namespace Config

def ofDocument? (d : Yaml.Document) : Option Config := do
  let entries ← d.entries? d.root
  return ⟨← d.field? entries "strict_variables" default.strictVariables Yaml.truth?,
    ← d.field? entries "default_extension" default.defaultExtension Yaml.text?,
    ← d.field? entries "last_result_variable" default.lastResultVariable Yaml.text?,
    ← d.field? entries "agent" default.agent (AgentConfig.ofYaml? d)⟩

/-- The configuration that a document spells, if it can be used. -/
def ofText (text : String) : Except ConfigError Config :=
  if (Text.trim text.toList).isEmpty then .ok default
  else
    match (Yaml.Document.ofText? text.toList).bind ofDocument? with
    | none => .error .malformed
    | some c =>
      match c.flaw? with
      | some flaw => .error flaw
      | none => .ok c

/-- The code of a character in eight hexadecimal digits. -/
def hex8 (c : Char) : List Char :=
  let digits := Nat.toDigits 16 c.toNat
  List.replicate (8 - digits.length) '0' ++ digits

/-- A character inside double quotes. What a document cannot hold, and what it would fold, is
escaped. -/
def quotedChar (c : Char) : List Char :=
  if c = '"' ∨ c = '\\' then ['\\', c]
  else if (' ' ≤ c ∧ c ≤ '~') ∨ ('\u00a0' ≤ c ∧ Yaml.isAllowed c ∧ !Yaml.isBreak c) then [c]
  else ['\\', 'U'] ++ hex8 c

/-- A string as a document spells it. -/
def quoted (s : String) : String :=
  .ofList ('"' :: s.toList.flatMap quotedChar ++ ['"'])

def toText (c : Config) : String :=
  let environment := c.agent.environment.map fun (name, value) =>
    "    " ++ quoted name ++ ": " ++ quoted value ++ "\n"
  "strict_variables: " ++ toString c.strictVariables ++ "\n"
    ++ "default_extension: " ++ quoted c.defaultExtension ++ "\n"
    ++ "last_result_variable: " ++ quoted c.lastResultVariable ++ "\n"
    ++ "agent:\n"
    ++ "  command: " ++ quoted c.agent.command ++ "\n"
    ++ "  timeout_seconds: " ++ toString c.agent.timeoutSeconds ++ "\n"
    ++ (if environment.isEmpty then "" else "  environment:\n" ++ String.join environment)

def load (fs : FileSystem) (path : String) : Except ConfigError Config := do
  ofText (← (fs.readText path).mapError (.unreadable path))

/-- The configuration in a file, or the default one if there is no such file. -/
def loadOrDefault (fs : FileSystem) (path : String) : Except ConfigError Config :=
  if fs.pathExists path then load fs path else .ok default

end Config

end PromptScript
