import PromptScript.Source.Expression
import PromptScript.Source.Scan
import PromptScript.Template.Node

/-!
Lines of scripts: `@state` and `@effect` directives, and imports.
-/
namespace PromptScript.Source

/-- The name at the start of a text: an ASCII letter or underscore, then word characters. -/
def leadingName? : List Char → Option (List Char)
  | c :: rest =>
    if Text.isPlainNameStart c then some (c :: rest.takeWhile Text.isWordChar) else none
  | [] => none

/-- Whether a text is on one line and not empty. -/
def isOneLine (text : List Char) : Bool :=
  !text.isEmpty && !text.contains '\n'

def readNames? (text : List Char) : Option (List String) :=
  let names := (Text.pieces (· = ',') text).map Text.trim
  if names.all isIdentifier then some (names.map .ofList) else none

/-- The name and the expression of `@state name = expression`. -/
def stateParts? (s : Span) : Option (List Char × Span) := do
  let s ← s.afterKeyword? ['@', 's', 't', 'a', 't', 'e']
  let name ← leadingName? s.text
  let s := (s.drop name.length).trimStart
  if s.text.head? = some '=' then
    let value := (s.drop 1).trimStart
    if isOneLine value.text then some (name, value) else none
  else none

/-- The texts before and behind the last occurrence of a character. -/
def splitLast? (c : Char) : List Char → Option (List Char × List Char)
  | [] => none
  | d :: rest =>
    match splitLast? c rest with
    | some (before, after) => some (d :: before, after)
    | none => if d = c then some ([], rest) else none

/-- What follows the arguments of a call: nothing, or `=> name`. -/
def callTarget? (text : List Char) : Option (Option (List Char)) :=
  match Text.trimStart text with
  | [] => some none
  | '=' :: '>' :: rest =>
    let rest := Text.trimStart rest
    match leadingName? rest with
    | some name => if name.length = rest.length then some (some name) else none
    | none => none
  | _ => none

/-- The name, the arguments and the target of `func name(arguments) => target`. -/
def callParts? (s : Span) : Option (List Char × Span × Option (List Char)) := do
  let s ← s.afterKeyword? ['f', 'u', 'n', 'c']
  let name ← leadingName? s.text
  let s := (s.drop name.length).trimStart
  if s.text.head? = some '(' then
    let inner := s.drop 1
    let (arguments, behind) ← splitLast? ')' inner.text
    let target ← callTarget? behind
    if arguments.contains '\n' then none
    else return (name, inner.take arguments.length, target)
  else none

/-- The names of `tool names` or `tools names`, not yet split. -/
def toolNames? (s : Span) : Option (List Char) := do
  let s ← (s.afterKeyword? ['t', 'o', 'o', 'l', 's']).or (s.afterKeyword? ['t', 'o', 'o', 'l'])
  if isOneLine s.text then some s.text else none

/-- The effect that clears what is named. -/
def clearEffect? (s : Span) : Option Effect := do
  let s ← s.afterKeyword? ['c', 'l', 'e', 'a', 'r']
  if s.text = ['c', 'o', 'n', 't', 'e', 'x', 't'] then some .clearContext
  else if s.text = ['t', 'o', 'o', 'l'] ∨ s.text = ['t', 'o', 'o', 'l', 's'] then some .clearTools
  else none

/-- The arguments of a call, between commas. -/
def readArguments (arguments : Span) : Except Fault (List Expr) :=
  if (Text.trim arguments.text).isEmpty then .ok []
  else (arguments.splitTopLevel (· = ',')).mapM readExpr

def readEffect (s : Span) : Except Fault Effect :=
  let malformed := s.fault (.malformedDirective (.ofList s.text))
  match s.afterKeyword? ['@', 'e', 'f', 'f', 'e', 'c', 't'] with
  | none => malformed
  | some action =>
    if action.text = ['r', 'u', 'n'] then .ok .run
    else match clearEffect? action with
      | some effect => .ok effect
      | none =>
        match callParts? action with
        | some (name, arguments, target) => do
          let args ← readArguments arguments
          return .call (.ofList name) args (target.map .ofList)
        | none =>
          match (toolNames? action).bind readNames? with
          | some names => .ok (.registerTools names)
          | none => malformed

/-- Reads a line that starts with an at sign. -/
def readDirective (s : Span) : Except Fault Node :=
  let name := (s.drop 1).word
  if name = ['s', 't', 'a', 't', 'e'] then
    match stateParts? s with
    | some (name, value) => do return .stateAssign (.ofList name) (← readExpr value)
    | none => s.fault (.malformedDirective (.ofList s.text))
  else if name = ['e', 'f', 'f', 'e', 'c', 't'] then do
    return .effect (← readEffect s)
  else s.fault (.unknownDirective (.ofList name))

/-- Whether a character may stand in the name of a module. -/
def isModuleChar (c : Char) : Bool :=
  Text.isWordChar c || c = '.'

/-- The module and the names of `from module import names`, the names not yet split. -/
def fromParts? (s : Span) : Option (List Char × List Char) := do
  let s ← s.afterKeyword? ['f', 'r', 'o', 'm']
  let source := s.text.takeWhile isModuleChar
  let s := s.drop source.length
  if source.isEmpty ∨ !s.text.head?.any Text.isBlank then none
  else
    let s ← s.trimStart.afterKeyword? ['i', 'm', 'p', 'o', 'r', 't']
    if isOneLine s.text then some (source, s.text) else none

def importSource? (s : Span) : Option (List Char) := do
  let s ← s.afterKeyword? ['i', 'm', 'p', 'o', 'r', 't']
  if !s.text.isEmpty ∧ s.text.all isModuleChar then some s.text else none

/-- Reads an import. A line that only resembles one is none. -/
def readImport (s : Span) : Except Fault (Option Node) :=
  match fromParts? s with
  | some (source, names) =>
    match readNames? names with
    | some names => .ok (some (.functionImport names (.ofList source)))
    | none => s.fault (.malformedDirective (.ofList s.text))
  | none =>
    .ok do
      let source ← importSource? s
      let name ← (Text.pieces (· = '.') source).getLast?
      return .functionImport [.ofList name] (.ofList source)

end PromptScript.Source
