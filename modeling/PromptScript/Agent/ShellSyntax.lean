import PromptScript.Agent.Words

/-!
Scripts of the shell: commands with redirections, joined by pipes, by conditions or one after the
other.
-/
namespace PromptScript.Shell

inductive WordPart
  | text (s : List Char)
  /-- A variable; unless it is quoted, blanks in its value separate words. -/
  | var (name : String) (quoted : Bool)
deriving DecidableEq, Repr, Inhabited

abbrev Word := List WordPart

inductive Token
  | word (w : Word)
  /-- A redirection of a file descriptor. -/
  | redirect (descriptor : Nat) (operator : String)
  /-- `;`, a newline, `&&`, `||` or `|`. -/
  | operator (s : String)
deriving DecidableEq, Repr, Inhabited

/-- Where a file descriptor is redirected to. -/
inductive Redirect
  | input (path : Word)
  | output (descriptor : Nat) (path : Word)
  | append (descriptor : Nat) (path : Word)
  | copy (descriptor : Nat) (target : Word)
deriving DecidableEq, Repr, Inhabited

structure Command where
  words : List Word
  redirects : List Redirect
deriving DecidableEq, Repr, Inhabited

/-- When a pipeline runs, given how the one before it ended. -/
inductive Condition
  | always
  | onSuccess
  | onFailure
deriving DecidableEq, Repr, Inhabited

abbrev Script := List (Condition × List Command)

def isVarChar (c : Char) : Bool :=
  c.isAlphanum || c = '_'

/-- The variable behind a dollar sign, and how many characters name it; none for a sign that stands
for itself. -/
def variableAt : List Char → Option (String × Nat)
  | '{' :: rest =>
    let name := rest.takeWhile (· ≠ '}')
    if name.length < rest.length then some (.ofList name, name.length + 2) else none
  | c :: rest =>
    if c = '$' ∨ c = '?' ∨ c = '#' ∨ c = '@' ∨ c.isDigit then some (c.toString, 1)
    else if isVarChar c then
      let name := c :: rest.takeWhile isVarChar
      some (.ofList name, name.length)
    else none
  | [] => none

/-- The part at the start of a text behind a dollar sign, and how many characters it takes. -/
def dollar (quoted : Bool) (text : List Char) : WordPart × Nat :=
  match variableAt text with
  | some (name, taken) => (.var name quoted, taken)
  | none => (.text ['$'], 0)

/-- The parts inside double quotes and the text behind the closing one. -/
def readDouble (text : List Char) : Option (Word × List Char) :=
  match text with
  | [] => none
  | '"' :: rest => some ([.text []], rest)
  | '\\' :: c :: rest =>
    let kept := if c = '\n' then [] else if Words.isEscapable c then [c] else ['\\', c]
    (readDouble rest).map fun (parts, rest) => (.text kept :: parts, rest)
  | '$' :: rest =>
    let (part, taken) := dollar true rest
    (readDouble (rest.drop taken)).map fun (parts, rest) => (part :: parts, rest)
  | c :: rest => (readDouble rest).map fun (parts, rest) => (.text [c] :: parts, rest)
termination_by text.length
decreasing_by all_goals simp only [List.length_drop, List.length_cons]; omega

def endsWord (c : Char) : Bool :=
  c = ' ' || c = '\t' || c = '\n' || ";&|<>()".contains c

/-- The tokens of a script, of which `word` is what has been read of the current word. Nothing if a
quote is never closed. -/
def tokens (fuel : Nat) (word : Option Word) (text : List Char) : Option (List Token) :=
  let done := word.toList.map Token.word
  match fuel, text with
  | _, [] => some done
  | 0, _ => none
  | fuel + 1, '\'' :: rest =>
    let inside := rest.takeWhile (· ≠ '\'')
    if inside.length < rest.length then
      tokens fuel (word.getD [] ++ [WordPart.text inside]) (rest.drop (inside.length + 1))
    else none
  | fuel + 1, '"' :: rest =>
    match readDouble rest with
    | none => none
    | some (parts, rest) => tokens fuel (word.getD [] ++ parts) rest
  | fuel + 1, '\\' :: c :: rest =>
    tokens fuel (if c = '\n' then word else some (word.getD [] ++ [WordPart.text [c]])) rest
  | fuel + 1, '$' :: rest =>
    let (part, taken) := dollar false rest
    tokens fuel (word.getD [] ++ [part]) (rest.drop taken)
  | fuel + 1, c :: rest =>
    if c = ' ' ∨ c = '\t' then (tokens fuel none rest).map (done ++ ·)
    else if c = '#' ∧ word.isNone then tokens fuel none (rest.dropWhile (· ≠ '\n'))
    else if c = ';' ∨ c = '\n' then (tokens fuel none rest).map (done ++ .operator ";" :: ·)
    else if c = '&' ∨ c = '|' then
      if rest.head? = some c then
        (tokens fuel none (rest.drop 1)).map (done ++ .operator (.ofList [c, c]) :: ·)
      else (tokens fuel none rest).map (done ++ .operator c.toString :: ·)
    else if c = '<' ∨ c = '>' then
      -- A digit right before the operator names a descriptor and is no word.
      let descriptor? : Option Nat := match word with
        | some [.text [d]] => if d.isDigit then some (d.toNat - '0'.toNat) else none
        | _ => none
      let before := if descriptor?.isSome then [] else done
      let second := (rest.head?.filter fun d => d = '>' || d = '&').toList
      (tokens fuel none (rest.drop second.length)).map
        (before ++ .redirect (descriptor?.getD (if c = '<' then 0 else 1))
          (.ofList (c :: second)) :: ·)
    else tokens fuel (word.getD [] ++ [WordPart.text [c]]) rest

/-- A command at the start of some tokens, and what follows it. -/
def readCommand : List Token → Option (Command × List Token)
  | .word w :: rest => do
    let (command, rest) ← readCommand rest
    return ({ command with words := w :: command.words }, rest)
  | .redirect descriptor operator :: .word w :: rest => do
    let (command, rest) ← readCommand rest
    let redirect ← match operator with
      | "<" => some (.input w)
      | ">" => some (.output descriptor w)
      | ">>" => some (.append descriptor w)
      | ">&" => some (.copy descriptor w)
      | _ => none
    return ({ command with redirects := redirect :: command.redirects }, rest)
  | .redirect .. :: _ => none
  | rest => some (⟨[], []⟩, rest)

/-- The pipelines that some tokens spell; `before` holds the commands of the current one. -/
def readPipelines (fuel : Nat) (condition : Condition) (before : List Command)
    (input : List Token) : Option Script := do
  let (command, rest) ← readCommand input
  let pipeline := if command.words.isEmpty && command.redirects.isEmpty then before
    else before ++ [command]
  let done := if pipeline.isEmpty then [] else [(condition, pipeline)]
  match fuel, rest with
  | _, [] => return done
  | fuel + 1, .operator "|" :: rest => readPipelines fuel condition pipeline rest
  | fuel + 1, .operator "&&" :: rest => return done ++ (← readPipelines fuel .onSuccess [] rest)
  | fuel + 1, .operator "||" :: rest => return done ++ (← readPipelines fuel .onFailure [] rest)
  | fuel + 1, .operator ";" :: rest => return done ++ (← readPipelines fuel .always [] rest)
  | _, _ => none

def parse? (text : String) : Option Script := do
  let tokens ← tokens (text.length + 1) none text.toList
  readPipelines (tokens.length + 1) .always [] tokens

end PromptScript.Shell
