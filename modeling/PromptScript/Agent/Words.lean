/-!
The words of a command line, with the quoting of a shell: single quotes keep everything, double
quotes keep all but some escapes, and a backslash keeps the character behind it.
-/
namespace PromptScript.Words

/-- Where the next character stands, with the text of the word so far. -/
inductive Mode
  | between
  | comment
  /-- Behind a backslash that does not follow a word. -/
  | escape
  | word (text : List Char)
  | wordEscape (text : List Char)
  | single (text : List Char)
  | double (text : List Char)
  | doubleEscape (text : List Char)
deriving DecidableEq, Repr, Inhabited

def isSeparator (c : Char) : Bool :=
  c = ' ' || c = '\t' || c = '\n'

/-- The characters that a backslash inside double quotes keeps. -/
def isEscapable (c : Char) : Bool :=
  c = '$' || c = '\x60' || c = '"' || c = '\\'

/-- What a character does: the word that it finishes, and where the next character stands. -/
def Mode.step (mode : Mode) (c : Char) : Option (List Char) × Mode :=
  match mode with
  | .between =>
    if c = '\'' then (none, .single [])
    else if c = '"' then (none, .double [])
    else if c = '\\' then (none, .escape)
    else if isSeparator c then (none, .between)
    else if c = '#' then (none, .comment)
    else (none, .word [c])
  | .comment => (none, if c = '\n' then .between else .comment)
  | .escape => (none, if c = '\n' then .between else .word [c])
  | .word text =>
    if c = '\'' then (none, .single text)
    else if c = '"' then (none, .double text)
    else if c = '\\' then (none, .wordEscape text)
    else if isSeparator c then (some text, .between)
    else (none, .word (text ++ [c]))
  | .wordEscape text => (none, .word (if c = '\n' then text else text ++ [c]))
  | .single text => (none, if c = '\'' then .word text else .single (text ++ [c]))
  | .double text =>
    if c = '"' then (none, .word text)
    else if c = '\\' then (none, .doubleEscape text)
    else (none, .double (text ++ [c]))
  | .doubleEscape text =>
    (none, .double (
      if c = '\n' then text
      else if isEscapable c then text ++ [c]
      else text ++ ['\\', c]))

/-- The word that the end of the line finishes; nothing if a quote is open. -/
def Mode.finish : Mode → Option (List (List Char))
  | .between | .comment => some []
  | .escape => some [['\\']]
  | .word text => some [text]
  | .wordEscape text => some [text ++ ['\\']]
  | .single _ | .double _ | .doubleEscape _ => none

/-- The words of the rest of a line. -/
def splitFrom : Mode → List Char → Option (List (List Char))
  | mode, [] => mode.finish
  | mode, c :: rest =>
    let (done, next) := mode.step c
    (splitFrom next rest).map (done.toList ++ ·)

/-- The words of a line, unless a quote is never closed. -/
def split? (line : String) : Option (List String) :=
  (splitFrom .between line.toList).map (·.map .ofList)

end PromptScript.Words
