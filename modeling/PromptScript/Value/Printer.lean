import PromptScript.Value.Basic

/-!
Values as JSON text: compactly on one line, or one item a line with two spaces for each level.
-/
namespace PromptScript.Value

/-- A digit of a four-digit hexadecimal escape, in lower case. -/
def hexDigit (n : Nat) : Char :=
  (Nat.toDigits 16 (n % 16)).headD '0'

/-- How a character stands inside a quoted string. -/
def escape (c : Char) : List Char :=
  if c = '"' then ['\\', '"']
  else if c = '\\' then ['\\', '\\']
  else if c = '\x08' then ['\\', 'b']
  else if c = '\x0c' then ['\\', 'f']
  else if c = '\n' then ['\\', 'n']
  else if c = '\r' then ['\\', 'r']
  else if c = '\t' then ['\\', 't']
  else if c.toNat < 0x20 then ['\\', 'u', '0', '0', hexDigit (c.toNat / 16), hexDigit c.toNat]
  else [c]

def quote (s : String) : List Char :=
  '"' :: s.toList.flatMap escape ++ ['"']

/-- The text of a value without items. -/
def scalarText : Value → List Char
  | .bool true => ['t', 'r', 'u', 'e']
  | .bool false => ['f', 'a', 'l', 's', 'e']
  | .num n => n.text.toList
  | .str s => quote s
  | _ => ['n', 'u', 'l', 'l']

mutual

/-- A value on one line, without blanks. -/
def compact : Value → List Char
  | .list items => '[' :: compactItems items ++ [']']
  | .map entries => '{' :: compactEntries entries ++ ['}']
  | value => scalarText value

def compactItems : List Value → List Char
  | [] => []
  | [value] => compact value
  | value :: rest => compact value ++ ',' :: compactItems rest

def compactEntries : List (String × Value) → List Char
  | [] => []
  | [(key, value)] => quote key ++ ':' :: compact value
  | (key, value) :: rest => quote key ++ ':' :: compact value ++ ',' :: compactEntries rest

end

/-- The start of a line at a level of nesting. -/
def newline (level : Nat) : List Char :=
  '\n' :: List.replicate (2 * level) ' '

mutual

/-- A value over several lines, inside `level` enclosing lists and mappings. -/
def pretty (level : Nat) : Value → List Char
  | .list [] => ['[', ']']
  | .list items => '[' :: prettyItems (level + 1) items ++ newline level ++ [']']
  | .map [] => ['{', '}']
  | .map entries => '{' :: prettyEntries (level + 1) entries ++ newline level ++ ['}']
  | value => scalarText value

def prettyItems (level : Nat) : List Value → List Char
  | [] => []
  | [value] => newline level ++ pretty level value
  | value :: rest => newline level ++ pretty level value ++ ',' :: prettyItems level rest

def prettyEntries (level : Nat) : List (String × Value) → List Char
  | [] => []
  | [(key, value)] => newline level ++ quote key ++ [':', ' '] ++ pretty level value
  | (key, value) :: rest =>
    newline level ++ quote key ++ [':', ' '] ++ pretty level value
      ++ ',' :: prettyEntries level rest

end

def toText (value : Value) : String := .ofList value.compact

/-- The text of a value over several lines. -/
def toPrettyText (value : Value) : String := .ofList (value.pretty 0)

end PromptScript.Value
