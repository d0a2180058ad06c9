import PromptScript.Text.InvisibleTable

/-!
Strings for people: what could not be seen on a screen is written as an escape.
-/
namespace PromptScript.Text

def isVisible (c : Char) : Bool :=
  !invisible.any fun (first, last) => first ≤ c.toNat && c.toNat ≤ last

/-- A character inside a string for people. -/
def escapedChar (c : Char) : List Char :=
  if c = '"' then ['\\', '"']
  else if c = '\\' then ['\\', '\\']
  else if c = '\n' then ['\\', 'n']
  else if c = '\r' then ['\\', 'r']
  else if c = '\t' then ['\\', 't']
  else if c = '\x00' then ['\\', '0']
  else if isVisible c then [c]
  else ['\\', 'u', '{'] ++ Nat.toDigits 16 c.toNat ++ ['}']

/-- A string for people, in double quotes. -/
def escaped (s : String) : String :=
  .ofList ('"' :: s.toList.flatMap escapedChar ++ ['"'])

end PromptScript.Text
