import PromptScript.Source.Fault

/-!
Searches through one line that step over quoted strings and bracketed parts.
-/
namespace PromptScript.Source

def isQuote (c : Char) : Bool :=
  c = '"' || c = '\''

/-- How a character changes the number of open brackets. -/
def bracketStep (c : Char) : Int :=
  if c = '(' ∨ c = '[' ∨ c = '\x7b' then 1
  else if c = ')' ∨ c = ']' ∨ c = '\x7d' then -1
  else 0

/-- How many characters come before the first colon outside brackets and quotes. A backslash in a
quoted string takes the next character with it. -/
def colonIndex (depth : Int) (quote : Option Char) : List Char → Option Nat
  | [] => none
  | c :: rest =>
    match quote with
    | some q =>
      match c, rest with
      | '\\', _ :: rest => (colonIndex depth (some q) rest).map (· + 2)
      | c, rest => (colonIndex depth (if c = q then none else some q) rest).map (· + 1)
    | none =>
      if isQuote c then (colonIndex depth (some c) rest).map (· + 1)
      else if c = ':' ∧ depth = 0 then some 0
      else (colonIndex (depth + bracketStep c) none rest).map (· + 1)

theorem colonIndex_quoted {c : Char} (noBackslash : c ≠ '\\') (depth : Int) (quote : Char)
    (rest : List Char) : colonIndex depth (some quote) (c :: rest) =
      (colonIndex depth (if c = quote then none else some quote) rest).map (· + 1) := by
  rw [colonIndex]
  intro _ _ same
  exact absurd same noBackslash

/-- How many characters come before the first `]]` outside quotes. -/
def includeEnd (quote : Option Char) : List Char → Option Nat
  | [] => none
  | c :: rest =>
    match quote with
    | some q => (includeEnd (if c = q then none else some q) rest).map (· + 1)
    | none =>
      if isQuote c then (includeEnd (some c) rest).map (· + 1)
      else if c = ']' ∧ rest.head? = some ']' then some 0
      else (includeEnd none rest).map (· + 1)

/-- Puts a character in front of the first of some spans. -/
def extendFirst (offset : Nat) (c : Char) : List Span → List Span
  | first :: rest => ⟨offset, c :: first.text⟩ :: rest
  | [] => [⟨offset, [c]⟩]

/-- The parts of a text between separators that stand outside brackets and quotes. -/
def splitTopLevel (separates : Char → Bool) (depth : Int) (quote : Option Char) (offset : Nat) :
    List Char → List Span
  | [] => [⟨offset, []⟩]
  | c :: rest =>
    match quote with
    | some q =>
      extendFirst offset c
        (splitTopLevel separates depth (if c = q then none else some q) (offset + 1) rest)
    | none =>
      if isQuote c then
        extendFirst offset c (splitTopLevel separates depth (some c) (offset + 1) rest)
      else if bracketStep c = 0 ∧ depth = 0 ∧ separates c then
        ⟨offset, []⟩ :: splitTopLevel separates depth none (offset + 1) rest
      else
        extendFirst offset c
          (splitTopLevel separates (depth + bracketStep c) none (offset + 1) rest)

end PromptScript.Source

namespace PromptScript.Span

/-- The parts of a span between separators outside brackets and quotes. -/
def splitTopLevel (s : Span) (separates : Char → Bool) : List Span :=
  Source.splitTopLevel separates 0 none s.start s.text

/-- The span behind a keyword and the blanks that must follow it. -/
def afterKeyword? (s : Span) (keyword : List Char) : Option Span :=
  let behind := s.drop keyword.length
  if keyword.isPrefixOf s.text ∧ behind.text.head?.any Text.isBlank then some behind.trimStart
  else none

end PromptScript.Span
