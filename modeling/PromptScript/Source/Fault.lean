import PromptScript.Text.Trim

/-!
What can be wrong with the source of a template, and where. While a source is read, faults carry the
offset of a character; a finished error carries its line and column.
-/
namespace PromptScript

inductive ExprFlaw
  | missing
  | unexpectedEnd
  | unclosedParenthesis
  | unclosedRange
  | rangeArity
  | unterminatedString
  | unclosedBracket (bracket : Char)
  /-- The brackets of a list or mapping enclose something else than JSON. -/
  | notJson
  | invalidNumber (text : String)
  | unsuitableIterable
deriving DecidableEq, Repr, Inhabited

def ExprFlaw.message : ExprFlaw → String
  | .missing => "expected an expression"
  | .unexpectedEnd => "unexpected end of expression"
  | .unclosedParenthesis => "expected ')'"
  | .unclosedRange => "expected ')' after range arguments"
  | .rangeArity => "range() takes 1 to 3 arguments"
  | .unterminatedString => "unterminated string literal"
  | .unclosedBracket bracket => "unclosed '" ++ bracket.toString ++ "'"
  | .notJson => "<json>"
  | .invalidNumber text => "invalid number '" ++ text ++ "'"
  | .unsuitableIterable => "loop iterable must be a variable path or range(...)"

inductive ParseCause
  | unterminatedInterpolation
  | unterminatedText
  | unterminatedInclude
  | invalidPath (path : String)
  | missingBody (header : String)
  | unexpectedIndent
  | orphanBranch (keyword : String)
  | malformedMetadata (line : String)
  | unclosedMetadata
  | unknownDirective (name : String)
  | malformedDirective (text : String)
  | missingIncludePath
  | malformedBinding (text : String)
  | invalidExpression (flaw : ExprFlaw)
  | unexpectedToken (token : String)
deriving DecidableEq, Repr, Inhabited

def ParseCause.message : ParseCause → String
  | .unterminatedInterpolation => "unterminated interpolation '$\x7b'"
  | .unterminatedText => "unterminated text block '<<'"
  | .unterminatedInclude => "unterminated include '[['"
  | .invalidPath path => "invalid variable path '" ++ path ++ "'"
  | .missingBody header => "block opener '" ++ header ++ "' has no body"
  | .unexpectedIndent => "unexpected indentation"
  | .orphanBranch keyword => "'" ++ keyword ++ "' without a preceding 'if'"
  | .malformedMetadata line => "malformed metadata line '" ++ line ++ "'"
  | .unclosedMetadata => "metadata block opened with '---' is never closed"
  | .unknownDirective name => "unknown directive '@" ++ name ++ "'"
  | .malformedDirective text => "malformed directive: " ++ text
  | .missingIncludePath => "malformed directive: include has no path"
  | .malformedBinding text =>
    "malformed directive: include parameter '" ++ text ++ "' must be written key=value"
  | .invalidExpression flaw => "invalid expression: " ++ flaw.message
  | .unexpectedToken token => "unexpected '" ++ token ++ "'"

/-- A cause at an offset, counted in characters. -/
structure Fault where
  cause : ParseCause
  offset : Nat
deriving DecidableEq, Repr, Inhabited

/-- A cause at a line and a column, both counted from 1. -/
structure ParseError where
  cause : ParseCause
  line : Nat
  column : Nat
deriving DecidableEq, Repr, Inhabited

def ParseError.message (e : ParseError) : String :=
  e.cause.message ++ " at line " ++ toString e.line ++ ", column " ++ toString e.column

/-- The line and the column of an offset: one more than the newlines before it, and one more than
the characters since the last of them. -/
def locate (source : List Char) (offset : Nat) : Nat × Nat :=
  let before := source.take offset
  (before.count '\n' + 1, (before.reverse.takeWhile (· ≠ '\n')).length + 1)

def Fault.locate (source : List Char) (fault : Fault) : ParseError :=
  let (line, column) := PromptScript.locate source fault.offset
  ⟨fault.cause, line, column⟩

/-- A result whose fault is located in its source. -/
def located {α : Type} (source : List Char) (result : Except Fault α) : Except ParseError α :=
  result.mapError (Fault.locate source)

/-- A piece of the source and the offset at which it starts. -/
structure Span where
  start : Nat
  text : List Char
deriving DecidableEq, Repr, Inhabited

namespace Span

def finish (s : Span) : Nat :=
  s.start + s.text.length

/-- The part behind the first `n` characters. -/
def drop (s : Span) (n : Nat) : Span :=
  ⟨s.start + n, s.text.drop n⟩

def take (s : Span) (n : Nat) : Span :=
  ⟨s.start, s.text.take n⟩

/-- The part from the first character that is not blank. -/
def trimStart (s : Span) : Span :=
  s.drop (s.text.takeWhile Text.isBlank).length

/-- The part up to the last character that is not blank. -/
def trimEnd (s : Span) : Span :=
  ⟨s.start, Text.trimEnd s.text⟩

/-- A fault at the start of the span. -/
def fault {α : Type} (s : Span) (cause : ParseCause) : Except Fault α :=
  .error ⟨cause, s.start⟩

@[simp] theorem text_drop (s : Span) (n : Nat) : (s.drop n).text = s.text.drop n := rfl

@[simp] theorem text_take (s : Span) (n : Nat) : (s.take n).text = s.text.take n := rfl

@[simp] theorem start_drop (s : Span) (n : Nat) : (s.drop n).start = s.start + n := rfl

theorem length_trimStart_le (s : Span) : s.trimStart.text.length ≤ s.text.length := by
  simp [trimStart]

/-- The word of name characters at the start. -/
def word (s : Span) : List Char :=
  s.text.takeWhile Text.isNameChar

/-- A fault that shows the first run of characters that are not blank. -/
def unexpected {α : Type} (s : Span) : Except Fault α :=
  s.fault (.unexpectedToken (.ofList ((Text.words s.text).headD [])))

end Span

end PromptScript
