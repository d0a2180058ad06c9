import PromptScript.Source.Fault
import PromptScript.Template.Node

/-!
Text blocks: what stands between `<<` and `>>`, freed of the indentation of the source and split at
its interpolations.
-/
namespace PromptScript.Source

/-- A character and the offset it comes from. -/
abbrev LocatedChar := Nat × Char

/-- The characters of a text that starts at an offset. A carriage return in front of a newline is
left out. -/
def locateChars (offset : Nat) : List Char → List LocatedChar
  | [] => []
  | c :: rest =>
    if c = '\r' ∧ rest.head? = some '\n' then locateChars (offset + 1) rest
    else (offset, c) :: locateChars (offset + 1) rest

/-- The lines of a text, each with its newline; the last one has none. -/
def blockLines : List LocatedChar → List (List LocatedChar)
  | [] => [[]]
  | c :: rest =>
    if c.2 = '\n' then [c] :: blockLines rest
    else match blockLines rest with
      | [] => [[c]]
      | first :: more => (c :: first) :: more

/-- The line without leading spaces and tabs that take at most `width` columns together. -/
def dedent (width : Nat) : List LocatedChar → List LocatedChar
  | [] => []
  | c :: rest =>
    if c.2 = ' ' ∧ 1 ≤ width then dedent (width - 1) rest
    else if c.2 = '\t' ∧ 4 ≤ width then dedent (width - 4) rest
    else c :: rest

def isSpaceOrTab (c : LocatedChar) : Bool :=
  c.2 = ' ' || c.2 = '\t'

/-- The lines without a last one that holds only spaces and tabs. -/
def dropClosingLine (lines : List (List LocatedChar)) : List (List LocatedChar) :=
  if 1 < lines.length ∧ (lines.getLast?.any fun line => line.all isSpaceOrTab) then lines.dropLast
  else lines

/-- The content of a block. A newline behind the opening mark, and blanks before the closing mark on
a line of its own, do not belong to it; lines that start in the block lose their indentation. -/
def normalize (indent : Nat) (content : Span) : List LocatedChar :=
  match blockLines (locateChars content.start content.text) with
  -- A first line of one character is just the newline behind the opening mark.
  | [_] :: second :: rest => (dropClosingLine (second :: rest)).flatMap (dedent indent)
  -- Otherwise the first line stands behind the mark and has no indentation to lose.
  | lines =>
    match dropClosingLine lines with
    | first :: rest => first ++ rest.flatMap (dedent indent)
    | [] => []

/-- The node of a pending text, unless it is empty. -/
def flush (pending : List Char) : List Node :=
  if pending.isEmpty then [] else [.text (.ofList pending.reverse)]

/-- Whether a character may stand in an interpolation. -/
def isInterpolated (c : LocatedChar) : Bool :=
  c.2 ≠ '\n' && c.2 ≠ '\x7d'

/-- Splits a text at its interpolations; `pending` is the text read since the last one, in reverse.
A doubled dollar in front of a brace stands for a plain one. -/
def interpolate (pending : List Char) : List LocatedChar → Except Fault (List Node)
  | [] => .ok (flush pending)
  | (offset, c) :: rest =>
    if c = '$' then
      match rest with
      | (_, '$') :: (_, '\x7b') :: rest => interpolate ('\x7b' :: '$' :: pending) rest
      | (_, '\x7b') :: rest =>
        let name := Text.trim ((rest.takeWhile isInterpolated).map (·.2))
        if (rest.dropWhile isInterpolated).head?.any (·.2 = '\x7d') then
          match VarPath.ofText? name with
          | none => .error ⟨.invalidPath (.ofList name), offset⟩
          | some path => do
            let more ← interpolate [] ((rest.dropWhile isInterpolated).drop 1)
            return flush pending ++ .interpolation path :: more
        else .error ⟨.unterminatedInterpolation, offset⟩
      | rest => interpolate ('$' :: pending) rest
    else interpolate (c :: pending) rest
termination_by text => text.length
decreasing_by
  · simp only [List.length_cons]; omega
  · have := (List.dropWhile_sublist (l := rest) isInterpolated).length_le
    simp only [List.length_cons, List.length_drop]
    omega
  · simp only [List.length_cons]; omega
  · simp only [List.length_cons]; omega

/-- Ends a block that stands as a statement with a newline, if it is not empty. -/
def finishLine (finish : Nat) (chars : List LocatedChar) : List LocatedChar :=
  match chars.getLast? with
  | some (_, '\n') | none => chars
  | some _ => chars ++ [(finish, '\n')]

/-- The node of a block with the given content, unless nothing is left of that. Blocks on a line of
their own, unlike inline ones, end with a newline. -/
def readTextBlock (indent : Nat) (isInline : Bool) (content : Span) :
    Except Fault (Option Node) :=
  let chars := normalize indent content
  let chars := if isInline then chars else finishLine content.finish chars
  if chars.isEmpty then .ok none
  else (interpolate [] chars).map fun nodes => some (.block nodes)

end PromptScript.Source
