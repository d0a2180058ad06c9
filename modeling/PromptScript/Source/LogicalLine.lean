import PromptScript.Source.Fault

/-!
Logical lines: physical lines, of which one runs on over a newline while a text block is open. Blank
lines and comment lines are left out.
-/
namespace PromptScript.Source

/-- A line with the width of its indentation and, without blanks at its end, what follows that. -/
structure LogicalLine where
  indent : Nat
  span : Span
deriving DecidableEq, Repr, Inhabited

/-- How many columns indentation takes: a tab counts for four blanks. -/
def indentWidth : List Char → Nat
  | [] => 0
  | c :: rest => (if c = '\t' then 4 else 1) + indentWidth rest

def isIndent (c : Char) : Bool :=
  c = ' ' || c = '\t'

/-- What surrounds a character of a line. -/
inductive Mode
  | code
  | quoted (quote : Char)
  /-- A text block whose opening mark is at an offset. -/
  | text (opening : Nat)
deriving DecidableEq, Repr

/-- How many characters of a text, which starts at an offset, come before the end of its first
logical line. A newline ends the line except inside a text block and behind a backslash in a quoted
string. -/
def lineLength (mode : Mode) (offset : Nat) : List Char → Except Fault Nat
  | [] =>
    match mode with
    | .text opening => .error ⟨.unterminatedText, opening⟩
    | _ => .ok 0
  | c :: rest =>
    match mode with
    | .code =>
      if c = '\n' then .ok 0
      else if c = '"' || c = '\'' then (lineLength (.quoted c) (offset + 1) rest).map (· + 1)
      else match c, rest with
        | '<', '<' :: rest => (lineLength (.text offset) (offset + 2) rest).map (· + 2)
        | _, rest => (lineLength .code (offset + 1) rest).map (· + 1)
    | .quoted quote =>
      if c = '\n' then .ok 0
      else match c, rest with
        | '\\', _ :: rest => (lineLength (.quoted quote) (offset + 2) rest).map (· + 2)
        | c, rest =>
          let mode := if c = quote then .code else .quoted quote
          (lineLength mode (offset + 1) rest).map (· + 1)
    | .text opening =>
      match c, rest with
      | '>', '>' :: rest => (lineLength .code (offset + 2) rest).map (· + 2)
      | _, rest => (lineLength (.text opening) (offset + 1) rest).map (· + 1)

theorem lineLength_quoted {c : Char} (noNewline : c ≠ '\n') (noBackslash : c ≠ '\\')
    (quote : Char) (offset : Nat) (rest : List Char) :
    lineLength (.quoted quote) offset (c :: rest) =
      (lineLength (if c = quote then .code else .quoted quote) (offset + 1) rest).map (· + 1) := by
  rw [lineLength]
  · rw [if_neg noNewline]
  · intro _ _ same
    exact absurd same noBackslash

/-- Whether a line, after its indentation, is blank or a comment. -/
def isSilent (line : List Char) : Bool :=
  (Text.trimEnd line).isEmpty || ['/', '/'].isPrefixOf line

def logicalLines (s : Span) : Except Fault (List LogicalLine) :=
  if s.text.isEmpty then .ok []
  else
    let indentation := s.text.takeWhile isIndent
    let body := s.drop indentation.length
    let physical := body.text.takeWhile (· ≠ '\n')
    -- Whether a line is silent is settled before a text block can open in it.
    if isSilent physical then logicalLines (body.drop (physical.length + 1))
    else do
      let length ← lineLength .code body.start body.text
      let more ← logicalLines (body.drop (length + 1))
      return ⟨indentWidth indentation, (body.take length).trimEnd⟩ :: more
termination_by s.text.length
decreasing_by
  all_goals
    rename_i nonempty _
    have : 0 < s.text.length := by
      rw [List.length_pos_iff]
      simpa using nonempty
    simp only [Span.text_drop, List.length_drop]
    omega

/-- A logical line with the lines below it that are indented further. -/
inductive Layout
  | node (line : LogicalLine) (inner : List Layout)
deriving Repr, Inhabited

/-- Groups lines by indentation: a line is followed by the lines inside it. -/
def Layout.ofLines : List LogicalLine → List Layout
  | [] => []
  | line :: rest =>
    .node line (ofLines (rest.takeWhile fun other => line.indent < other.indent))
      :: ofLines (rest.dropWhile fun other => line.indent < other.indent)
termination_by lines => lines.length
decreasing_by
  · have := (List.takeWhile_sublist (l := rest) fun other => line.indent < other.indent).length_le
    simp only [List.length_cons]
    omega
  · have := (List.dropWhile_sublist (l := rest) fun other => line.indent < other.indent).length_le
    simp only [List.length_cons]
    omega

end PromptScript.Source
