import PromptScript.Value.Reader
import PromptScript.Yaml.Token

/-!
Scalars: plain ones, quoted ones and those in lines of their own. Each reader gives the text of a
scalar and what follows it.
-/
namespace PromptScript.Yaml

/-- The number that digits of a base spell; none if there is no digit, or a character that is not
one. -/
def digits? (base : Nat) (digits : List Char) : Option Nat :=
  if digits.isEmpty then none
  else digits.foldlM (fun n c => do
    let d ← Value.hexValue? c
    if d < base then some (n * base + d) else none) 0

/-- The character of an escape in double quotes, and how many characters spell it behind the
backslash. -/
def escape? : List Char → Option (Char × Nat)
  | [] => none
  | c :: rest =>
    match c with
    | '0' => some ('\x00', 1)
    | 'a' => some ('\x07', 1)
    | 'b' => some ('\x08', 1)
    | 't' | '\t' => some ('\t', 1)
    | 'n' => some ('\n', 1)
    | 'v' => some ('\x0b', 1)
    | 'f' => some ('\x0c', 1)
    | 'r' => some ('\r', 1)
    | 'e' => some ('\x1b', 1)
    | ' ' => some (' ', 1)
    | '"' => some ('"', 1)
    | '/' => some ('/', 1)
    | '\\' => some ('\\', 1)
    | 'N' => some ('\u0085', 1)
    | '_' => some ('\u00a0', 1)
    | 'L' => some ('\u2028', 1)
    | 'P' => some ('\u2029', 1)
    | 'x' => code 2 rest
    | 'u' => code 4 rest
    | 'U' => code 8 rest
    | _ => none
where
  /-- The character whose code has `n` hexadecimal digits. -/
  code (n : Nat) (rest : List Char) : Option (Char × Nat) := do
    let digits := rest.take n
    if digits.length < n then none
    else
      let value ← digits? 16 digits
      if value.isValidChar then some (Char.ofNat value, n + 1) else none

/-- The most characters that an escape takes behind the backslash. -/
def longestEscape : Nat := 9

/-- The text of a scalar in double quotes, behind the opening one. A line break behind a backslash
does not count, but those that follow it do. -/
def readDouble (text : Rest) : Option (List Char × Rest) :=
  if atMark text then none
  else
    match text with
    | [] => none
    | spot :: rest =>
      if spot.char = '"' then some ([], rest)
      else if spot.char = '\\' ∧ nextIs rest isBreak then
        let gap := (rest.drop 1).takeWhile fun spot => isGap spot.char
        (readDouble ((rest.drop 1).drop gap.length)).map fun (content, rest) =>
          ((chars gap).filter isBreak ++ content, rest)
      else if spot.char = '\\' then
        match escape? (chars (rest.take longestEscape)) with
        | none => none
        | some (c, taken) =>
          (readDouble (rest.drop taken)).map fun (content, rest) => (c :: content, rest)
      else if isGap spot.char then
        let gap := rest.takeWhile fun spot => isGap spot.char
        (readDouble (rest.drop gap.length)).map fun (content, rest) =>
          (folded (spot.char :: chars gap) ++ content, rest)
      else (readDouble rest).map fun (content, rest) => (spot.char :: content, rest)
termination_by text.length
decreasing_by all_goals simp only [List.length_drop, List.length_cons]; omega

/-- The text of a scalar in single quotes, behind the opening one. A quote is written twice. -/
def readSingle (text : Rest) : Option (List Char × Rest) :=
  if atMark text then none
  else
    match text with
    | [] => none
    | spot :: rest =>
      if spot.char = '\'' then
        if nextIs rest (· = '\'') then
          (readSingle (rest.drop 1)).map fun (content, rest) => ('\'' :: content, rest)
        else some ([], rest)
      else if isGap spot.char then
        let gap := rest.takeWhile fun spot => isGap spot.char
        (readSingle (rest.drop gap.length)).map fun (content, rest) =>
          (folded (spot.char :: chars gap) ++ content, rest)
      else (readSingle rest).map fun (content, rest) => (spot.char :: content, rest)
termination_by text.length
decreasing_by all_goals simp only [List.length_drop, List.length_cons]; omega

/-! ### Plain scalars -/

/-- The characters with a meaning inside brackets. -/
def isFlowMark (c : Char) : Bool :=
  ",[]\x7b\x7d".contains c

/-- The characters up to the end of a word. A colon ends it before a gap; inside brackets it must
not stand before one of their marks. -/
def readWord (inFlow : Bool) : Rest → Option (List Char × Rest)
  | [] => some ([], [])
  | spot :: rest =>
    if isGap spot.char then some ([], spot :: rest)
    else if inFlow ∧ spot.char = ':' ∧ nextIs rest (fun c => isFlowMark c || c = '?') then none
    else if (spot.char = ':' ∧ atGap rest) ∨ (inFlow ∧ isFlowMark spot.char) then
      some ([], spot :: rest)
    else (readWord inFlow rest).map fun (word, rest) => (spot.char :: word, rest)

/-- Whether a tab stands where the indentation of a line should be, behind a line break. -/
def hasTabIndent (floor : Nat) (gap : Rest) : Bool :=
  (gap.dropWhile fun spot => !isBreak spot.char).any fun spot =>
    spot.char = '\t' ∧ spot.column < floor

/-- The text of a plain scalar, whether there is a line break between it and what follows, and what
follows. Outside brackets its lines are indented by at least `floor`. `before` is the gap before the
text, of which the scalar gets nothing if it ends here. -/
def readPlain (inFlow : Bool) (floor : Nat) (before : List Char) (text : Rest) :
    Option (List Char × Bool × Rest) :=
  let ended := some ([], before.any isBreak, text)
  if atMark text || nextIs text (· = '#') then ended
  else
    match readWord inFlow text with
    | none => none
    | some ([], _) => ended
    | some (word, rest) =>
      let gap := rest.takeWhile fun spot => isGap spot.char
      let next := rest.drop gap.length
      if hasTabIndent floor gap then none
      else if gap.isEmpty ∨ next.isEmpty ∨ (!inFlow ∧ next.head?.any (·.column < floor)) then
        some (folded before ++ word, gap.any fun spot => isBreak spot.char, next)
      else if _ : next.length < text.length then
        (readPlain inFlow floor (chars gap) next).map fun (content, broken, rest) =>
          (folded before ++ word ++ content, broken, rest)
      else none
termination_by text.length
decreasing_by assumption

/-! ### Scalars in lines of their own -/

/-- How the line breaks at the end of such a scalar are kept. -/
inductive Chomping
  | strip
  | clip
  | keep
deriving DecidableEq, Repr, Inhabited

/-- What is said behind the mark that starts such a scalar. -/
structure BlockHeader where
  chomping : Chomping
  /-- The indentation, from that of the enclosing block. -/
  indent : Option Nat
deriving DecidableEq, Repr, Inhabited

namespace BlockHeader

def readChomping (text : Rest) : Option Chomping × Rest :=
  if nextIs text (· = '+') then (some .keep, text.drop 1)
  else if nextIs text (· = '-') then (some .strip, text.drop 1)
  else (none, text)

/-- A digit that is not zero, if there is a digit. -/
def readIndent : Rest → Option (Option Nat × Rest)
  | [] => some (none, [])
  | spot :: rest =>
    if spot.char = '0' then none
    else if spot.char.isDigit then some (some (spot.char.toNat - '0'.toNat), rest)
    else some (none, spot :: rest)

/-- A header and the lines that follow it. Its two parts may come in either order. -/
def read (text : Rest) : Option (BlockHeader × Rest) := do
  let (first, rest) := readChomping text
  let (indent, rest) ← readIndent rest
  let (second, rest) := if first.isSome then (none, rest) else readChomping rest
  return (⟨(first.or second).getD .clip, indent⟩, ← endLine? rest)

end BlockHeader

/-- Skips empty lines and the indentation of the line behind them, which is at most `indent` if that
is known. Gives the line breaks, the widest indentation and what follows. -/
def skipIndent (indent : Option Nat) : (widest : Nat) → Rest → Option (List Char × Nat × Rest)
  | widest, [] => some ([], widest, [])
  | widest, spot :: rest =>
    let below := indent.all (spot.column < ·)
    if spot.char = ' ' ∧ below then skipIndent indent widest rest
    else if spot.char = '\t' ∧ below then none
    else if isBreak spot.char then
      (skipIndent indent (max widest spot.column) rest).map fun (breaks, widest, rest) =>
        (spot.char :: breaks, widest, rest)
    else some ([], max widest spot.column, spot :: rest)

/-- Lines that were read, of which the line breaks at the end are still to be counted. -/
structure BlockLines where
  content : List Char
  /-- The line break behind the last line, and those of the empty lines behind it. -/
  last : List Char
  empties : List Char
  rest : Rest

/-- The lines of a scalar that are indented by `indent`. Before them there is a line that ends in
the break `last`, if it is not empty, and then the breaks of empty lines; `isBlankLine` tells
whether that line began with a blank. -/
def readBlockLines (isFolded : Bool) (indent : Nat) (isBlankLine : Bool)
    (last empties : List Char) (text : Rest) : Option BlockLines :=
  match text with
  | [] => some ⟨[], last, empties, []⟩
  | spot :: others =>
    if spot.column ≠ indent then some ⟨[], last, empties, spot :: others⟩
    else
      let startsBlank := isSpace spot.char
      let gap :=
        if isFolded ∧ last = ['\n'] ∧ !isBlankLine ∧ !startsBlank then folded (last ++ empties)
        else last ++ empties
      let (line, behind) := span (spot :: others) fun c => !isBreak c
      match skipIndent (some indent) 0 (behind.drop 1) with
      | none => none
      | some (empties, _, rest) =>
        if _ : rest.length < (spot :: others).length then
          (readBlockLines isFolded indent startsBlank (chars (behind.take 1)) empties rest).map
            fun lines => { lines with content := gap ++ line ++ lines.content }
        else none
termination_by text.length
decreasing_by assumption

/-- The text of a scalar in lines of its own, behind the mark that starts it. Its lines are indented
by at least `floor`, which is one more than the indentation of the enclosing block, if there is
one. -/
def readBlockScalar (isFolded : Bool) (floor : Nat) (text : Rest) : Option (List Char × Rest) := do
  let (header, rest) ← BlockHeader.read text
  let given := header.indent.map (floor - 1 + ·)
  let (empties, widest, rest) ← skipIndent given 0 rest
  let indent := given.getD (max (max widest floor) 1)
  let lines ← readBlockLines isFolded indent false [] empties rest
  let tail := match header.chomping with
    | .strip => []
    | .clip => lines.last
    | .keep => lines.last ++ lines.empties
  return (lines.content ++ tail, lines.rest)

end PromptScript.Yaml
