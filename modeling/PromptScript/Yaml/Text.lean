import PromptScript.Text.Trim

/-!
The text of a document: its characters with their places. Indentation and the limits of keys are
statements about lines and columns, so each character carries its own.
-/
namespace PromptScript.Yaml

/-- The characters that a document may hold. -/
def isAllowed (c : Char) : Bool :=
  c = '\t' || c = '\n' || c = '\r' || (' ' ≤ c && c ≤ '~') || c = '\u0085'
    || (0xA0 ≤ c.toNat && c.toNat ≠ 0xFFFE && c.toNat ≠ 0xFFFF)

/-- The line breaks of a text whose breaks are unified. -/
def isBreak (c : Char) : Bool :=
  c = '\n' || c = '\u2028' || c = '\u2029'

def isSpace (c : Char) : Bool :=
  c = ' ' || c = '\t'

def isGap (c : Char) : Bool :=
  isSpace c || isBreak c

/-- A text in which every line break other than the line and paragraph separators is a newline
character. -/
def unifyBreaks : List Char → List Char
  | [] => []
  | '\r' :: '\n' :: rest => '\n' :: unifyBreaks rest
  | c :: rest => (if c = '\r' ∨ c = '\u0085' then '\n' else c) :: unifyBreaks rest

/-- A character with its place; lines and columns are counted from zero. -/
structure Spot where
  char : Char
  line : Nat
  column : Nat
deriving DecidableEq, Repr, Inhabited

/-- Text that is still to be read. -/
abbrev Rest := List Spot

/-- The characters of a text with their places, the first of which is given. -/
def locate (line column : Nat) : List Char → Rest
  | [] => []
  | c :: rest =>
    ⟨c, line, column⟩
      :: (if isBreak c then locate (line + 1) 0 rest else locate line (column + 1) rest)

def spots (text : List Char) : Rest :=
  locate 0 0 (unifyBreaks text)

def chars (rest : Rest) : List Char :=
  rest.map Spot.char

/-- Whether the next character satisfies a condition. -/
def nextIs (rest : Rest) (p : Char → Bool) : Bool :=
  rest.head?.any fun spot => p spot.char

def atGap (rest : Rest) : Bool :=
  rest.isEmpty || nextIs rest isGap

def atLineEnd (rest : Rest) : Bool :=
  rest.isEmpty || nextIs rest isBreak

/-- The characters up to one that does not satisfy a condition, and what follows them. -/
def span (rest : Rest) (p : Char → Bool) : List Char × Rest :=
  (chars (rest.takeWhile fun spot => p spot.char), rest.dropWhile fun spot => p spot.char)

/-- Whether three equal characters stand here at the start of a line, as a word of their own. -/
def isMark (rest : Rest) (c : Char) : Bool :=
  rest.head?.any (·.column = 0) && chars (rest.take 3) = [c, c, c] && atGap (rest.drop 3)

/-- Whether a mark between documents stands here. -/
def atMark (rest : Rest) : Bool :=
  isMark rest '-' || isMark rest '.'

/-- The text behind blanks and a comment, if the line ends there. -/
def endLine? (rest : Rest) : Option Rest :=
  let rest := rest.dropWhile fun spot => isSpace spot.char
  let rest := if nextIs rest (· = '#') then rest.dropWhile fun spot => !isBreak spot.char else rest
  if atLineEnd rest then some (rest.drop 1) else none

/-- Skips what may stand before a token: spaces, comments and line breaks, tabs where they cannot be
taken for indentation, and a byte order mark at the start of a line. Outside brackets the start of a
line allows a key; the answer tells whether a key is allowed. -/
def skipGap (inFlow : Bool) : (inComment keyAllowed : Bool) → Rest → Bool × Rest
  | _, keyAllowed, [] => (keyAllowed, [])
  | inComment, keyAllowed, spot :: rest =>
    if isBreak spot.char then skipGap inFlow false (keyAllowed || !inFlow) rest
    else if inComment ∨ spot.char = '#' then skipGap inFlow true keyAllowed rest
    else if spot.char = ' ' ∨ (spot.char = '\t' ∧ (inFlow ∨ !keyAllowed))
        ∨ (spot.char = '\ufeff' ∧ spot.column = 0) then
      skipGap inFlow false keyAllowed rest
    else (keyAllowed, spot :: rest)

/-- What blanks and line breaks between two words of a scalar become: a lone line break is a space,
of several ones the first does not count, and blanks beside a break do not count at all. -/
def folded (gap : List Char) : List Char :=
  match gap.filter isBreak with
  | [] => gap
  | ['\n'] => [' ']
  | '\n' :: more => more
  | breaks => breaks

end PromptScript.Yaml
