import PromptScript.Yaml.Property

/-!
How the text of a document becomes tokens. Indentation decides where lists and mappings in lines
begin and end. A scalar turns out to be a key only when a colon follows it on its line; then the
token that says so is put before it.
-/
namespace PromptScript.Yaml

/-- What may turn out to be a key. -/
structure KeyStart where
  /-- How many tokens come before it. -/
  index : Nat
  line : Nat
  column : Nat
  /-- Whether it must be a key, being at the indentation of its block. -/
  isRequired : Bool
deriving DecidableEq, Repr, Inhabited

namespace KeyStart

/-- How many characters a key has at most. -/
def longest : Nat := 1024

/-- Whether a colon at a place is too far away to make a key of what starts here. -/
def isPast (start : KeyStart) (spot : Spot) : Bool :=
  start.line < spot.line || start.column + longest < spot.column

end KeyStart

structure Layout where
  /-- The tokens so far, the latest first, and their number. -/
  tokens : List Token
  size : Nat
  /-- The columns of the blocks that are open, the innermost first. -/
  blocks : List Nat
  /-- What may turn out to be a key in the innermost brackets, and around each pair of them. -/
  start : Option KeyStart
  outer : List (Option KeyStart)
  /-- Whether a key may start at the next token. -/
  keyAllowed : Bool
  /-- The names of anchors, each with the number of its last anchor. -/
  names : List (List Char × Nat)
deriving DecidableEq, Repr, Inhabited

namespace Layout

def empty : Layout := ⟨[], 0, [], none, [], true, []⟩

def inFlow (l : Layout) : Bool :=
  !l.outer.isEmpty

/-- How far the lines inside the innermost block are indented at least. -/
def floor (l : Layout) : Nat :=
  (l.blocks.head?.map (· + 1)).getD 0

def emit (l : Layout) (token : Token) : Layout :=
  { l with tokens := token :: l.tokens, size := l.size + 1 }

/-- Puts a token behind the first `index` ones. -/
def insert (l : Layout) (index : Nat) (token : Token) : Layout :=
  let later := l.size - index
  { l with tokens := l.tokens.take later ++ token :: l.tokens.drop later, size := l.size + 1 }

def allowKey (l : Layout) (allowed : Bool) : Layout :=
  { l with keyAllowed := allowed }

/-- Opens a block at a column that is further to the right than that of the innermost one. -/
def indent (l : Layout) (column index : Nat) (token : Token) : Layout :=
  if l.inFlow ∨ column < l.floor then l
  else { l.insert index token with blocks := column :: l.blocks }

/-- Closes the blocks that a condition on their columns tells. -/
def closeBlocks (l : Layout) (isClosed : Nat → Bool) : Layout :=
  if l.inFlow then l
  else
    let closed := l.blocks.takeWhile isClosed
    closed.foldl (fun l _ => l.emit .blockEnd) { l with blocks := l.blocks.drop closed.length }

/-- Gives up what could have been a key. -/
def dropStart (l : Layout) : Option Layout :=
  if l.start.any KeyStart.isRequired then none else some { l with start := none }

/-- What could be a key, unless it lies too far behind. -/
def freshStart (spot : Spot) : Option KeyStart → Option (Option KeyStart)
  | none => some none
  | some start =>
    if start.isPast spot then if start.isRequired then none else some none
    else some (some start)

/-- Gives up everything that could have been a key but lies too far behind. -/
def refresh (l : Layout) (spot : Spot) : Option Layout := do
  return { l with start := ← freshStart spot l.start, outer := ← l.outer.mapM (freshStart spot) }

/-- Notes that a key may start here, where one is allowed. -/
def noteStart (l : Layout) (spot : Spot) : Option Layout :=
  if l.keyAllowed then do
    let isRequired := !l.inFlow && l.blocks.head? = some spot.column
    return { ← l.dropStart with start := some ⟨l.size, spot.line, spot.column, isRequired⟩ }
  else some l

/-- A token that may start a key, and after which none starts. -/
def emitContent (l : Layout) (spot : Spot) (token : Token) : Option Layout := do
  return ((← l.noteStart spot).emit token).allowKey false

/-- A mark between documents, before which all blocks end. -/
def emitMark (l : Layout) (token : Token) : Option Layout := do
  return ((← (l.closeBlocks fun _ => true).dropStart).emit token).allowKey false

def openFlow (l : Layout) (spot : Spot) (token : Token) : Option Layout := do
  let l ← l.noteStart spot
  return ({ l with start := none, outer := l.start :: l.outer }.emit token).allowKey true

def closeFlow (l : Layout) (token : Token) : Option Layout := do
  let l ← l.dropStart
  let l := match l.outer with
    | [] => l
    | start :: outer => { l with start, outer }
  return (l.emit token).allowKey false

def emitComma (l : Layout) : Option Layout := do
  return ((← l.dropStart).emit .comma).allowKey true

/-- Opens a block at a place where one can begin. Inside brackets there are none. -/
def openBlock (l : Layout) (spot : Spot) (token : Token) : Option Layout :=
  if l.inFlow then some l
  else if l.keyAllowed then some (l.indent spot.column l.size token)
  else none

def emitDash (l : Layout) (spot : Spot) : Option Layout := do
  return ((← (← l.openBlock spot .listBlock).dropStart).emit .dash).allowKey true

def emitKey (l : Layout) (spot : Spot) : Option Layout := do
  return ((← (← l.openBlock spot .mapBlock).dropStart).emit .key).allowKey !l.inFlow

/-- The colon before a value, which makes a key of what could be one. -/
def emitValue (l : Layout) (spot : Spot) : Option Layout :=
  match l.start with
  | some start =>
    let l := (l.insert start.index .key).indent start.column start.index .mapBlock
    some (({ l with start := none }.emit .value).allowKey false)
  | none => do
    return ((← l.openBlock spot .mapBlock).emit .value).allowKey !l.inFlow

/-- An anchor gets the number of the names that there are before it. -/
def emitAnchor (l : Layout) (spot : Spot) (name : List Char) : Option Layout :=
  let id := l.names.length
  { l with names := (name, id) :: l.names.filter (·.1 ≠ name) }.emitContent spot (.anchor id)

def emitAlias (l : Layout) (spot : Spot) (name : List Char) : Option Layout := do
  l.emitContent spot (.alias (← l.names.lookup name))

/-- A scalar in lines of its own. -/
def readBlock (l : Layout) (style : Style) (text : Rest) : Option (Layout × Rest) := do
  let l ← l.dropStart
  let (content, rest) ← readBlockScalar (style = .folded) l.floor text
  return ((l.emit (.scalar style content)).allowKey true, rest)

def readQuoted (l : Layout) (spot : Spot) (text : Rest) : Option (Layout × Rest) := do
  let (content, rest) ← if spot.char = '"' then readDouble text else readSingle text
  return (← l.emitContent spot (.scalar .quoted content), rest)

/-- A plain scalar; a key may start behind one that ends with its line. -/
def readPlainScalar (l : Layout) (spot : Spot) (text : Rest) : Option (Layout × Rest) := do
  let (content, isBroken, rest) ← readPlain l.inFlow l.floor [] text
  return ((← l.emitContent spot (.scalar .plain content)).allowKey isBroken, rest)

/-- The token that starts at a place, and the text behind it. -/
def readToken (l : Layout) (spot : Spot) (rest : Rest) : Option (Layout × Rest) :=
  let text := spot :: rest
  let marks := atGap rest || l.inFlow
  if isMark text '-' then do return (← l.emitMark .documentStart, rest.drop 2)
  else if isMark text '.' then do return (← l.emitMark .documentEnd, rest.drop 2)
  else
    match spot.char with
    | '%' => do
      if spot.column = 0 then
        let (directive, rest) ← readDirective? rest
        return (← l.emitMark (.directive directive), rest)
      else none
    | '[' => do return (← l.openFlow spot .openBracket, rest)
    | '{' => do return (← l.openFlow spot .openBrace, rest)
    | ']' => do return (← l.closeFlow .closeBracket, rest)
    | '}' => do return (← l.closeFlow .closeBrace, rest)
    | ',' => do return (← l.emitComma, rest)
    | '-' => do if atGap rest then return (← l.emitDash spot, rest) else l.readPlainScalar spot text
    | '?' => do if marks then return (← l.emitKey spot, rest) else l.readPlainScalar spot text
    | ':' => do if marks then return (← l.emitValue spot, rest) else l.readPlainScalar spot text
    | '&' => do
      let (name, rest) ← readName? rest
      return (← l.emitAnchor spot name, rest)
    | '*' => do
      let (name, rest) ← readName? rest
      return (← l.emitAlias spot name, rest)
    | '!' => do
      let (tag, rest) ← readWholeTag? l.inFlow rest
      return (← l.emitContent spot tag, rest)
    | '|' => if l.inFlow then none else l.readBlock .literal rest
    | '>' => if l.inFlow then none else l.readBlock .folded rest
    | '"' | '\'' => l.readQuoted spot rest
    | '#' | '@' | '\x60' | '\t' => none
    | _ => l.readPlainScalar spot text

/-- Reads all that is left of a text, at the end of which all blocks end. -/
def readAll (l : Layout) (text : Rest) : Option Layout :=
  let (keyAllowed, next) := skipGap l.inFlow false l.keyAllowed text
  match next with
  | [] => (l.closeBlocks fun _ => true).dropStart
  | spot :: rest =>
    match (l.allowKey keyAllowed).refresh spot with
    | none => none
    | some l =>
      match (l.closeBlocks (spot.column < ·)).readToken spot rest with
      | none => none
      | some (l, left) => if _ : left.length < text.length then l.readAll left else none
termination_by text.length
decreasing_by assumption

end Layout

/-- The tokens of a text, if it can be divided into tokens. -/
def tokens? (text : List Char) : Option (List Token) :=
  if text.all isAllowed then
    (Layout.empty.readAll (spots text)).map fun l => l.tokens.reverse
  else none

end PromptScript.Yaml
