import PromptScript.Source.Fault
import PromptScript.Template.Expr
import PromptScript.Value.Reader

/-!
The tokens of expressions.
-/
namespace PromptScript.Source

inductive Token
  /-- A keyword or a path. -/
  | word (text : List Char)
  | literal (value : Value)
  | compare (op : CompareOp)
  | openParen
  | closeParen
  | comma
deriving DecidableEq, Repr, Inhabited

/-- A token and the offset of its first character. -/
structure LocatedToken where
  token : Token
  offset : Nat
deriving DecidableEq, Repr, Inhabited

def Token.text : Token → String
  | .word text => .ofList text
  | .literal value => value.toText
  | .compare op => op.symbol
  | .openParen => "("
  | .closeParen => ")"
  | .comma => ","

/-- The character that a backslash and `c` stand for inside quotes. -/
def unescape (c : Char) : Char :=
  if c = 'n' then '\n' else if c = 't' then '\t' else if c = 'r' then '\r' else c

/-- The content of a string up to its closing quote, and how many characters both take. -/
def stringContent (quote : Char) : List Char → Option (List Char × Nat)
  | [] => none
  | c :: rest =>
    match c, rest with
    | '\\', [] => none
    | '\\', c :: rest =>
      (stringContent quote rest).map fun (content, taken) => (unescape c :: content, taken + 2)
    | c, rest =>
      if c = quote then some ([], 1)
      else (stringContent quote rest).map fun (content, taken) => (c :: content, taken + 1)

inductive BracketMode
  | code
  | quoted
  | escaped
deriving DecidableEq, Repr

/-- How many characters come before the bracket that closes the outermost of `depth` open brackets.
Brackets inside double quotes do not count. -/
def closingBracket (depth : Nat) (mode : BracketMode) : List Char → Option Nat
  | [] => none
  | c :: rest =>
    match mode with
    | .escaped => (closingBracket depth .quoted rest).map (· + 1)
    | .quoted =>
      let mode := if c = '\\' then .escaped else if c = '"' then .code else .quoted
      (closingBracket depth mode rest).map (· + 1)
    | .code =>
      if c = '"' then (closingBracket depth .quoted rest).map (· + 1)
      else if c = '[' ∨ c = '{' then (closingBracket (depth + 1) .code rest).map (· + 1)
      else if c = ']' ∨ c = '}' then
        if depth ≤ 1 then some 0 else (closingBracket (depth - 1) .code rest).map (· + 1)
      else (closingBracket depth .code rest).map (· + 1)

/-- How many characters come before the bracket that matches the one at the start of a text. -/
def matchingBracket (text : List Char) : Option Nat :=
  closingBracket 0 .code text

/-- The number that a sign, digits and points spell. Digits with one point are a floating-point
number, and so are digits too large for a signed integer. -/
def numberOf? (text : List Char) : Option Number :=
  let (negative, digits) := match text with
    | '-' :: digits => (true, digits)
    | digits => (false, digits)
  match Text.pieces (· = '.') digits with
  | [whole] =>
    let magnitude : Int := Value.digitsValue whole
    let integer := if negative then -magnitude else magnitude
    if fitsInt64 integer then some (.int integer)
    else (Binary64.ofDecimal negative magnitude.toNat 0).map .float
  | [whole, fraction] =>
    (Binary64.ofDecimal negative (Value.digitsValue (whole ++ fraction)) (-fraction.length)).map
      .float
  | _ => none

/-- The token of a word; the names of constants are read in any case. -/
def wordToken (text : List Char) : Token :=
  let name := Text.lowerAscii text
  if name = ['t', 'r', 'u', 'e'] then .literal (.bool true)
  else if name = ['f', 'a', 'l', 's', 'e'] then .literal (.bool false)
  else if name = ['n', 'u', 'l', 'l'] ∨ name = ['n', 'o', 'n', 'e'] then .literal .null
  else .word text

/-- The operator that starts with `c`, and whether an equals sign belongs to it. -/
def operatorOf? (c : Char) (equals : Bool) : Option CompareOp :=
  match c, equals with
  | '=', true => some .eq
  | '!', true => some .ne
  | '<', true => some .le
  | '>', true => some .ge
  | '<', false => some .lt
  | '>', false => some .gt
  | _, _ => none

/-- The literal that starts with a bracket, and how many characters of `rest` it takes. -/
def bracketToken (c : Char) (rest : List Char) : Except ParseCause (Token × Nat) :=
  match matchingBracket (c :: rest) with
  | none => .error (.invalidExpression (.unclosedBracket c))
  | some length =>
    match Value.ofText? ((c :: rest).take (length + 1)) with
    | some value => .ok (.literal value, length)
    | none => .error (.invalidExpression .notJson)

/-- The token that starts with `c`, and how many of the characters behind it belong to it. A blank
is no token. -/
def scanToken (c : Char) (rest : List Char) : Except ParseCause (Option Token × Nat) :=
  if Text.isBlank c then .ok (none, 0)
  else if c = '(' then .ok (some .openParen, 0)
  else if c = ')' then .ok (some .closeParen, 0)
  else if c = ',' then .ok (some .comma, 0)
  else if c = '=' ∨ c = '!' ∨ c = '<' ∨ c = '>' then
    let equals := rest.head? = some '='
    match operatorOf? c equals with
    | some op => .ok (some (.compare op), if equals then 1 else 0)
    | none => .error (.unexpectedToken c.toString)
  else if c = '"' ∨ c = '\'' then
    match stringContent c rest with
    | some (content, taken) => .ok (some (.literal (.str (.ofList content))), taken)
    | none => .error (.invalidExpression .unterminatedString)
  else if c = '[' ∨ c = '{' then
    (bracketToken c rest).map fun (token, taken) => (some token, taken)
  -- There are no sums, so that a minus sign before a digit is always a part of the number.
  else if c.isDigit ∨ (c = '-' ∧ (rest.head?.any Char.isDigit)) then
    let digits := rest.takeWhile fun d => d.isDigit || d = '.'
    match numberOf? (c :: digits) with
    | some n => .ok (some (.literal (.num n)), digits.length)
    | none => .error (.invalidExpression (.invalidNumber (.ofList (c :: digits))))
  else if Text.isNameStart c then
    let more := rest.takeWhile fun w => Text.isNameChar w || w = '.'
    .ok (some (wordToken (c :: more)), more.length)
  else .error (.unexpectedToken c.toString)

/-- The tokens of a text that starts at an offset. -/
def tokenize (offset : Nat) : List Char → Except Fault (List LocatedToken)
  | [] => .ok []
  | c :: rest => do
    let (token, taken) ← (scanToken c rest).mapError (Fault.mk · offset)
    let more ← tokenize (offset + taken + 1) (rest.drop taken)
    return (token.map (LocatedToken.mk · offset)).toList ++ more
termination_by text => text.length

end PromptScript.Source
