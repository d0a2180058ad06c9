import PromptScript.Source.Token

/-!
Reading expressions from tokens. From loose to tight the levels are `or`, `and`, `not`, comparison
and membership, and operands; both connectives group to the left, and comparisons do not chain.
-/
namespace PromptScript.Source

/-- Whether the first token is the given one. -/
def startsWithToken (token : Token) : List LocatedToken → Bool
  | t :: _ => t.token = token
  | [] => false

def orWord : List Char := ['o', 'r']
def andWord : List Char := ['a', 'n', 'd']
def notWord : List Char := ['n', 'o', 't']
def inWord : List Char := ['i', 'n']
def rangeWord : List Char := ['r', 'a', 'n', 'g', 'e']

/-- A word that is an operator, so that it cannot be a path. -/
def isOperatorWord (word : List Char) : Bool :=
  word = andWord || word = orWord || word = notWord || word = inWord

/-- The offset at which a problem with the next token is reported. -/
def nextOffset (finish : Nat) : List LocatedToken → Nat
  | t :: _ => t.offset
  | [] => finish

/-- A fault of an expression at the next token. -/
def flawAt {α : Type} (finish : Nat) (tokens : List LocatedToken) (flaw : ExprFlaw) :
    Except Fault α :=
  .error ⟨.invalidExpression flaw, nextOffset finish tokens⟩

/-- The range that one, two or three arguments describe. -/
def rangeOf (offset : Nat) : List Expr → Except Fault Expr
  | [stop] => .ok (.range none stop none)
  | [start, stop] => .ok (.range (some start) stop none)
  | [start, stop, step] => .ok (.range (some start) stop (some step))
  | _ => .error ⟨.invalidExpression .rangeArity, offset⟩

/-- What may stand between two operands that are compared. -/
inductive Relation
  | compare (op : CompareOp)
  | membership (negated : Bool)
deriving DecidableEq, Repr

def Relation.apply : Relation → Expr → Expr → Expr
  | .compare op, lhs, rhs => .compare op lhs rhs
  | .membership negated, lhs, rhs => .membership negated lhs rhs

/-- The relation at the start of the tokens, and how many of them write it. -/
def relationOf? : List LocatedToken → Option (Relation × Nat)
  | [] => none
  | ⟨token, _⟩ :: rest =>
    match token with
    | .compare op => some (.compare op, 1)
    | .word word =>
      if word = inWord then some (.membership false, 1)
      else if word = notWord ∧ startsWithToken (.word inWord) rest then
        some (.membership true, 2)
      else none
    | _ => none

def pathOf (offset : Nat) (word : List Char) : Except Fault Expr :=
  if isOperatorWord word then .error ⟨.unexpectedToken (.ofList word), offset⟩
  else match VarPath.ofText? word with
    | some path => .ok (.path path)
    | none => .error ⟨.invalidPath (.ofList word), offset⟩

/-- A result, and the tokens left behind it: fewer than `length`. -/
structure Parsed (α : Type) (length : Nat) where
  value : α
  rest : List LocatedToken
  shorter : rest.length < length

mutual

def parseOr (finish : Nat) (tokens : List LocatedToken) :
    Except Fault (Parsed Expr tokens.length) := do
  let ⟨lhs, rest, _⟩ ← parseAnd finish tokens
  let ⟨e, rest, _⟩ ← parseOrRest finish lhs rest
  return ⟨e, rest, by omega⟩
termination_by 8 * tokens.length + 6

/-- Further operands of `or`, each grouped with all before it. -/
def parseOrRest (finish : Nat) (lhs : Expr) (tokens : List LocatedToken) :
    Except Fault (Parsed Expr (tokens.length + 1)) :=
  match tokens with
  | t :: rest =>
    if t.token = .word orWord then do
      let ⟨rhs, rest, _⟩ ← parseAnd finish rest
      let ⟨e, rest, _⟩ ← parseOrRest finish (.or lhs rhs) rest
      return ⟨e, rest, by simp only [List.length_cons]; omega⟩
    else .ok ⟨lhs, t :: rest, by omega⟩
  | [] => .ok ⟨lhs, [], by omega⟩
termination_by 8 * tokens.length + 6

def parseAnd (finish : Nat) (tokens : List LocatedToken) :
    Except Fault (Parsed Expr tokens.length) := do
  let ⟨lhs, rest, _⟩ ← parseNot finish tokens
  let ⟨e, rest, _⟩ ← parseAndRest finish lhs rest
  return ⟨e, rest, by omega⟩
termination_by 8 * tokens.length + 4

/-- Further operands of `and`, each grouped with all before it. -/
def parseAndRest (finish : Nat) (lhs : Expr) (tokens : List LocatedToken) :
    Except Fault (Parsed Expr (tokens.length + 1)) :=
  match tokens with
  | t :: rest =>
    if t.token = .word andWord then do
      let ⟨rhs, rest, _⟩ ← parseNot finish rest
      let ⟨e, rest, _⟩ ← parseAndRest finish (.and lhs rhs) rest
      return ⟨e, rest, by simp only [List.length_cons]; omega⟩
    else .ok ⟨lhs, t :: rest, by omega⟩
  | [] => .ok ⟨lhs, [], by omega⟩
termination_by 8 * tokens.length + 4

def parseNot (finish : Nat) (tokens : List LocatedToken) :
    Except Fault (Parsed Expr tokens.length) :=
  match tokens with
  | t :: rest =>
    if t.token = .word notWord then do
      let ⟨operand, rest, _⟩ ← parseNot finish rest
      return ⟨.not operand, rest, by simp only [List.length_cons]; omega⟩
    else parseComparison finish (t :: rest)
  | [] => parseComparison finish []
termination_by 8 * tokens.length + 2

/-- An operand, and a comparison or membership test on it if there is one. -/
def parseComparison (finish : Nat) (tokens : List LocatedToken) :
    Except Fault (Parsed Expr tokens.length) := do
  let ⟨lhs, rest, less⟩ ← parsePrimary finish tokens
  match relationOf? rest with
  | none => return ⟨lhs, rest, less⟩
  | some (relation, taken) =>
    have := List.length_drop (i := taken) (l := rest)
    let ⟨rhs, behind, _⟩ ← parsePrimary finish (rest.drop taken)
    return ⟨relation.apply lhs rhs, behind, by omega⟩
termination_by 8 * tokens.length + 1

/-- A literal, a path, a range, or an expression in parentheses. -/
def parsePrimary (finish : Nat) (tokens : List LocatedToken) :
    Except Fault (Parsed Expr tokens.length) :=
  match tokens with
  | [] => flawAt finish [] .unexpectedEnd
  | ⟨token, offset⟩ :: rest =>
    match token with
    | .literal value => .ok ⟨.literal value, rest, by simp⟩
    | .openParen => do
      let ⟨e, inner, _⟩ ← parseOr finish rest
      if startsWithToken .closeParen inner then
        return ⟨e, inner.drop 1, by simp only [List.length_cons, List.length_drop]; omega⟩
      else flawAt finish inner .unclosedParenthesis
    | .word word =>
      if word = rangeWord ∧ startsWithToken .openParen rest then do
        have := List.length_drop (i := 1) (l := rest)
        let ⟨args, inner, _⟩ ← parseRangeArgs finish (rest.drop 1)
        if startsWithToken .closeParen inner then
          let e ← rangeOf offset args
          return ⟨e, inner.drop 1, by simp only [List.length_cons, List.length_drop]; omega⟩
        else flawAt finish inner .unclosedRange
      else do
        let e ← pathOf offset word
        return ⟨e, rest, by simp⟩
    | token => .error ⟨.unexpectedToken token.text, offset⟩
termination_by 8 * tokens.length

/-- The arguments of a range, up to its closing parenthesis. -/
def parseRangeArgs (finish : Nat) (tokens : List LocatedToken) :
    Except Fault (Parsed (List Expr) (tokens.length + 1)) :=
  if startsWithToken .closeParen tokens then .ok ⟨[], tokens, by omega⟩
  else do
    let ⟨first, rest, _⟩ ← parseOr finish tokens
    let ⟨more, rest, _⟩ ← parseRangeRest finish rest
    return ⟨first :: more, rest, by omega⟩
termination_by 8 * tokens.length + 7

def parseRangeRest (finish : Nat) (tokens : List LocatedToken) :
    Except Fault (Parsed (List Expr) (tokens.length + 1)) :=
  match tokens with
  | ⟨.comma, _⟩ :: rest => do
    let ⟨next, rest, _⟩ ← parseOr finish rest
    let ⟨more, rest, _⟩ ← parseRangeRest finish rest
    return ⟨next :: more, rest, by simp only [List.length_cons]; omega⟩
  | tokens => .ok ⟨[], tokens, by omega⟩
termination_by 8 * tokens.length + 7

end

/-- Reads a nonempty sequence of tokens as one expression. -/
def parseTokens (finish : Nat) (tokens : List LocatedToken) : Except Fault Expr := do
  let ⟨e, rest, _⟩ ← parseOr finish tokens
  match rest with
  | [] => return e
  | extra :: _ => .error ⟨.unexpectedToken extra.token.text, extra.offset⟩

/-- Reads an expression that takes up a whole span. -/
def readExpr (s : Span) : Except Fault Expr := do
  let tokens ← tokenize s.start s.text
  if tokens.isEmpty then s.fault (.invalidExpression .missing)
  else parseTokens s.finish tokens

end PromptScript.Source

namespace PromptScript

/-- Reads a text that is one expression. -/
def Expr.parse (source : String) : Except ParseError Expr :=
  located source.toList (Source.readExpr ⟨0, source.toList⟩)

end PromptScript
