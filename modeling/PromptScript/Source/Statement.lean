import PromptScript.Source.Directive
import PromptScript.Source.LogicalLine
import PromptScript.Source.Marker
import PromptScript.Source.TextBlock

/-!
What one logical line says. An opener may carry its body on the same line; otherwise the body is
left to the lines inside it.
-/
namespace PromptScript.Source

inductive ClauseKind
  | ifClause
  | elifClause
  | elseClause
deriving DecidableEq, Repr

def elseWord : List Char := ['e', 'l', 's', 'e']
def elifWord : List Char := ['e', 'l', 'i', 'f']
def ifWord : List Char := ['i', 'f']
def forWord : List Char := ['f', 'o', 'r']

/-- The kind of clause that a word opens. -/
def ClauseKind.ofWord? (word : List Char) : Option ClauseKind :=
  if word = ifWord then some .ifClause
  else if word = elifWord then some .elifClause
  else if word = elseWord then some .elseClause
  else none

def ClauseKind.keyword : ClauseKind → String
  | .ifClause => "if"
  | .elifClause => "elif"
  | .elseClause => "else"

/-- An opener and where it starts, for the error that its body is missing. -/
structure Opener where
  text : String
  offset : Nat
deriving DecidableEq, Repr, Inhabited

/-- The fault of an opener without a body. -/
def Opener.missingBody {α : Type} (opener : Opener) : Except Fault α :=
  .error ⟨.missingBody opener.text, opener.offset⟩

/-- A clause of a chain. The condition is missing behind `else`; the body is missing when it is not
on the same line. -/
structure Clause where
  kind : ClauseKind
  condition : Option Expr
  body : Option (List Node)
  opener : Opener
deriving Repr

/-- What stands between `for` and the colon. -/
structure LoopHead where
  var : String
  iterable : Expr
  opener : Opener
deriving Repr

inductive Statement
  | node (node : Node)
  /-- An empty text block, or a line without meaning. -/
  | nothing
  /-- One clause or more; only the last one may lack a body. -/
  | chain (clauses : List Clause)
  | loop (head : LoopHead) (body : Option (List Node))
deriving Repr

/-- The nodes behind a clause of a chain, with the clause put in front: `else` replaces them, and
any other clause takes them as the alternative to its own body. -/
def foldClause : Option Expr × List Node → Option (List Node) → Option (List Node)
  | (none, body), _ => some body
  | (some condition, body), orElse => some [.conditional [(condition, body)] orElse]

/-- The conditional that a complete chain is: each `elif` is a conditional in the alternative of the
clause before it. -/
def foldChain (clauses : List (Option Expr × List Node)) : Option Node :=
  (clauses.foldr foldClause none).bind List.getLast?

/-- The colon that ends an opener, as its distance from the start of a span. -/
def openerColon (opener s : Span) : Except Fault Nat :=
  match colonIndex 0 none s.text with
  | some index => .ok index
  | none => opener.fault (.missingBody (.ofList opener.text))

/-- The condition of a clause whose keyword ends where `s` starts and whose colon is `colon`
characters further. -/
def readCondition (kind : ClauseKind) (s : Span) (colon : Nat) : Except Fault (Option Expr) :=
  match kind with
  | .elseClause =>
    if (Text.trim (s.text.take colon)).isEmpty then .ok none else s.trimStart.unexpected
  | _ => (readExpr (s.take colon)).map some

/-- Reads the opener of a loop at the start of a span. The second part of the result is how many
characters come before its colon. -/
def readLoopHead (s : Span) : Except Fault (LoopHead × Nat) := do
  let afterFor := (s.drop 3).trimStart
  let var := afterFor.word
  if !isIdentifier var then afterFor.unexpected
  else
    let afterVar := (afterFor.drop var.length).trimStart
    if afterVar.word ≠ inWord then afterVar.unexpected
    else
      let afterIn := afterVar.drop 2
      let colon ← openerColon s afterIn
      let iterable ← readExpr (afterIn.take colon)
      let length := afterIn.start - s.start + colon
      match iterable with
      | .path _ | .range .. =>
        return (⟨.ofList var, iterable, ⟨.ofList (s.text.take (length + 1)), s.start⟩⟩, length)
      | _ => afterIn.fault (.invalidExpression .unsuitableIterable)

/-- Reads the text block at the start of a span. The second part of the result is its length. -/
def readBlockMark (indent : Nat) (isInline : Bool) (s : Span) :
    Except Fault (Option Node × Nat) :=
  match Text.find? ['>', '>'] (s.text.drop 2) with
  | none => s.fault .unterminatedText
  | some length => do
    let node ← readTextBlock indent isInline ((s.drop 2).take length)
    return (node, length + 4)

/-- A result, and what is left of a text behind it: at most `length` characters. -/
structure Read (α : Type) (length : Nat) where
  value : α
  rest : Span
  within : rest.text.length ≤ length

theorem word_ne_nil_of_kind {word : List Char} {kind : ClauseKind}
    (h : ClauseKind.ofWord? word = some kind) : word ≠ [] := by
  rintro rfl
  simp [ClauseKind.ofWord?, ifWord, elifWord, elseWord] at h

/-- What is left behind an opener is shorter than the text that starts with it. -/
theorem length_after_lt {s : Span} (h : s.word ≠ []) (n : Nat) :
    (s.drop (n + 1)).trimStart.text.length < s.text.length := by
  have shorter := Span.length_trimStart_le (s.drop (n + 1))
  have nonempty : s.text ≠ [] := by
    intro empty
    simp [Span.word, empty] at h
  have := List.length_pos_iff.2 nonempty
  simp only [Span.text_drop, List.length_drop] at shorter
  omega

/-- What the first characters of a statement show. -/
inductive Lead
  | block
  | marker
  | directive
  | other
deriving DecidableEq, Repr

def Lead.ofText : List Char → Lead
  | '<' :: '<' :: _ => .block
  | '[' :: '[' :: _ => .marker
  | '@' :: _ => .directive
  | _ => .other

mutual

/-- Reads the clauses of a chain at the start of a span: more of them as long as each body is on the
same line. Inside another body, where `nested` is true, every body must be. -/
def readClauses (indent : Nat) (nested isFirst : Bool) (s : Span) :
    Except Fault (Read (List Clause) s.text.length) :=
  match h : ClauseKind.ofWord? s.word with
  | none => .ok ⟨[], s, by omega⟩
  | some kind =>
    if !isFirst ∧ kind = .ifClause then .ok ⟨[], s, by omega⟩
    else do
      let behind := s.drop s.word.length
      let colon ← openerColon s behind
      let condition ← readCondition kind behind colon
      let opener : Opener := ⟨.ofList (s.text.take (s.word.length + colon + 1)), s.start⟩
      have := length_after_lt (word_ne_nil_of_kind h) (s.word.length + colon)
      if (s.drop (s.word.length + colon + 1)).trimStart.text.isEmpty then
        if nested then opener.missingBody
        else return ⟨[⟨kind, condition, none, opener⟩], _, Nat.le_of_lt this⟩
      else
        let ⟨nodes, rest, _⟩ ← readInline indent (s.drop (s.word.length + colon + 1)).trimStart
        let clause : Clause := ⟨kind, condition, some nodes, opener⟩
        have := Span.length_trimStart_le rest
        -- Only `elif` and `else` go on with a chain, and nothing does behind `else`.
        if kind ≠ .elseClause ∧ (rest.trimStart.word = elifWord ∨ rest.trimStart.word = elseWord) then
          let ⟨more, rest, _⟩ ← readClauses indent nested false rest.trimStart
          return ⟨clause :: more, rest, by omega⟩
        else return ⟨[clause], rest, by omega⟩
termination_by 2 * s.text.length

/-- Reads a body on the line of its opener: a text block, an include, a directive, or an opener with
its own body. -/
def readInline (indent : Nat) (s : Span) : Except Fault (Read (List Node) s.text.length) :=
  match Lead.ofText s.text with
  | .block => do
    let (node, taken) ← readBlockMark indent true s
    return ⟨node.toList, s.drop taken, by simp⟩
  | .marker => do
    let (target, taken) ← readInclude s
    return ⟨[.include target], s.drop taken, by simp⟩
  | .directive => do
    let node ← readDirective s
    return ⟨[node], s.drop s.text.length, by simp⟩
  | .other =>
    if s.word = ifWord then do
      let ⟨clauses, rest, _⟩ ← readClauses indent true true s
      let chain := foldChain (clauses.map fun clause => (clause.condition, clause.body.getD []))
      return ⟨chain.toList, rest, by omega⟩
    else if h : s.word = forWord then do
      let (head, length) ← readLoopHead s
      have := length_after_lt (s := s) (by simp [h, forWord]) length
      if (s.drop (length + 1)).trimStart.text.isEmpty then head.opener.missingBody
      else
        let ⟨nodes, rest, _⟩ ← readInline indent (s.drop (length + 1)).trimStart
        return ⟨[.loop head.var head.iterable nodes], rest, by omega⟩
    else s.unexpected
termination_by 2 * s.text.length + 1

end

/-- Checks that only blanks are left of a line. -/
def expectEnd {α : Type} (s : Span) (result : α) : Except Fault α :=
  if s.trimStart.text.isEmpty then .ok result else s.trimStart.unexpected

/-- Reads a loop at the start of a line. -/
def readLoop (indent : Nat) (s : Span) : Except Fault Statement := do
  let (head, length) ← readLoopHead s
  let after := (s.drop (length + 1)).trimStart
  if after.text.isEmpty then return .loop head none
  else
    let ⟨nodes, rest, _⟩ ← readInline indent after
    expectEnd rest (.loop head (some nodes))

def readStatement (line : LogicalLine) : Except Fault Statement :=
  let s := line.span.trimStart
  match Lead.ofText s.text with
  | .block => do
    let (node, taken) ← readBlockMark line.indent false s
    expectEnd (s.drop taken) ((node.map Statement.node).getD .nothing)
  | .marker => do
    let (target, taken) ← readInclude s
    expectEnd (s.drop taken) (.node (.include target))
  | .directive => (readDirective s).map .node
  | .other =>
    if (ClauseKind.ofWord? s.word).isSome then do
      let ⟨clauses, rest, _⟩ ← readClauses line.indent false true s
      expectEnd rest (.chain clauses)
    else if s.word = forWord then readLoop line.indent s
    else if s.word = ['f', 'r', 'o', 'm'] ∨ s.word = ['i', 'm', 'p', 'o', 'r', 't'] then
      (readImport s).map fun node => (node.map Statement.node).getD .nothing
    else .ok .nothing

end PromptScript.Source
