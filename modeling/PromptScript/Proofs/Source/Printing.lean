import Mathlib
import PromptScript.Proofs.Source.Bracket
import PromptScript.Proofs.Source.Tokens
import PromptScript.Proofs.Text.CharClass

/-!
Expressions as text. The text of an expression is read as that expression, whichever of its operands
stand in parentheses besides those that have to.
-/
namespace PromptScript

open Text

namespace Expr

/-- How a character stands inside double quotes. -/
def escapeQuoted (c : Char) : List Char :=
  if c = '\\' then ['\\', '\\']
  else if c = '"' then ['\\', '"']
  else if c = '\n' then ['\\', 'n']
  else if c = '\t' then ['\\', 't']
  else if c = '\r' then ['\\', 'r']
  else [c]

/-- Strings in double quotes, all other values as compact JSON. -/
def literalText : Value → List Char
  | .str s => '"' :: s.toList.flatMap escapeQuoted ++ ['"']
  | value => value.compact

/-- Whether an expression is put together by an operator. -/
def isCompound : Expr → Bool
  | .compare .. | .membership .. | .not _ | .and .. | .or .. => true
  | .literal _ | .path _ | .range .. => false

/-- Which operands and which arguments of ranges stand in parentheses. -/
structure Parentheses where
  operand : Expr → Bool
  argument : Expr → Bool
  compound : ∀ e, e.isCompound = true → operand e = true

/-- Parentheses around compound operands, and nowhere else. -/
def Parentheses.fewest : Parentheses :=
  ⟨isCompound, fun _ => false, fun _ compound => compound⟩

def enclose (wrapped : Bool) (text : List Char) : List Char :=
  if wrapped then '(' :: text ++ [')'] else text

/-- An operator between two operands. -/
def operatorText (lhs : List Char) (operator : String) (rhs : List Char) : List Char :=
  lhs ++ ' ' :: operator.toList ++ ' ' :: rhs

/-- A range from the texts of its arguments. -/
def rangeText (start : Option (List Char)) (stop : List Char) (step : Option (List Char)) :
    List Char :=
  "range(".toList ++ [',', ' '].intercalate (start.toList ++ stop :: step.toList) ++ [')']

def print (p : Parentheses) : Expr → List Char
  | .literal value => literalText value
  | .path place => place.text.toList
  | .compare op lhs rhs =>
    operatorText (enclose (p.operand lhs) (print p lhs)) op.symbol
      (enclose (p.operand rhs) (print p rhs))
  | .membership negated needle haystack =>
    operatorText (enclose (p.operand needle) (print p needle)) (if negated then "not in" else "in")
      (enclose (p.operand haystack) (print p haystack))
  | .not e => "not ".toList ++ enclose (p.operand e) (print p e)
  | .and lhs rhs =>
    operatorText (enclose (p.operand lhs) (print p lhs)) "and"
      (enclose (p.operand rhs) (print p rhs))
  | .or lhs rhs =>
    operatorText (enclose (p.operand lhs) (print p lhs)) "or"
      (enclose (p.operand rhs) (print p rhs))
  | .range start stop step =>
    let first := match start with
      | some e => some (enclose (p.argument e) (print p e))
      | none => none
    let last := match step with
      | some e => some (enclose (p.argument e) (print p e))
      | none => none
    rangeText first (enclose (p.argument stop) (print p stop)) last

/-- A value that an expression can name: nested at most as deep as values can be read, and by itself
no integer beyond 64 bits with a sign. -/
def IsLiteral (value : Value) : Prop :=
  value.Plain Value.maxDepth ∧ ∀ n, value = .num (.int n) → fitsInt64 n = true

/-- An expression that can be written: its literals and paths are read as what they are, and a range
with a step has a start. -/
inductive Printable : Expr → Prop
  | literal {value : Value} : IsLiteral value → Printable (.literal value)
  | path {place : VarPath} :
    VarPath.ofText? place.text.toList = some place →
    place.text ∉ ["and", "or", "not", "in"] →
    Text.lowerAscii place.text.toList ∉ ["true", "false", "null", "none"].map String.toList →
    Printable (.path place)
  | compare {op : CompareOp} {lhs rhs : Expr} :
    Printable lhs → Printable rhs → Printable (.compare op lhs rhs)
  | membership {negated : Bool} {needle haystack : Expr} :
    Printable needle → Printable haystack → Printable (.membership negated needle haystack)
  | not {e : Expr} : Printable e → Printable (.not e)
  | and {lhs rhs : Expr} : Printable lhs → Printable rhs → Printable (.and lhs rhs)
  | or {lhs rhs : Expr} : Printable lhs → Printable rhs → Printable (.or lhs rhs)
  | range {start step : Option Expr} {stop : Expr} :
    (∀ e ∈ start, Printable e) → Printable stop → (∀ e ∈ step, Printable e) →
    (step.isSome → start.isSome) → Printable (.range start stop step)

end Expr

namespace Source

/-! ### Texts and their tokens -/

/-- A character at which every word and every number ends. -/
def isMark (c : Char) : Bool :=
  c = ' ' || c = '(' || c = ')' || c = ','

def Delimited (rest : List Char) : Prop :=
  ∀ c ∈ rest.head?, isMark c = true

/-- A text has some tokens, whatever delimited text follows it. -/
def Scans (text : List Char) (ts : List Token) : Prop :=
  ∀ rest more, Delimited rest → Tokens rest more → Tokens (text ++ rest) (ts ++ more)

variable {text text' rest : List Char} {ts us : List Token} {c : Char}

theorem delimited_cons (mark : isMark c = true) : Delimited (c :: rest) := by
  intro d member
  cases member
  exact mark

theorem Delimited.bars {p : Char → Bool} (delimited : Delimited rest)
    (apart : p ' ' = false ∧ p '(' = false ∧ p ')' = false ∧ p ',' = false) : Bars p rest := by
  intro c member
  have mark := delimited c member
  simp only [isMark, Bool.or_eq_true, decide_eq_true_eq] at mark
  rcases mark with ((rfl | rfl) | rfl) | rfl
  · exact apart.1
  · exact apart.2.1
  · exact apart.2.2.1
  · exact apart.2.2.2

namespace Scans

/-- A token that is scanned with all of a text. -/
theorem of_scanToken {token : Token} (scanned : ∀ rest, Delimited rest →
      scanToken c (text ++ rest) = .ok (some token, text.length)) :
    Scans (c :: text) [token] := by
  intro rest more delimited tokens
  have cons := Tokens.cons (scanned rest delimited) (by rw [List.drop_left]; exact tokens)
  exact cons

theorem append (h : Scans text ts) (h' : Scans (c :: text') us) (mark : isMark c = true) :
    Scans (text ++ c :: text') (ts ++ us) := by
  intro rest more delimited tokens
  rw [List.append_assoc, List.append_assoc]
  exact h _ _ (delimited_cons mark) (h' rest more delimited tokens)

theorem blank (h : Scans text ts) : Scans (' ' :: text) ts := by
  intro rest more delimited tokens
  have scanned : scanToken ' ' (text ++ rest) = .ok (none, 0) := by
    simp [scanToken, isBlank]
  exact Tokens.cons scanned (h rest more delimited tokens)

theorem comma (h : Scans text ts) : Scans (',' :: text) (.comma :: ts) := by
  intro rest more delimited tokens
  have scanned : scanToken ',' (text ++ rest) = .ok (some .comma, 0) := by
    simp [scanToken, show isBlank ',' = false by decide]
  exact Tokens.cons scanned (h rest more delimited tokens)

theorem paren (h : Scans text ts) : Scans ('(' :: text) (.openParen :: ts) := by
  intro rest more delimited tokens
  have scanned : scanToken '(' (text ++ rest) = .ok (some .openParen, 0) := by
    simp [scanToken, show isBlank '(' = false by decide]
  exact Tokens.cons scanned (h rest more delimited tokens)

theorem closeParen : Scans [')'] [.closeParen] := by
  apply of_scanToken
  intro rest _
  simp [scanToken, show isBlank ')' = false by decide]

theorem parentheses (h : Scans text ts) :
    Scans ('(' :: text ++ [')']) (.openParen :: ts ++ [.closeParen]) :=
  (h.append closeParen rfl).paren

/-- An operator with an equals sign, or with none and before none. -/
theorem operator {op : CompareOp} (equals : Bool) (h : operatorOf? c equals = some op)
    (comparing : c = '=' ∨ c = '!' ∨ c = '<' ∨ c = '>') :
    Scans (c :: if equals then ['='] else []) [.compare op] := by
  apply of_scanToken
  intro rest delimited
  have behind : ((if equals then ['='] else []) ++ rest).head? = some '=' ↔ equals = true := by
    cases equals with
    | true => simp
    | false =>
      have none : rest.head? ≠ some '=' := fun same => absurd (delimited '=' same) (by decide)
      simp [none]
  have blank : isBlank c = false := by rcases comparing with rfl | rfl | rfl | rfl <;> decide
  have other : c ≠ '(' ∧ c ≠ ')' ∧ c ≠ ',' := by
    rcases comparing with rfl | rfl | rfl | rfl <;> decide
  simp only [scanToken, blank, other, comparing, behind, Bool.decide_eq_true, h, if_true, if_false,
    Bool.false_eq_true]
  cases equals <;> rfl

theorem compare (op : CompareOp) : Scans op.symbol.toList [.compare op] := by
  cases op with
  | eq => exact operator (c := '=') true rfl (by decide)
  | ne => exact operator (c := '!') true rfl (by decide)
  | lt => exact operator (c := '<') false rfl (by decide)
  | le => exact operator (c := '<') true rfl (by decide)
  | gt => exact operator (c := '>') false rfl (by decide)
  | ge => exact operator (c := '>') true rfl (by decide)

/-! ### Words, strings and numbers -/

theorem stringContent_escapeQuoted (c : Char) (rest : List Char) :
    stringContent '"' (Expr.escapeQuoted c ++ rest) =
      (stringContent '"' rest).map fun (content, taken) =>
        (c :: content, taken + (Expr.escapeQuoted c).length) := by
  unfold Expr.escapeQuoted
  split
  · next same => subst same; simp [stringContent, unescape]
  split
  · next same => subst same; simp [stringContent, unescape]
  split
  · next same => subst same; simp [stringContent, unescape]
  split
  · next same => subst same; simp [stringContent, unescape]
  split
  · next same => subst same; simp [stringContent, unescape]
  · next noBackslash noQuote _ _ _ => simp [stringContent, noBackslash, noQuote]

theorem stringContent_quoted (content rest : List Char) :
    stringContent '"' (content.flatMap Expr.escapeQuoted ++ '"' :: rest) =
      some (content, (content.flatMap Expr.escapeQuoted).length + 1) := by
  induction content with
  | nil => simp [stringContent]
  | cons c more ih =>
    rw [List.flatMap_cons, List.append_assoc, stringContent_escapeQuoted, ih]
    simp [Nat.add_comm, Nat.add_left_comm]

theorem string (s : String) : Scans (Expr.literalText (.str s)) [.literal (.str s)] := by
  change Scans ('"' :: (s.toList.flatMap Expr.escapeQuoted ++ ['"'])) _
  apply of_scanToken
  intro rest _
  have content := stringContent_quoted s.toList rest
  simp [scanToken, show isBlank '"' = false by decide, content]

/-- Digits without a point are an integer, if it fits. -/
theorem numberOf?_digits (negative : Bool) {digits : List Char} {n : Int}
    (all : ∀ d ∈ digits, d.isDigit = true) (fits : fitsInt64 n = true)
    (magnitude : (if negative then -(Value.digitsValue digits : Int)
      else (Value.digitsValue digits : Int)) = n) :
    numberOf? ((if negative then ['-'] else []) ++ digits) = some (.int n) := by
  have one : pieces (· = '.') digits = [digits] := by
    apply pieces_of_forall
    intro d member
    exact decide_eq_false (Value.ne_of_number_head (.inr (all d member)) (by decide))
  unfold numberOf?
  cases negative with
  | true =>
    rw [if_pos rfl] at magnitude
    rw [if_pos rfl, List.singleton_append]
    simp only [one, magnitude, fits, if_true]
  | false =>
    rw [if_neg (by decide)] at magnitude
    rw [if_neg (by decide), List.nil_append]
    split
    next sign rest parts =>
      split at parts
      · exact absurd (all '-' List.mem_cons_self) (by decide)
      · cases parts
        simp only [one, magnitude, fits, if_true, if_false, Bool.false_eq_true]

theorem numberOf?_text {n : Int} (fits : fitsInt64 n = true) :
    numberOf? (Number.int n).text.toList = some (.int n) := by
  have all : ∀ d ∈ Nat.toDigits 10 n.natAbs, d.isDigit = true := fun d => isDigit_of_mem_toDigits
  have read := numberOf?_digits (decide (n < 0)) all fits (Value.magnitude_toDigits n)
  simp only [decide_eq_true_eq] at read
  rw [Number.text, String.toList_ofList]
  exact read

theorem scanToken_of_number {n : Number}
    (number : c.isDigit = true ∨ (c = '-' ∧ text.head?.any Char.isDigit = true))
    (inner : ∀ d ∈ text, d.isDigit = true) (read : numberOf? (c :: text) = some n)
    (delimited : Delimited rest) :
    scanToken c (text ++ rest) = .ok (some (.literal (.num n)), text.length) := by
  have head : c = '-' ∨ c.isDigit = true := number.symm.imp_left And.left
  have other (d : Char) (apart : d ≠ '-' ∧ d.isDigit = false) : c ≠ d :=
    Value.ne_of_number_head head apart
  have visible : isBlank c = false := by
    rcases head with rfl | digit
    · decide
    · exact not_isBlank_of_isNameChar (isNameChar_of_isDigit digit)
  have taken : (text ++ rest).takeWhile (fun d => d.isDigit || d = '.') = text := by
    apply takeWhile_append_of_bars
    · intro d member
      rw [inner d member]
      rfl
    · exact delimited.bars (by decide)
  have number' : c.isDigit = true ∨ (c = '-' ∧ (text ++ rest).head?.any Char.isDigit = true) := by
    refine number.imp_right fun h => ⟨h.1, ?_⟩
    cases text with
    | nil => cases h.2
    | cons d more => exact h.2
  unfold scanToken
  rw [if_neg (by simp [visible]), if_neg (other _ (by decide)), if_neg (other _ (by decide)),
    if_neg (other _ (by decide)), if_neg, if_neg, if_neg, if_pos number']
  · simp only [taken, read]
  · exact not_or.mpr ⟨other _ (by decide), other _ (by decide)⟩
  · exact not_or.mpr ⟨other _ (by decide), other _ (by decide)⟩
  · simp only [not_or]
    exact ⟨other _ (by decide), other _ (by decide), other _ (by decide), other _ (by decide)⟩

theorem int {n : Int} (fits : fitsInt64 n = true) :
    Scans (Number.int n).text.toList [.literal (.num (.int n))] := by
  have read := numberOf?_text fits
  obtain ⟨first, more, digits, digit⟩ := exists_toDigits_cons n.natAbs
  have all : ∀ d ∈ Nat.toDigits 10 n.natAbs, d.isDigit = true := fun d => isDigit_of_mem_toDigits
  rw [Number.text, String.toList_ofList] at read ⊢
  by_cases negative : n < 0
  · rw [if_pos negative, List.singleton_append] at read ⊢
    refine of_scanToken fun rest delimited => scanToken_of_number (.inr ⟨rfl, ?_⟩) all read delimited
    rw [digits]
    exact digit
  · rw [if_neg negative, List.nil_append, digits] at read ⊢
    rw [digits] at all
    exact of_scanToken fun rest delimited => scanToken_of_number (.inl digit)
      (fun d member => all d (List.mem_cons_of_mem first member)) read delimited

theorem scanToken_of_word (start : isNameStart c = true)
    (inner : ∀ w ∈ text, (isNameChar w || decide (w = '.')) = true) (delimited : Delimited rest) :
    scanToken c (text ++ rest) = .ok (some (wordToken (c :: text)), text.length) := by
  have other (d : Char) (apart : d.toNat < 128 ∧ (d.isAlpha || d = '_') = false) : c ≠ d := by
    rintro rfl
    rw [isNameStart_of_lt apart.1, apart.2] at start
    cases start
  have visible : isBlank c = false := not_isBlank_of_isNameChar (isNameChar_of_isNameStart start)
  have noDigit : c.isDigit = false := by
    refine Bool.eq_false_iff.mpr fun digit => ?_
    rw [not_isNameStart_of_isDigit digit] at start
    cases start
  have taken : (text ++ rest).takeWhile (fun w => isNameChar w || w = '.') = text := by
    apply takeWhile_append_of_bars inner
    apply delimited.bars
    simp [isNameChar_of_lt]
  unfold scanToken
  rw [if_neg (by simp [visible]), if_neg (other _ (by decide)), if_neg (other _ (by decide)),
    if_neg (other _ (by decide)), if_neg, if_neg, if_neg, if_neg, if_pos start]
  · simp only [taken]
  · simp [noDigit, other '-' (by decide)]
  · exact not_or.mpr ⟨other _ (by decide), other _ (by decide)⟩
  · exact not_or.mpr ⟨other _ (by decide), other _ (by decide)⟩
  · simp only [not_or]
    exact ⟨other _ (by decide), other _ (by decide), other _ (by decide), other _ (by decide)⟩

theorem word (start : isNameStart c = true)
    (inner : ∀ w ∈ text, (isNameChar w || decide (w = '.')) = true) :
    Scans (c :: text) [wordToken (c :: text)] :=
  of_scanToken fun _ delimited => scanToken_of_word start inner delimited

theorem keyword {token : Token} (all : (c :: text).all isPlainNameStart = true)
    (same : wordToken (c :: text) = token) : Scans (c :: text) [token] := by
  rw [List.all_eq_true] at all
  rw [← same]
  apply word
  · exact isNameStart_of_isPlainNameStart (all c List.mem_cons_self)
  · intro w member
    have start := isNameStart_of_isPlainNameStart (all w (List.mem_cons_of_mem c member))
    rw [isNameChar_of_isNameStart start]
    rfl

theorem separated (h : Scans text ts) (h' : Scans text' us) :
    Scans (text ++ ([',', ' '] ++ text')) (ts ++ .comma :: us) :=
  h.append h'.blank.comma rfl

theorem range (h : Scans text ts) :
    Scans ("range(".toList ++ text ++ [')']) (.word rangeWord :: .openParen :: ts ++ [.closeParen]) := by
  have name : Scans ['r', 'a', 'n', 'g', 'e'] [.word rangeWord] :=
    keyword (by decide) (by decide)
  exact name.append h.parentheses rfl

/-- A list or a mapping, between its brackets. -/
theorem enclosed {value : Value} (plain : value.Plain Value.maxDepth)
    (compound : value.isScalar = false) : Scans value.compact [.literal value] := by
  obtain ⟨c, closing, inner, opens, -, whole, -⟩ :=
    exists_enclosed (Value.container_compact plain compound)
  rw [whole]
  apply of_scanToken
  intro rest _
  have token := bracketToken_compact plain compound whole rest
  have visible : isBlank c = false := by rcases opens with rfl | rfl <;> decide
  have noOperator : ¬ (c = '=' ∨ c = '!' ∨ c = '<' ∨ c = '>') := by
    rcases opens with rfl | rfl <;> decide
  have noQuote : ¬ (c = '"' ∨ c = '\'') := by rcases opens with rfl | rfl <;> decide
  have other : c ≠ '(' ∧ c ≠ ')' ∧ c ≠ ',' := by rcases opens with rfl | rfl <;> decide
  unfold scanToken
  rw [if_neg (by simp [visible]), if_neg other.1, if_neg other.2.1, if_neg other.2.2,
    if_neg noOperator, if_neg noQuote, if_pos opens, token]
  rfl

theorem literal {value : Value} (named : Expr.IsLiteral value) :
    Scans (Expr.literalText value) [.literal value] := by
  obtain ⟨plain, signed⟩ := named
  cases value with
  | null =>
    have null : Scans ['n', 'u', 'l', 'l'] [.literal .null] := keyword (by decide) (by decide)
    exact null
  | bool b =>
    cases b with
    | true =>
      have yes : Scans ['t', 'r', 'u', 'e'] [.literal (.bool true)] := keyword (by decide) (by decide)
      exact yes
    | false =>
      have no : Scans ['f', 'a', 'l', 's', 'e'] [.literal (.bool false)] :=
        keyword (by decide) (by decide)
      exact no
  | num n =>
    cases n with
    | int n => exact int (signed n rfl)
    | float x => cases plain
  | str s => exact string s
  | list | map => exact enclosed plain rfl

end Scans

/-- A path starts like a name, and goes on with characters of names and points. -/
theorem exists_of_ofText? {place : VarPath} (h : VarPath.ofText? text = some place) :
    ∃ c more, text = c :: more ∧ isNameStart c = true ∧
      ∀ w ∈ more, (isNameChar w || decide (w = '.')) = true := by
  obtain ⟨root, rest, parts, identifier, segments⟩ : ∃ root rest,
      pieces (· = '.') text = root :: rest ∧ isIdentifier root = true ∧
        ∀ segment ∈ rest, VarPath.isSegment segment = true := by
    unfold VarPath.ofText? at h
    split at h
    · next root rest parts =>
      split at h
      · next valid =>
        rw [Bool.and_eq_true, List.all_eq_true] at valid
        exact ⟨root, rest, parts, valid⟩
      · cases h
    · cases h
  obtain ⟨first, others, rfl⟩ : ∃ first others, root = first :: others := by
    cases root with
    | nil => cases identifier
    | cons first others => exact ⟨first, others, rfl⟩
  rw [isIdentifier, Bool.and_eq_true, List.all_eq_true] at identifier
  have inner : ∀ piece ∈ (first :: others) :: rest, ∀ w ∈ piece, isNameChar w = true := by
    intro piece member w inside
    rcases List.mem_cons.mp member with rfl | later
    · rcases List.mem_cons.mp inside with rfl | other
      · exact isNameChar_of_isNameStart identifier.1
      · exact identifier.2 w other
    · have segment := segments piece later
      rw [VarPath.isSegment, Bool.and_eq_true, List.all_eq_true] at segment
      exact segment.2 w inside
  cases text with
  | nil => cases parts
  | cons c more =>
    cases point : decide (c = '.') with
    | true =>
      rw [pieces_cons_of_separates (p := (· = '.')) point] at parts
      cases parts
    | false =>
      obtain ⟨behind, later, _, whole⟩ := pieces_cons_of_not (p := (· = '.')) point more
      rw [whole] at parts
      obtain rfl : c = first := by cases parts; rfl
      refine ⟨c, more, rfl, identifier.1, ?_⟩
      intro w member
      cases separates : decide (w = '.') with
      | true => simp
      | false =>
        obtain ⟨piece, inside, holds⟩ := exists_piece (p := (· = '.'))
          (List.mem_cons_of_mem c member) separates
        rw [whole, parts] at inside
        rw [inner piece inside w holds]
        rfl

/-! ### Texts and their expressions -/

/-- A text that is an expression at a level of the grammar. -/
def Shows (level : Level) (text : List Char) (e : Expr) : Prop :=
  ∃ ts, Scans text ts ∧ Derives level ts e

namespace Shows

variable {lhs rhs e joined : Expr} {level level' : Level}

theorem of_operand (h : Shows .operand text e) : Shows .disjunction text e := by
  obtain ⟨ts, scans, derived⟩ := h
  exact ⟨ts, scans, .conjunction (.negation (.comparison (.operand derived)))⟩

theorem of_comparison (h : Shows .comparison text e) : Shows .disjunction text e := by
  obtain ⟨ts, scans, derived⟩ := h
  exact ⟨ts, scans, .conjunction (.negation (.comparison derived))⟩

theorem parentheses (h : Shows .disjunction text e) : Shows .operand ('(' :: text ++ [')']) e := by
  obtain ⟨ts, scans, derived⟩ := h
  exact ⟨_, scans.parentheses, .parentheses derived⟩

/-- Two operands with an operator between them. -/
theorem operator {symbol : String} {marks : List Token} (scans : Scans symbol.toList marks)
    (left : Shows .operand text lhs) (right : Shows .operand text' rhs)
    (derives : ∀ ts us, Derives .operand ts lhs → Derives .operand us rhs →
      Derives level (ts ++ (marks ++ us)) joined) :
    Shows level (Expr.operatorText text symbol text') joined := by
  obtain ⟨ts, first, derived⟩ := left
  obtain ⟨us, second, derived'⟩ := right
  refine ⟨ts ++ (marks ++ us), ?_, derives ts us derived derived'⟩
  have behind : Scans (symbol.toList ++ ' ' :: text') (marks ++ us) :=
    scans.append second.blank rfl
  rw [Expr.operatorText, List.append_assoc, List.cons_append]
  exact first.append behind.blank rfl

theorem enclose_operand (p : Expr.Parentheses) (shown : Shows .disjunction text e)
    (bare : e.isCompound = false → Shows .operand text e) :
    Shows .operand (Expr.enclose (p.operand e) text) e := by
  cases wrapped : p.operand e with
  | true => exact shown.parentheses
  | false =>
    refine bare (Bool.eq_false_iff.mpr fun compound => ?_)
    rw [p.compound e compound] at wrapped
    cases wrapped

theorem enclose_argument (wrapped : Bool) (shown : Shows .disjunction text e) :
    Shows .disjunction (Expr.enclose wrapped text) e := by
  cases wrapped with
  | true => exact shown.parentheses.of_operand
  | false => exact shown

theorem compare {op : CompareOp} (left : Shows .operand text lhs)
    (right : Shows .operand text' rhs) :
    Shows .disjunction (Expr.operatorText text op.symbol text') (.compare op lhs rhs) :=
  (operator (.compare op) left right fun _ _ => .compare).of_comparison

theorem membership (negated : Bool) (left : Shows .operand text lhs)
    (right : Shows .operand text' rhs) :
    Shows .disjunction (Expr.operatorText text (if negated then "not in" else "in") text')
      (.membership negated lhs rhs) := by
  have inside : Scans "in".toList [.word inWord] := Scans.keyword (by decide) (by decide)
  cases negated with
  | true =>
    have outside : Scans "not in".toList [.word notWord, .word inWord] := by
      have no : Scans ['n', 'o', 't'] [.word notWord] := Scans.keyword (by decide) (by decide)
      exact no.append inside.blank rfl
    exact (operator outside left right fun _ _ => .notMember).of_comparison
  | false => exact (operator inside left right fun _ _ => .member).of_comparison

theorem and (left : Shows .operand text lhs) (right : Shows .operand text' rhs) :
    Shows .disjunction (Expr.operatorText text "and" text') (.and lhs rhs) := by
  have both : Scans "and".toList [.word andWord] := Scans.keyword (by decide) (by decide)
  have shown : Shows .conjunction (Expr.operatorText text "and" text') (.and lhs rhs) :=
    operator both left right fun _ _ first second =>
      .and (.negation (.comparison (.operand first))) (.comparison (.operand second))
  obtain ⟨ts, scans, derived⟩ := shown
  exact ⟨ts, scans, .conjunction derived⟩

theorem or (left : Shows .operand text lhs) (right : Shows .operand text' rhs) :
    Shows .disjunction (Expr.operatorText text "or" text') (.or lhs rhs) := by
  have either : Scans "or".toList [.word orWord] := Scans.keyword (by decide) (by decide)
  exact operator either left right fun _ _ first second =>
    .or (.conjunction (.negation (.comparison (.operand first))))
      (.negation (.comparison (.operand second)))

theorem not (shown : Shows .operand text e) :
    Shows .disjunction ("not ".toList ++ text) (.not e) := by
  obtain ⟨ts, scans, derived⟩ := shown
  have no : Scans ['n', 'o', 't'] [.word notWord] := Scans.keyword (by decide) (by decide)
  have negated := Derives.not (.comparison (.operand derived))
  exact ⟨_, no.append scans.blank rfl, .conjunction (.negation negated)⟩

theorem literal {value : Value} (named : Expr.IsLiteral value) :
    Shows .operand (Expr.literalText value) (.literal value) :=
  ⟨_, .literal named, .literal⟩

theorem path {place : VarPath} (read : VarPath.ofText? place.text.toList = some place)
    (noOperator : place.text ∉ ["and", "or", "not", "in"])
    (noConstant : lowerAscii place.text.toList ∉ ["true", "false", "null", "none"].map String.toList) :
    Shows .operand place.text.toList (.path place) := by
  have free : place.text.toList ∉ [andWord, orWord, notWord, inWord] := by
    intro operator
    apply noOperator
    have mapped := List.mem_map_of_mem (f := String.ofList) operator
    rwa [String.ofList_toList] at mapped
  have itself : wordToken place.text.toList = .word place.text.toList := by
    simp only [List.map_cons, List.map_nil, List.mem_cons, List.not_mem_nil, or_false,
      not_or] at noConstant
    obtain ⟨noTrue, noFalse, noNull, noNone⟩ := noConstant
    unfold wordToken
    exact (if_neg noTrue).trans ((if_neg noFalse).trans (if_neg (not_or.mpr ⟨noNull, noNone⟩)))
  obtain ⟨c, more, whole, start, inner⟩ := exists_of_ofText? read
  have scans := Scans.word start inner
  rw [← whole, itself] at scans
  exact ⟨_, scans, .path free read⟩

theorem range {start step : Option Expr} {stop : Expr} (texts : Expr → List Char)
    (first : ∀ e ∈ start, Shows .disjunction (texts e) e)
    (last : Shows .disjunction (texts stop) stop)
    (third : ∀ e ∈ step, Shows .disjunction (texts e) e) (ordered : step.isSome → start.isSome) :
    Shows .operand (Expr.rangeText (start.map texts) (texts stop) (step.map texts))
      (.range start stop step) := by
  obtain ⟨us, scans, derived⟩ := last
  cases start with
  | none =>
    cases step with
    | none =>
      have joined : [',', ' '].intercalate [texts stop] = texts stop := by simp
      have whole := scans.range
      rw [← joined] at whole
      exact ⟨_, whole, .rangeTo derived⟩
    | some _ => cases ordered rfl
  | some low =>
    obtain ⟨ts, scans', derived'⟩ := first low rfl
    cases step with
    | none =>
      have joined : [',', ' '].intercalate [texts low, texts stop] =
          texts low ++ ([',', ' '] ++ texts stop) := by simp
      have whole := (scans'.separated scans).range
      rw [← joined] at whole
      exact ⟨_, whole, .rangeFrom derived' derived⟩
    | some pace =>
      obtain ⟨vs, scans'', derived''⟩ := third pace rfl
      have joined : [',', ' '].intercalate [texts low, texts stop, texts pace] =
          texts low ++ ([',', ' '] ++ (texts stop ++ ([',', ' '] ++ texts pace))) := by simp
      have whole := (scans'.separated (scans.separated scans'')).range
      rw [← joined] at whole
      refine ⟨_, whole, ?_⟩
      have tokens := Derives.rangeBy derived' derived derived''
      simp only [List.append_assoc, List.cons_append] at tokens ⊢
      exact tokens

end Shows

end Source

namespace Expr

/-- An expression is read from its text. -/
theorem shows_print (p : Parentheses) {e : Expr} (printable : Printable e) :
    Source.Shows .disjunction (e.print p) e ∧
      (e.isCompound = false → Source.Shows .operand (e.print p) e) := by
  induction printable with
  | literal named =>
    rw [print]
    have shown := Source.Shows.literal named
    exact ⟨shown.of_operand, fun _ => shown⟩
  | path read noOperator noConstant =>
    rw [print]
    have shown := Source.Shows.path read noOperator noConstant
    exact ⟨shown.of_operand, fun _ => shown⟩
  | compare _ _ left right =>
    rw [print]
    exact ⟨.compare (.enclose_operand p left.1 left.2) (.enclose_operand p right.1 right.2), nofun⟩
  | @membership negated _ _ _ _ left right =>
    rw [print]
    exact ⟨.membership negated (.enclose_operand p left.1 left.2)
      (.enclose_operand p right.1 right.2), nofun⟩
  | not _ shown =>
    rw [print]
    exact ⟨.not (.enclose_operand p shown.1 shown.2), nofun⟩
  | and _ _ left right =>
    rw [print]
    exact ⟨.and (.enclose_operand p left.1 left.2) (.enclose_operand p right.1 right.2), nofun⟩
  | or _ _ left right =>
    rw [print]
    exact ⟨.or (.enclose_operand p left.1 left.2) (.enclose_operand p right.1 right.2), nofun⟩
  | @range start step stop _ _ _ ordered first last third =>
    have shown : Source.Shows .operand (print p (.range start stop step)) (.range start stop step) := by
      have ranged := Source.Shows.range (fun e => enclose (p.argument e) (print p e))
        (fun e member => .enclose_argument _ (first e member).1) (.enclose_argument _ last.1)
        (fun e member => .enclose_argument _ (third e member).1) ordered
      unfold print
      cases start <;> cases step <;> exact ranged
    exact ⟨shown.of_operand, fun _ => shown⟩

theorem parse_print (p : Parentheses) {e : Expr} (printable : Printable e) :
    Expr.parse (.ofList (e.print p)) = .ok e := by
  obtain ⟨ts, scans, derived⟩ := (shows_print p printable).1
  have tokens := scans [] [] nofun .nil
  rw [List.append_nil, List.append_nil] at tokens
  rw [Expr.parse_ok_iff, String.toList_ofList]
  exact ⟨ts, tokens, derived⟩

/-- Quotes and brackets in strings, a path with the name of a range, and a negative bound. -/
theorem parse_print_of_nested :
    let key : Value := .map [("]\"", .list [.int (-7), .str "\\", .null])]
    let e : Expr := .and
      (.not (.membership true (.literal (.str "say \"or\"\n")) (.path ⟨"range", ["0"]⟩)))
      (.compare .le (.range (some (.literal (.int (-3)))) (.path ⟨"range", []⟩) (some (.or
        (.literal key) (.literal (.bool true))))) (.literal .null))
    Printable e ∧ Expr.parse (.ofList (e.print .fewest)) = .ok e := by
  intro key e
  have minusSeven : fitsInteger (-7) = true := by decide
  have named : IsLiteral key := by
    refine ⟨.map (by decide) ?_, nofun⟩
    intro entry member
    obtain rfl := List.mem_singleton.mp member
    apply Value.Plain.list
    intro item member
    simp only [List.mem_cons, List.not_mem_nil, or_false] at member
    rcases member with rfl | rfl | rfl
    · exact .int minusSeven
    · exact .str _
    · exact .null
  have minusThree : IsLiteral (.int (-3)) := by
    refine ⟨.int (by decide), ?_⟩
    rintro n same
    cases same
    decide
  have string : IsLiteral (.str "say \"or\"\n") := ⟨.str _, nofun⟩
  have yes : IsLiteral (.bool true) := ⟨.bool _, nofun⟩
  have null : IsLiteral .null := ⟨.null, nofun⟩
  have item : Printable (.path ⟨"range", ["0"]⟩) :=
    .path (by decide +kernel) (by decide +kernel) (by decide +kernel)
  have name : Printable (.path ⟨"range", []⟩) :=
    .path (by decide +kernel) (by decide +kernel) (by decide +kernel)
  have range : Printable (.range (some (.literal (.int (-3)))) (.path ⟨"range", []⟩)
      (some (.or (.literal key) (.literal (.bool true))))) := by
    refine .range ?_ name ?_ fun _ => rfl
    · intro e member
      cases member
      exact .literal minusThree
    · intro e member
      cases member
      exact .or (.literal named) (.literal yes)
  have printable : Printable e :=
    .and (.not (.membership (.literal string) item)) (.compare range (.literal null))
  exact ⟨printable, parse_print .fewest printable⟩

end Expr

end PromptScript
