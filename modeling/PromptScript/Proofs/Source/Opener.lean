import Mathlib
import PromptScript.Proofs.Source.Leaf

/-!
Openers that end with their colon and leave their bodies to the lines inside them.
-/
namespace PromptScript

/-- Whether a loop can go over what an expression stands for. -/
def Expr.isIterable : Expr → Bool
  | .path _ | .range .. => true
  | _ => false

namespace Source

open Text

variable {s : Span} {e : Expr} {front body rest : List Char} {c : Char}

/-! ### What stands in front of a colon -/

/-- A text that the searches for a colon and for the end of a line step over. -/
structure Passes (body : List Char) : Prop where
  single : '\n' ∉ body
  colon : ∀ rest, colonIndex 0 none (body ++ ':' :: rest) = some body.length
  line : ∀ offset rest, lineLength .code offset (body ++ rest) =
    (lineLength .code (offset + body.length) rest).map (· + body.length)

namespace Passes

theorem nil : Passes [] where
  single := List.not_mem_nil
  colon rest := by simp [colonIndex, isQuote]
  line offset rest := by
    rw [List.nil_append, List.length_nil, Nat.add_zero]
    cases lineLength .code offset rest <;> rfl

theorem expr (read : readExpr s = .ok e) (single : '\n' ∉ s.text) : Passes s.text :=
  ⟨single, colonIndex_expr read, lineLength_expr read single⟩

end Passes

theorem scanToken_space (rest : List Char) : scanToken ' ' rest = .ok (none, 0) := by
  rw [scanToken, if_pos (by decide)]

/-- A blank in front of an expression changes nothing, and neither does its place. -/
theorem readExpr_space {text : List Char} (h : readExpr ⟨0, text⟩ = .ok e) (start : Nat) :
    readExpr ⟨start, ' ' :: text⟩ = .ok e := by
  obtain ⟨ts, tokens, derived⟩ := readExpr_ok_iff.mp h
  have behind := Tokens.cons (scanToken_space text) tokens
  exact readExpr_ok_iff.mpr ⟨ts, behind, derived⟩

/-! ### Openers as lines -/

theorem trimEnd_colon (text : List Char) : trimEnd (text ++ [':']) = text ++ [':'] := by
  rw [trimEnd, trimEndOf, List.reverse_concat, List.dropWhile_cons_of_neg (by decide),
    List.reverse_cons, List.reverse_reverse]

/-- A text that starts with a character of a name. -/
def StartsNamed (text : List Char) : Prop :=
  ∃ c more, text = c :: more ∧ isNameChar c = true

theorem StartsNamed.append (named : StartsNamed front) (rest : List Char) :
    StartsNamed (front ++ rest) := by
  obtain ⟨c, more, rfl, name⟩ := named
  exact ⟨c, more ++ rest, rfl, name⟩

theorem StartsNamed.bars (named : StartsNamed front) : Bars isBlank front := by
  obtain ⟨c, more, rfl, name⟩ := named
  exact bars_cons (not_isBlank_of_isNameChar name)

theorem StartsNamed.ne (named : StartsNamed front) (none : isNameChar c = false) :
    ∀ d ∈ front.head?, d ≠ c := by
  obtain ⟨d, more, rfl, name⟩ := named
  rintro _ ⟨⟩ rfl
  rw [none] at name
  cases name

theorem isLine_opener (named : StartsNamed front) (plain : ∀ c ∈ front, isPlain c = true)
    (single : '\n' ∉ front) (passes : Passes body) : IsLine (front ++ (body ++ [':'])) := by
  have whole := named.append (body ++ [':'])
  -- Neither the keyword nor what follows it opens anything, up to the colon.
  have goesOn : GoesOn front := by
    refine .of_forall fun c member => ?_
    have noNewline : c ≠ '\n' := fun same => single (same ▸ member)
    have := plain c member
    simp only [isPlain, Bool.and_eq_true] at this
    simp [isInert, noNewline, this]
  have colon : GoesOn [':'] := .char (by decide)
  obtain ⟨c, more, same, name⟩ := whole
  refine (goesOn.append (.append passes.line colon)).isLine ?_ (named.append _).bars ?_ ?_ ?_
  · simp [single, passes.single]
  · rw [same]
    exact List.cons_ne_nil c more
  · rintro slash
    rw [same] at slash
    cases slash
    rw [isNameChar_of_lt (by decide)] at name
    exact absurd name (by decide)
  · rw [← List.append_assoc]
    exact .of_suffix (List.suffix_append _ _) (List.cons_ne_nil _ _) (.char (by decide))

theorem isBody_opener (named : StartsNamed front) : IsBody (front ++ (body ++ [':'])) := by
  have whole := named.append (body ++ [':'])
  refine .of_head fun c member => ⟨whole.ne ?_ c member, whole.ne ?_ c member⟩ <;>
    · rw [isNameChar_of_lt (by decide)]
      decide

theorem Span.trimStart_space (bars : Bars isBlank rest) (start : Nat) :
    (⟨start, ' ' :: rest⟩ : Span).trimStart = ⟨start + 1, rest⟩ := by
  have blank : ∀ c ∈ [' '], isBlank c = true := List.forall_mem_singleton.mpr (by decide)
  have space : ([' '] ++ rest).takeWhile isBlank = [' '] := takeWhile_append_of_bars blank bars
  rw [List.singleton_append] at space
  rw [Span.trimStart, space]
  rfl

theorem Span.drop_append (start : Nat) (front rest : List Char) :
    (⟨start, front ++ rest⟩ : Span).drop front.length = ⟨start + front.length, rest⟩ := by
  rw [Span.drop, List.drop_left]

/-! ### Clauses -/

def ClauseKind.word : ClauseKind → List Char
  | .ifClause => ifWord
  | .elifClause => elifWord
  | .elseClause => elseWord

variable {kind : ClauseKind} {condition : Option Expr}

theorem ofWord?_word (kind : ClauseKind) : ClauseKind.ofWord? kind.word = some kind := by
  cases kind <;> rfl

theorem isNameChar_of_ascii {word : List Char}
    (ascii : (word.all fun c => c.toNat < 128 && c.isAlphanum) = true) :
    ∀ c ∈ word, isNameChar c = true := by
  intro c member
  have holds := List.all_eq_true.mp ascii c member
  rw [Bool.and_eq_true, decide_eq_true_eq] at holds
  rw [isNameChar_of_lt holds.1, holds.2, Bool.true_or]

theorem isNameChar_of_mem_word (kind : ClauseKind) : ∀ c ∈ kind.word, isNameChar c = true := by
  cases kind <;> exact isNameChar_of_ascii (by decide)

/-- A clause whose body is left to the lines inside its line. -/
theorem readClauses_opener (indent : Nat) (same : s.text = kind.word ++ (body ++ [':']))
    (bars : Bars isNameChar (body ++ [':'])) (passes : Passes body)
    (read : ∀ start, readCondition kind ⟨start, body ++ [':']⟩ body.length = .ok condition) :
    ∃ found opener, readClauses indent false true s = .ok found ∧
      found.value = [⟨kind, condition, none, opener⟩] ∧ found.rest.text = [] := by
  have word : s.word = kind.word := by
    rw [Span.word, same]
    exact takeWhile_append_of_bars (isNameChar_of_mem_word kind) bars
  have behind : s.drop s.word.length = ⟨s.start + kind.word.length, body ++ [':']⟩ := by
    rw [word, Span.drop, same, List.drop_left]
  have colon : openerColon s (s.drop s.word.length) = .ok body.length := by
    rw [behind, openerColon, passes.colon]
  have condition : readCondition kind (s.drop s.word.length) body.length = .ok condition := by
    rw [behind, read]
  -- Nothing stands behind the colon, so the body is not on the line.
  have done : (s.drop (s.word.length + body.length + 1)).trimStart.text = [] := by
    have nothing : s.text.drop (s.word.length + body.length + 1) = [] := by
      refine List.drop_eq_nil_of_le (le_of_eq ?_)
      simp only [same, word, List.length_append, List.length_singleton, Nat.add_assoc]
    rw [Span.text_trimStart, Span.text_drop, nothing]
    rfl
  unfold readClauses
  split
  · next other =>
    rw [word, ofWord?_word] at other
    cases other
  · next found =>
    rw [word, ofWord?_word] at found
    cases found
    simp only [Bool.not_true, Bool.false_eq_true, false_and, if_false, colon, condition, bind,
      Except.bind, done, List.isEmpty_nil, if_true]
    exact ⟨_, _, rfl, rfl, done⟩

/-- The line of an opener. -/
theorem lead_of_kind (kind : ClauseKind) (rest : List Char) :
    Lead.ofText (kind.word ++ rest) = .other := by
  cases kind <;> rfl

theorem startsNamed_word (kind : ClauseKind) : StartsNamed kind.word := by
  cases kind <;> exact ⟨_, _, rfl, isNameChar_of_isNameStart (by decide)⟩

theorem readStatement_clause {line : LogicalLine} (same : line.span.text = kind.word ++ (body ++ [':']))
    (bars : Bars isNameChar (body ++ [':'])) (passes : Passes body)
    (read : ∀ start, readCondition kind ⟨start, body ++ [':']⟩ body.length = .ok condition) :
    ∃ opener, readStatement line = .ok (.chain [⟨kind, condition, none, opener⟩]) := by
  have visible : Bars isBlank line.span.text := by
    rw [same]
    exact ((startsNamed_word kind).append _).bars
  have start : line.span.trimStart.text = kind.word ++ (body ++ [':']) := by
    rw [Span.text_trimStart_of_bars visible, same]
  have word : line.span.trimStart.word = kind.word := by
    rw [Span.word, start]
    exact takeWhile_append_of_bars (isNameChar_of_mem_word kind) bars
  have lead : Lead.ofText line.span.trimStart.text = .other := by rw [start, lead_of_kind]
  obtain ⟨⟨clauses, rest, _⟩, opener, found, rfl, nothing⟩ :=
    readClauses_opener line.indent start bars passes read
  refine ⟨opener, ?_⟩
  have finished : expectEnd rest (Statement.chain [⟨kind, condition, none, opener⟩]) = .ok _ :=
    expectEnd_ok_iff.mpr ⟨by rw [nothing]; rfl, rfl⟩
  simp only [readStatement, lead, word, ofWord?_word, Option.isSome_some, if_true, found, bind,
    Except.bind, finished]

/-! ### Loops -/

theorem not_isNameChar_space : isNameChar ' ' = false :=
  not_isNameChar_of_isBlank (by decide)

theorem startsNamed_of_isIdentifier {name : List Char} (h : isIdentifier name = true) :
    StartsNamed name := by
  cases name with
  | nil => cases h
  | cons first more => exact ⟨first, more, rfl, isNameChar_of_isIdentifier h List.mem_cons_self⟩

theorem startsNamed_in : StartsNamed inWord :=
  ⟨_, _, rfl, isNameChar_of_isNameStart (by decide)⟩

variable {var : List Char}

/-- The opener of a loop, up to its colon. -/
theorem readLoopHead_opener
    (same : s.text = forWord ++ ' ' :: (var ++ ' ' :: (inWord ++ (body ++ [':']))))
    (identifier : isIdentifier var = true) (bars : Bars isNameChar (body ++ [':']))
    (passes : Passes body) (read : ∀ start, readExpr ⟨start, body⟩ = .ok e)
    (iterable : e.isIterable = true) :
    ∃ opener n, readLoopHead s = .ok (⟨.ofList var, e, opener⟩, n) ∧ s.text.length = n + 1 := by
  have afterFor : (s.drop 3).trimStart =
      ⟨s.start + 3 + 1, var ++ ' ' :: (inWord ++ (body ++ [':']))⟩ := by
    have drop : s.drop 3 = ⟨s.start + 3, ' ' :: (var ++ ' ' :: (inWord ++ (body ++ [':'])))⟩ := by
      rw [Span.drop, same]
      rfl
    rw [drop]
    exact Span.trimStart_space ((startsNamed_of_isIdentifier identifier).append _).bars _
  have var_word (start : Nat) :
      (⟨start, var ++ ' ' :: (inWord ++ (body ++ [':']))⟩ : Span).word = var :=
    takeWhile_append_of_bars (fun c => isNameChar_of_isIdentifier identifier)
      (bars_cons not_isNameChar_space)
  have afterVar (start : Nat) :
      ((⟨start, var ++ ' ' :: (inWord ++ (body ++ [':']))⟩ : Span).drop var.length).trimStart =
        ⟨start + var.length + 1, inWord ++ (body ++ [':'])⟩ := by
    rw [Span.drop_append]
    exact Span.trimStart_space (startsNamed_in.append _).bars _
  have in_word (start : Nat) : (⟨start, inWord ++ (body ++ [':'])⟩ : Span).word = inWord :=
    takeWhile_append_of_bars (isNameChar_of_ascii (by decide)) bars
  have afterIn (start : Nat) : (⟨start, inWord ++ (body ++ [':'])⟩ : Span).drop 2 =
      ⟨start + 2, body ++ [':']⟩ := rfl
  have colon (start : Nat) : openerColon s ⟨start, body ++ [':']⟩ = .ok body.length := by
    rw [openerColon, passes.colon]
  have taken (start : Nat) : (⟨start, body ++ [':']⟩ : Span).take body.length = ⟨start, body⟩ := by
    rw [Span.take, List.take_left]
  have length : s.text.length = 7 + var.length + body.length + 1 := by
    simp only [same, List.length_append, List.length_cons, List.length_nil, forWord, inWord]
    omega
  refine ⟨⟨.ofList (s.text.take (7 + var.length + body.length + 1)), s.start⟩,
    7 + var.length + body.length, ?_, length⟩
  -- The distance of the colon is taken from where the spans start.
  have place : s.start + 3 + 1 + var.length + 1 + 2 - s.start + body.length =
      7 + var.length + body.length := by omega
  unfold readLoopHead
  simp only [afterFor, var_word, identifier, Bool.not_true, Bool.false_eq_true, if_false, afterVar,
    in_word, ne_eq, not_true_eq_false, afterIn, colon, bind, Except.bind, taken, read, place]
  cases e with
  | path | range => rfl
  | _ => cases iterable

theorem readStatement_loop {line : LogicalLine}
    (same : line.span.text = forWord ++ ' ' :: (var ++ ' ' :: (inWord ++ (body ++ [':']))))
    (identifier : isIdentifier var = true) (bars : Bars isNameChar (body ++ [':']))
    (passes : Passes body) (read : ∀ start, readExpr ⟨start, body⟩ = .ok e)
    (iterable : e.isIterable = true) :
    ∃ opener, readStatement line = .ok (.loop ⟨.ofList var, e, opener⟩ none) := by
  have visible : Bars isBlank line.span.text := by
    rw [same]
    exact bars_cons (by decide)
  have start := (Span.text_trimStart_of_bars visible).trans same
  have word : line.span.trimStart.word = forWord := by
    rw [Span.word, start]
    exact takeWhile_append_of_bars (isNameChar_of_ascii (by decide)) (bars_cons not_isNameChar_space)
  have lead : Lead.ofText line.span.trimStart.text = .other := by
    rw [start]
    rfl
  have noClause : (ClauseKind.ofWord? forWord).isSome = false := rfl
  obtain ⟨opener, n, found, length⟩ :=
    readLoopHead_opener start identifier bars passes read iterable
  have done : (line.span.trimStart.drop (n + 1)).trimStart.text = [] := by
    rw [Span.text_trimStart, Span.text_drop, List.drop_eq_nil_of_le (le_of_eq length)]
    rfl
  refine ⟨opener, ?_⟩
  simp only [readStatement, lead, word, noClause, Bool.false_eq_true, if_false, if_true, readLoop,
    found, bind, Except.bind, done, List.isEmpty_nil]
  rfl

/-! ### Whether a chain goes on -/

theorem continuesChain_clause {line : LogicalLine}
    (same : line.span.text = kind.word ++ (body ++ [':'])) (bars : Bars isNameChar (body ++ [':'])) :
    continuesChain line = decide (kind ≠ .ifClause) := by
  have word : line.span.word = kind.word := by
    rw [Span.word, same]
    exact takeWhile_append_of_bars (isNameChar_of_mem_word kind) bars
  rw [continuesChain, word]
  cases kind <;> rfl

/-! ### Openers as they are written -/

/-- A condition on one line. -/
structure Condition where
  text : List Char
  expr : Expr
  single : '\n' ∉ text
  reads : Expr.parse (.ofList text) = .ok expr

/-- What a loop binds, and what it goes over: a path or a range, on one line. -/
structure Iteration where
  var : List Char
  text : List Char
  expr : Expr
  identifier : isIdentifier var = true
  single : '\n' ∉ text
  reads : Expr.parse (.ofList text) = .ok expr
  iterable : expr.isIterable = true

/-- The line of an `if` or an `elif`. -/
def Condition.line (condition : Condition) (kind : ClauseKind) : List Char :=
  kind.word ++ (' ' :: condition.text ++ [':'])

def elseLine : List Char :=
  elseWord ++ [':']

def Iteration.line (head : Iteration) : List Char :=
  forWord ++ ' ' :: (head.var ++ ' ' :: (inWord ++ (' ' :: head.text ++ [':'])))

theorem readExpr_of_parse {text : List Char} (h : Expr.parse (.ofList text) = .ok e) :
    readExpr ⟨0, text⟩ = .ok e := by
  have read := Computation.mapError_ok_iff.mp h
  rwa [String.toList_ofList] at read

theorem passes_of_parse {text : List Char} (h : Expr.parse (.ofList text) = .ok e)
    (single : '\n' ∉ text) : Passes (' ' :: text) :=
  .expr (readExpr_space (readExpr_of_parse h) 0) (by simp [single])

theorem not_mem_of_isNameChar (all : ∀ c ∈ front, isNameChar c = true) : '\n' ∉ front :=
  fun member => absurd (not_isNameChar_of_isBlank (by decide)) (Bool.not_eq_false _ ▸ all '\n' member)

theorem isLine_clause (kind : ClauseKind) (passes : Passes body) :
    IsLine (kind.word ++ (body ++ [':'])) := by
  have names := isNameChar_of_mem_word kind
  exact isLine_opener (startsNamed_word kind) (fun c member => isPlain_of_isNameChar (names c member))
    (not_mem_of_isNameChar names) passes

namespace Condition

variable (c : Condition) (kind : ClauseKind)

theorem isLine : IsLine (c.line kind) :=
  isLine_clause kind (passes_of_parse c.reads c.single)

theorem isBody : IsBody (c.line kind) :=
  isBody_opener (startsNamed_word kind)

theorem trimEnd_line : trimEnd (c.line kind) = c.line kind := by
  rw [Condition.line, ← List.append_assoc, trimEnd_colon]

variable {kind} {line : LogicalLine}

theorem read (same : line.span.text = trimEnd (c.line kind)) (conditional : kind ≠ .elseClause) :
    ∃ opener, readStatement line = .ok (.chain [⟨kind, some c.expr, none, opener⟩]) := by
  rw [trimEnd_line] at same
  refine readStatement_clause same (bars_cons not_isNameChar_space) (passes_of_parse c.reads c.single)
    fun start => ?_
  have read : readExpr ((⟨start, ' ' :: c.text ++ [':']⟩ : Span).take (' ' :: c.text).length) =
      .ok c.expr := by
    rw [Span.take, List.take_left]
    exact readExpr_space (readExpr_of_parse c.reads) start
  rw [readCondition, read]
  · rfl
  · exact conditional

theorem continues (same : line.span.text = trimEnd (c.line kind)) :
    continuesChain line = decide (kind ≠ .ifClause) := by
  rw [trimEnd_line] at same
  exact continuesChain_clause same (bars_cons not_isNameChar_space)

end Condition

theorem isLine_else : IsLine elseLine :=
  isLine_clause .elseClause .nil

variable {line : LogicalLine}

theorem text_else (same : line.span.text = trimEnd elseLine) :
    line.span.text = ClauseKind.elseClause.word ++ ([] ++ [':']) := by
  rwa [elseLine, trimEnd_colon] at same

theorem bars_else : Bars isNameChar ([] ++ [':']) := by
  refine bars_cons ?_
  rw [isNameChar_of_lt (by decide)]
  decide

theorem read_else (same : line.span.text = trimEnd elseLine) :
    ∃ opener, readStatement line = .ok (.chain [⟨.elseClause, none, none, opener⟩]) :=
  readStatement_clause (text_else same) bars_else .nil fun _ => rfl

theorem continues_else (same : line.span.text = trimEnd elseLine) : continuesChain line = true :=
  continuesChain_clause (text_else same) bars_else

namespace Iteration

variable (head : Iteration)

/-- The line of a loop up to what it goes over. -/
theorem line_eq : head.line =
    (forWord ++ ' ' :: (head.var ++ ' ' :: inWord)) ++ (' ' :: head.text ++ [':']) := by
  simp [Iteration.line]

theorem startsNamed : StartsNamed (forWord ++ ' ' :: (head.var ++ ' ' :: inWord)) :=
  ⟨_, _, rfl, isNameChar_of_isNameStart (by decide)⟩

theorem isLine : IsLine head.line := by
  have names : ∀ c ∈ head.var, isNameChar c = true :=
    fun c => isNameChar_of_isIdentifier head.identifier
  have words : ∀ c ∈ forWord ++ inWord, isNameChar c = true := isNameChar_of_ascii (by decide)
  have parts : ∀ c ∈ forWord ++ ' ' :: (head.var ++ ' ' :: inWord), c = ' ' ∨ isNameChar c = true := by
    intro c member
    simp only [List.mem_append, List.mem_cons] at member
    rcases member with here | rfl | here | rfl | here
    · exact .inr (words c (List.mem_append_left _ here))
    · exact .inl rfl
    · exact .inr (names c here)
    · exact .inl rfl
    · exact .inr (words c (List.mem_append_right _ here))
  rw [line_eq]
  refine isLine_opener head.startsNamed (fun c member => ?_) (fun member => ?_)
    (passes_of_parse head.reads head.single)
  · rcases parts c member with rfl | name
    · decide
    · exact isPlain_of_isNameChar name
  · rcases parts '\n' member with space | name
    · exact absurd space (by decide)
    · rw [not_isNameChar_of_isBlank (by decide)] at name
      cases name

theorem isBody : IsBody head.line := by
  rw [line_eq]
  exact isBody_opener head.startsNamed

theorem trimEnd_line : trimEnd head.line = head.line := by
  rw [line_eq, ← List.append_assoc, trimEnd_colon]

theorem read (same : line.span.text = trimEnd head.line) :
    ∃ opener, readStatement line = .ok (.loop ⟨.ofList head.var, head.expr, opener⟩ none) := by
  rw [trimEnd_line] at same
  exact readStatement_loop same head.identifier (bars_cons not_isNameChar_space)
    (passes_of_parse head.reads head.single)
    (fun start => readExpr_space (readExpr_of_parse head.reads) start) head.iterable

theorem continues (same : line.span.text = trimEnd head.line) : continuesChain line = false := by
  rw [trimEnd_line] at same
  have word : line.span.word = forWord := by
    rw [Span.word, same]
    exact takeWhile_append_of_bars (isNameChar_of_ascii (by decide)) (bars_cons not_isNameChar_space)
  rw [continuesChain, word]
  rfl

end Iteration

end Source

end PromptScript
