import PromptScript.Proofs.Source.Reader

/-!
The grammar of expressions, apart from any way to read it, and the reader measured against it: what
the reader makes of a sequence of tokens is what the grammar derives from that sequence, and the
grammar derives no two expressions from one sequence.
-/
namespace PromptScript.Source

/-- The levels of the grammar, from loose to tight. -/
inductive Level
  | disjunction
  | conjunction
  | negation
  | comparison
  | operand
deriving DecidableEq, Repr

/-- Which expression a sequence of tokens is at a level. Both connectives take what stands before them
as a whole, so that they group to the left. -/
inductive Derives : Level → List Token → Expr → Prop
  | conjunction {ts : List Token} {e : Expr} :
    Derives .conjunction ts e → Derives .disjunction ts e
  | or {ts us : List Token} {lhs rhs : Expr} :
    Derives .disjunction ts lhs → Derives .conjunction us rhs →
    Derives .disjunction (ts ++ .word orWord :: us) (.or lhs rhs)
  | negation {ts : List Token} {e : Expr} :
    Derives .negation ts e → Derives .conjunction ts e
  | and {ts us : List Token} {lhs rhs : Expr} :
    Derives .conjunction ts lhs → Derives .negation us rhs →
    Derives .conjunction (ts ++ .word andWord :: us) (.and lhs rhs)
  | comparison {ts : List Token} {e : Expr} :
    Derives .comparison ts e → Derives .negation ts e
  | not {ts : List Token} {e : Expr} :
    Derives .negation ts e → Derives .negation (.word notWord :: ts) (.not e)
  | operand {ts : List Token} {e : Expr} :
    Derives .operand ts e → Derives .comparison ts e
  | compare {ts us : List Token} {lhs rhs : Expr} {op : CompareOp} :
    Derives .operand ts lhs → Derives .operand us rhs →
    Derives .comparison (ts ++ .compare op :: us) (.compare op lhs rhs)
  | member {ts us : List Token} {lhs rhs : Expr} :
    Derives .operand ts lhs → Derives .operand us rhs →
    Derives .comparison (ts ++ .word inWord :: us) (.membership false lhs rhs)
  | notMember {ts us : List Token} {lhs rhs : Expr} :
    Derives .operand ts lhs → Derives .operand us rhs →
    Derives .comparison (ts ++ .word notWord :: .word inWord :: us) (.membership true lhs rhs)
  | literal {value : Value} : Derives .operand [.literal value] (.literal value)
  | path {word : List Char} {path : VarPath} :
    word ∉ [andWord, orWord, notWord, inWord] → VarPath.ofText? word = some path →
    Derives .operand [.word word] (.path path)
  | parentheses {ts : List Token} {e : Expr} :
    Derives .disjunction ts e → Derives .operand (.openParen :: ts ++ [.closeParen]) e
  | rangeTo {stops : List Token} {stop : Expr} :
    Derives .disjunction stops stop →
    Derives .operand (.word rangeWord :: .openParen :: stops ++ [.closeParen])
      (.range none stop none)
  | rangeFrom {starts stops : List Token} {start stop : Expr} :
    Derives .disjunction starts start → Derives .disjunction stops stop →
    Derives .operand (.word rangeWord :: .openParen :: starts ++ .comma :: stops ++ [.closeParen])
      (.range (some start) stop none)
  | rangeBy {starts stops steps : List Token} {start stop step : Expr} :
    Derives .disjunction starts start → Derives .disjunction stops stop →
    Derives .disjunction steps step →
    Derives .operand
      (.word rangeWord :: .openParen :: starts ++ .comma :: stops ++ .comma :: steps ++ [.closeParen])
      (.range (some start) stop (some step))

/-- The arguments of a range behind its first one. -/
inductive DerivesMore : List Token → List Expr → Prop
  | nil : DerivesMore [] []
  | cons {ts us : List Token} {e : Expr} {more : List Expr} :
    Derives .disjunction ts e → DerivesMore us more → DerivesMore (.comma :: ts ++ us) (e :: more)

variable {finish : Nat} {tokens rest : List LocatedToken} {t : LocatedToken} {e lhs : Expr}

/-! ### What is read is derived -/

/-- The tokens before `rest` are an expression at a level. -/
def Spans (level : Level) (tokens : List LocatedToken) (e : Expr) (rest : List LocatedToken) : Prop :=
  ∃ used, tokens = used ++ rest ∧ Derives level (used.map (·.token)) e

namespace Spans

variable {level level' level'' : Level} {between : List LocatedToken} {rhs joined : Expr}

theorem imp (h : Spans level tokens e rest)
    (derives : ∀ ts, Derives level ts e → Derives level' ts joined) :
    Spans level' tokens joined rest := by
  obtain ⟨used, rfl, derived⟩ := h
  exact ⟨used, rfl, derives _ derived⟩

theorem single (derived : Derives level [t.token] e) : Spans level (t :: rest) e rest :=
  ⟨[t], rfl, derived⟩

/-- Two operands with some tokens between them. -/
theorem join (marks : List LocatedToken) (h : Spans level tokens lhs (marks ++ between))
    (h' : Spans level' between rhs rest)
    (derives : ∀ ts us, Derives level ts lhs → Derives level' us rhs →
      Derives level'' (ts ++ (marks.map (·.token) ++ us)) joined) :
    Spans level'' tokens joined rest := by
  obtain ⟨used, rfl, first⟩ := h
  obtain ⟨more, rfl, second⟩ := h'
  refine ⟨used ++ (marks ++ more), by simp only [List.append_assoc], ?_⟩
  simpa only [List.map_append] using derives _ _ first second

end Spans

/-- A relation is written by the tokens that are counted, and derived with them. -/
theorem relationOf?_eq_some {relation : Relation} {taken : Nat}
    (h : relationOf? tokens = some (relation, taken)) :
    ∃ marks between, tokens = marks ++ between ∧ tokens.drop taken = between ∧
      ∀ {ts us : List Token} {lhs rhs : Expr}, Derives .operand ts lhs → Derives .operand us rhs →
        Derives .comparison (ts ++ (marks.map (·.token) ++ us)) (relation.apply lhs rhs) := by
  match tokens, h with
  | t :: more, h =>
    obtain ⟨token, offset⟩ := t
    cases token with
    | compare op => cases h; exact ⟨[_], more, rfl, rfl, .compare⟩
    | word word =>
      simp only [relationOf?] at h
      split at h
      · next isIn => cases h; subst isIn; exact ⟨[_], more, rfl, rfl, .member⟩
      · split at h
        · next isNot =>
          cases h
          obtain ⟨rfl, negates⟩ := isNot
          obtain ⟨u, behind, rfl, isIn⟩ := startsWithToken_iff.mp negates
          refine ⟨[_, u], behind, rfl, rfl, fun first second => ?_⟩
          simpa only [List.map_cons, isIn] using .notMember first second
        · cases h
    | _ => cases h

theorem rangeOf_ok {offset : Nat} {ts us : List Token} {first : Expr} {more : List Expr}
    (derived : Derives .disjunction ts first) (others : DerivesMore us more)
    (h : rangeOf offset (first :: more) = .ok e) :
    Derives .operand (.word rangeWord :: .openParen :: (ts ++ us) ++ [.closeParen]) e := by
  cases others with
  | nil => cases h; simpa using .rangeTo derived
  | cons second others =>
    cases others with
    | nil => cases h; simpa using Derives.rangeFrom derived second
    | cons third others =>
      cases others with
      | nil => cases h; simpa using Derives.rangeBy derived second third
      | cons => cases h

mutual

theorem spans_of_parseOr {tokens rest : List LocatedToken} {e : Expr}
    (h : Gives (parseOr finish tokens) e rest) : Spans .disjunction tokens e rest := by
  obtain ⟨lhs, between, first, more⟩ := parseOr_gives_iff.mp h
  have := first.shorter
  exact spans_of_parseOrRest ((spans_of_parseAnd first).imp fun _ => .conjunction) more
termination_by 8 * tokens.length + 6

theorem spans_of_parseOrRest {all tokens rest : List LocatedToken} {lhs e : Expr}
    (before : Spans .disjunction all lhs tokens) (h : Gives (parseOrRest finish lhs tokens) e rest) :
    Spans .disjunction all e rest := by
  match tokens, before, h with
  | [], before, h =>
    obtain ⟨rfl, rfl⟩ := (parseOrRest_gives_iff rfl).mp h
    exact before
  | t :: more, before, h =>
    by_cases isOr : t.token = .word orWord
    · obtain ⟨rhs, between, second, later⟩ := (parseOrRest_or_gives_iff isOr).mp h
      have := second.shorter
      refine spans_of_parseOrRest (before.join [t] (spans_of_parseAnd second) ?_) later
      simpa only [List.map_cons, isOr] using fun _ _ => .or
    · obtain ⟨rfl, rfl⟩ := (parseOrRest_gives_iff (startsWithToken_cons_of_ne isOr)).mp h
      exact before
termination_by 8 * tokens.length + 6

theorem spans_of_parseAnd {tokens rest : List LocatedToken} {e : Expr}
    (h : Gives (parseAnd finish tokens) e rest) : Spans .conjunction tokens e rest := by
  obtain ⟨lhs, between, first, more⟩ := parseAnd_gives_iff.mp h
  have := first.shorter
  exact spans_of_parseAndRest ((spans_of_parseNot first).imp fun _ => .negation) more
termination_by 8 * tokens.length + 4

theorem spans_of_parseAndRest {all tokens rest : List LocatedToken} {lhs e : Expr}
    (before : Spans .conjunction all lhs tokens)
    (h : Gives (parseAndRest finish lhs tokens) e rest) : Spans .conjunction all e rest := by
  match tokens, before, h with
  | [], before, h =>
    obtain ⟨rfl, rfl⟩ := (parseAndRest_gives_iff rfl).mp h
    exact before
  | t :: more, before, h =>
    by_cases isAnd : t.token = .word andWord
    · obtain ⟨rhs, between, second, later⟩ := (parseAndRest_and_gives_iff isAnd).mp h
      have := second.shorter
      refine spans_of_parseAndRest (before.join [t] (spans_of_parseNot second) ?_) later
      simpa only [List.map_cons, isAnd] using fun _ _ => .and
    · obtain ⟨rfl, rfl⟩ := (parseAndRest_gives_iff (startsWithToken_cons_of_ne isAnd)).mp h
      exact before
termination_by 8 * tokens.length + 4

theorem spans_of_parseNot {tokens rest : List LocatedToken} {e : Expr}
    (h : Gives (parseNot finish tokens) e rest) : Spans .negation tokens e rest := by
  match tokens, h with
  | [], h => exact (spans_of_parseComparison ((parseNot_gives_iff rfl).mp h)).imp fun _ => .comparison
  | t :: more, h =>
    by_cases isNot : t.token = .word notWord
    · obtain ⟨operand, inner, rfl⟩ := (parseNot_not_gives_iff isNot).mp h
      obtain ⟨used, rfl, derived⟩ := spans_of_parseNot inner
      exact ⟨t :: used, rfl, by simpa only [List.map_cons, isNot] using .not derived⟩
    · have inner := (parseNot_gives_iff (startsWithToken_cons_of_ne isNot)).mp h
      exact (spans_of_parseComparison inner).imp fun _ => .comparison
termination_by 8 * tokens.length + 2

theorem spans_of_parseComparison {tokens rest : List LocatedToken} {e : Expr}
    (h : Gives (parseComparison finish tokens) e rest) : Spans .comparison tokens e rest := by
  obtain ⟨lhs, between, first, more⟩ := parseComparison_gives_iff.mp h
  have left := spans_of_parsePrimary first
  cases related : relationOf? between with
  | none =>
    simp only [related] at more
    obtain ⟨rfl, rfl⟩ := more
    exact left.imp fun _ => .operand
  | some found =>
    obtain ⟨relation, taken⟩ := found
    simp only [related] at more
    obtain ⟨rhs, second, rfl⟩ := more
    obtain ⟨marks, behind, rfl, dropped, derives⟩ := relationOf?_eq_some related
    have := first.shorter
    have : (marks ++ behind).drop taken = behind := dropped
    have : behind.length ≤ (marks ++ behind).length := by simp
    rw [dropped] at second
    exact left.join marks (spans_of_parsePrimary second) fun _ _ => derives
termination_by 8 * tokens.length + 1

theorem spans_of_parsePrimary {tokens rest : List LocatedToken} {e : Expr}
    (h : Gives (parsePrimary finish tokens) e rest) : Spans .operand tokens e rest := by
  match tokens, h with
  | [], h => exact absurd h parsePrimary_nil
  | ⟨token, offset⟩ :: more, h =>
    cases token with
    | literal value =>
      obtain ⟨rfl, rfl⟩ := (parsePrimary_literal_gives_iff rfl).mp h
      exact .single .literal
    | openParen =>
      obtain ⟨close, closes, inner⟩ := (parsePrimary_paren_gives_iff rfl).mp h
      obtain ⟨used, rfl, derived⟩ := spans_of_parseOr inner
      refine ⟨⟨.openParen, offset⟩ :: used ++ [close], by simp, ?_⟩
      simpa [closes] using Derives.parentheses derived
    | word word =>
      by_cases isRange : word = rangeWord ∧ startsWithToken .openParen more = true
      · obtain ⟨rfl, opens⟩ := isRange
        obtain ⟨opening, behind, same, opened⟩ := startsWithToken_iff.mp opens
        have : more.length = behind.length + 1 := congrArg List.length same
        subst same
        obtain ⟨args, close, closes, listed, described⟩ :=
          (parsePrimary_range_gives_iff rfl opened).mp h
        rcases spans_of_parseRangeArgs listed with
          rfl | ⟨used, others, first, more, rfl, rfl, derived, derivedMore⟩
        · cases described
        · refine ⟨⟨.word rangeWord, offset⟩ :: opening :: (used ++ others) ++ [close], by simp, ?_⟩
          simpa [opened, closes] using rangeOf_ok derived derivedMore described
      · obtain ⟨read, rfl⟩ := (parsePrimary_word_gives_iff rfl isRange).mp h
        obtain ⟨free, path, valid, rfl⟩ := pathOf_ok_iff.mp read
        exact .single (.path free valid)
    | compare | closeParen | comma =>
      exact absurd h (parsePrimary_other nofun nofun nofun)
termination_by 8 * tokens.length

theorem spans_of_parseRangeArgs {tokens rest : List LocatedToken} {args : List Expr}
    (h : Gives (parseRangeArgs finish tokens) args rest) :
    args = [] ∨ ∃ used more first others, tokens = used ++ more ++ rest ∧ args = first :: others ∧
      Derives .disjunction (used.map (·.token)) first ∧
      DerivesMore (more.map (·.token)) others := by
  rw [parseRangeArgs_gives_iff] at h
  split at h
  · exact .inl h.1
  · obtain ⟨first, between, others, reads, more, rfl⟩ := h
    have := reads.shorter
    obtain ⟨later, rfl, derivedMore⟩ := spans_of_parseRangeRest more
    obtain ⟨used, rfl, derived⟩ := spans_of_parseOr reads
    exact .inr ⟨used, later, first, others, by simp, rfl, derived, derivedMore⟩
termination_by 8 * tokens.length + 7

theorem spans_of_parseRangeRest {tokens rest : List LocatedToken} {args : List Expr}
    (h : Gives (parseRangeRest finish tokens) args rest) :
    ∃ used, tokens = used ++ rest ∧ DerivesMore (used.map (·.token)) args := by
  match tokens, h with
  | [], h =>
    obtain ⟨rfl, rfl⟩ := (parseRangeRest_gives_iff rfl).mp h
    exact ⟨[], rfl, .nil⟩
  | t :: more, h =>
    by_cases isComma : t.token = .comma
    · obtain ⟨next, between, others, reads, later, rfl⟩ :=
        (parseRangeRest_comma_gives_iff isComma).mp h
      have := reads.shorter
      obtain ⟨behind, rfl, derivedMore⟩ := spans_of_parseRangeRest later
      obtain ⟨used, rfl, derived⟩ := spans_of_parseOr reads
      refine ⟨t :: used ++ behind, by simp, ?_⟩
      simpa [isComma] using DerivesMore.cons derived derivedMore
    · obtain ⟨rfl, rfl⟩ := (parseRangeRest_gives_iff (startsWithToken_cons_of_ne isComma)).mp h
      exact ⟨[], rfl, .nil⟩
termination_by 8 * tokens.length + 7

end

/-! ### What is derived is read -/

/-- Tokens with which no expression of a level goes on. A path may be called `range`, so that a
parenthesis goes on even with an operand. -/
structure Stops (level : Level) (rest : List LocatedToken) : Prop where
  opening : startsWithToken .openParen rest = false
  relation : level ≠ .operand → relationOf? rest = none
  conjunction : level = .conjunction ∨ level = .disjunction →
    startsWithToken (.word andWord) rest = false
  disjunction : level = .disjunction → startsWithToken (.word orWord) rest = false

namespace Stops

theorem nil (level : Level) : Stops level [] :=
  ⟨rfl, fun _ => rfl, fun _ => rfl, fun _ => rfl⟩

/-- Every expression ends before a comma and before a closing parenthesis. -/
theorem cons {level : Level} (h : t.token = .comma ∨ t.token = .closeParen) :
    Stops level (t :: rest) := by
  obtain ⟨token, offset⟩ := t
  rcases h with rfl | rfl <;> exact ⟨rfl, fun _ => rfl, fun _ => rfl, fun _ => rfl⟩

theorem or (h : t.token = .word orWord) : Stops .conjunction (t :: rest) := by
  obtain ⟨_, offset⟩ := t
  cases h
  exact ⟨rfl, fun _ => rfl, fun _ => rfl, nofun⟩

theorem and (h : t.token = .word andWord) : Stops .negation (t :: rest) := by
  obtain ⟨_, offset⟩ := t
  cases h
  exact ⟨rfl, fun _ => rfl, by simp, nofun⟩

theorem of_comparison (h : Stops .comparison rest) : Stops .operand rest :=
  ⟨h.opening, by simp, by simp, nofun⟩

theorem of_negation (h : Stops .negation rest) : Stops .comparison rest :=
  ⟨h.opening, fun _ => h.relation nofun, by simp, nofun⟩

theorem of_conjunction (h : Stops .conjunction rest) : Stops .negation rest :=
  ⟨h.opening, fun _ => h.relation nofun, by simp, nofun⟩

theorem of_disjunction (h : Stops .disjunction rest) : Stops .conjunction rest :=
  ⟨h.opening, fun _ => h.relation nofun, fun _ => h.conjunction (.inr rfl), nofun⟩

end Stops

/-- The reader finds an expression in front of any tokens with which it does not go on. What it finds
at the level of a connective may become the left operand of more. -/
def Reads (finish : Nat) (tokens : List LocatedToken) (e : Expr) : Level → Prop
  | .disjunction => ∀ rest joined behind, Stops .conjunction rest →
    Gives (parseOrRest finish e rest) joined behind →
    Gives (parseOr finish (tokens ++ rest)) joined behind
  | .conjunction => ∀ rest joined behind, Stops .negation rest →
    Gives (parseAndRest finish e rest) joined behind →
    Gives (parseAnd finish (tokens ++ rest)) joined behind
  | .negation => ∀ rest, Stops .negation rest → Gives (parseNot finish (tokens ++ rest)) e rest
  | .comparison => ∀ rest, Stops .comparison rest →
    Gives (parseComparison finish (tokens ++ rest)) e rest
  | .operand => ∀ rest, Stops .operand rest → Gives (parsePrimary finish (tokens ++ rest)) e rest

theorem Reads.disjunction (h : Reads finish tokens e .disjunction) (stops : Stops .disjunction rest) :
    Gives (parseOr finish (tokens ++ rest)) e rest :=
  h _ _ _ stops.of_disjunction ((parseOrRest_gives_iff (stops.disjunction rfl)).mpr ⟨rfl, rfl⟩)

theorem Reads.conjunction (h : Reads finish tokens e .conjunction) (stops : Stops .conjunction rest) :
    Gives (parseAnd finish (tokens ++ rest)) e rest :=
  h _ _ _ stops.of_conjunction ((parseAndRest_gives_iff (stops.conjunction (.inl rfl))).mpr ⟨rfl, rfl⟩)

/-- No expression starts with a closing parenthesis, and a comparison does not start with `not`, so
that a prefix `not` is never mistaken. -/
theorem Derives.head {level : Level} {ts : List Token} (h : Derives level ts e) :
    ∃ first more, ts = first :: more ∧ first ≠ .closeParen ∧
      (level = .comparison ∨ level = .operand → first ≠ .word notWord) := by
  induction h with
  | conjunction _ ih | negation _ ih | comparison _ ih =>
    obtain ⟨first, more, rfl, other, _⟩ := ih
    exact ⟨first, more, rfl, other, by simp⟩
  | or _ _ ih | and _ _ ih =>
    obtain ⟨first, more, rfl, other, _⟩ := ih
    exact ⟨first, _, rfl, other, by simp⟩
  | not => exact ⟨_, _, rfl, nofun, by simp⟩
  | operand _ ih =>
    obtain ⟨first, more, rfl, other, free⟩ := ih
    exact ⟨first, more, rfl, other, fun _ => free (.inr rfl)⟩
  | compare _ _ ih | member _ _ ih | notMember _ _ ih =>
    obtain ⟨first, more, rfl, other, free⟩ := ih
    exact ⟨first, _, rfl, other, fun _ => free (.inr rfl)⟩
  | @path word path free =>
    refine ⟨.word word, [], rfl, nofun, ?_⟩
    rintro _ ⟨⟩
    simp at free
  | literal | parentheses | rangeTo | rangeFrom | rangeBy => exact ⟨_, _, rfl, nofun, nofun⟩

theorem exists_split {ts us : List Token} {token : Token}
    (h : tokens.map (·.token) = ts ++ token :: us) :
    ∃ before mark after, tokens = before ++ mark :: after ∧ before.map (·.token) = ts ∧
      mark.token = token ∧ after.map (·.token) = us := by
  obtain ⟨before, later, rfl, first, second⟩ := List.map_eq_append_iff.mp h
  obtain ⟨mark, after, rfl, same, third⟩ := List.map_eq_cons_iff.mp second
  exact ⟨before, mark, after, rfl, first, same, third⟩

/-- Two operands around the tokens of a relation are read as a comparison. -/
theorem Reads.related {before after : List LocatedToken} {rhs : Expr} (relation : Relation)
    (marks : List LocatedToken)
    (h : Reads finish before lhs .operand) (h' : Reads finish after rhs .operand)
    (written : ∀ rest, relationOf? (marks ++ rest) = some (relation, marks.length))
    (opens : ∀ rest, startsWithToken .openParen (marks ++ rest) = false) :
    Reads finish (before ++ (marks ++ after)) (relation.apply lhs rhs) .comparison := by
  intro rest stops
  have left := h (marks ++ (after ++ rest)) ⟨opens _, by simp, by simp, nofun⟩
  have right := h' rest stops.of_comparison
  refine parseComparison_gives_iff.mpr ⟨lhs, marks ++ (after ++ rest), ?_, ?_⟩
  · rw [List.append_assoc, List.append_assoc]
    exact left
  · rw [written]
    exact ⟨rhs, by rwa [List.drop_left], rfl⟩

/-- Arguments of a range that the reader finds behind the first one. -/
inductive ReadsMore (finish : Nat) : List LocatedToken → List Expr → Prop
  | nil : ReadsMore finish [] []
  | cons {comma : LocatedToken} {first after : List LocatedToken} {e : Expr} {more : List Expr} :
    comma.token = .comma → Reads finish first e .disjunction → ReadsMore finish after more →
    ReadsMore finish (comma :: (first ++ after)) (e :: more)

namespace ReadsMore

variable {used : List LocatedToken} {args : List Expr}

theorem stops (h : ReadsMore finish used args) (close : t.token = .closeParen)
    (rest : List LocatedToken) :
    Stops .disjunction (used ++ t :: rest) := by
  cases h with
  | nil => exact .cons (.inr close)
  | cons isComma => exact .cons (.inl isComma)

theorem gives (h : ReadsMore finish used args) (close : t.token = .closeParen) :
    Gives (parseRangeRest finish (used ++ t :: rest)) args (t :: rest) := by
  induction h with
  | nil =>
    have behind : startsWithToken .comma (t :: rest) = false :=
      startsWithToken_cons_of_ne (by simp [close])
    exact (parseRangeRest_gives_iff behind).mpr ⟨rfl, rfl⟩
  | @cons comma first after e more isComma reads others ih =>
    have inside := reads.disjunction (others.stops close rest)
    rw [← List.append_assoc] at inside
    exact (parseRangeRest_comma_gives_iff isComma).mpr
      ⟨e, after ++ t :: rest, more, inside, ih, rfl⟩

end ReadsMore

theorem Reads.range {word opening close : LocatedToken} {first others : List LocatedToken}
    {args : List Expr} {range : Expr} (isRange : word.token = .word rangeWord)
    (opens : opening.token = .openParen) (closes : close.token = .closeParen)
    (h : Reads finish first e .disjunction) (derived : Derives .disjunction (first.map (·.token)) e)
    (more : ReadsMore finish others args) (described : rangeOf word.offset (e :: args) = .ok range) :
    Reads finish (word :: opening :: (first ++ (others ++ [close]))) range .operand := by
  intro rest _
  refine (parsePrimary_range_gives_iff isRange opens).mpr ⟨e :: args, close, closes, ?_, described⟩
  have inside := h.disjunction (more.stops closes rest)
  have nonempty : startsWithToken .closeParen (first ++ (others ++ close :: rest)) = false := by
    obtain ⟨token, _, same, other, _⟩ := derived.head
    obtain ⟨t, behind, rfl, rfl, _⟩ := List.map_eq_cons_iff.mp same
    exact startsWithToken_cons_of_ne other
  have whole : first ++ (others ++ [close]) ++ rest = first ++ (others ++ close :: rest) := by simp
  change Gives (parseRangeArgs finish (first ++ (others ++ [close]) ++ rest)) (e :: args) (close :: rest)
  rw [whole, parseRangeArgs_gives_iff, nonempty]
  exact ⟨e, _, args, inside, more.gives closes, rfl⟩

/-- The reader finds every derived expression. -/
theorem Derives.reads {level : Level} {ts : List Token} (h : Derives level ts e)
    (used : List LocatedToken) (same : used.map (·.token) = ts) : Reads finish used e level := by
  induction h generalizing used with
  | conjunction _ ih =>
    intro rest joined behind stops later
    exact parseOr_gives_iff.mpr ⟨_, rest, (ih used same).conjunction stops, later⟩
  | or _ _ left right =>
    obtain ⟨before, mark, after, rfl, leftSame, isOr, rightSame⟩ := exists_split same
    intro rest joined behind stops later
    have more := (parseOrRest_or_gives_iff isOr).mpr
      ⟨_, rest, (right after rightSame).conjunction stops, later⟩
    rw [List.append_assoc]
    exact left before leftSame _ _ _ (.or isOr) more
  | negation _ ih =>
    intro rest joined behind stops later
    exact parseAnd_gives_iff.mpr ⟨_, rest, ih used same rest stops, later⟩
  | and _ _ left right =>
    obtain ⟨before, mark, after, rfl, leftSame, isAnd, rightSame⟩ := exists_split same
    intro rest joined behind stops later
    have more := (parseAndRest_and_gives_iff isAnd).mpr
      ⟨_, rest, right after rightSame rest stops, later⟩
    rw [List.append_assoc]
    exact left before leftSame _ _ _ (.and isAnd) more
  | comparison derived ih =>
    intro rest stops
    obtain ⟨first, more, rfl, _, free⟩ := derived.head
    obtain ⟨mark, behind, rfl, isFirst, _⟩ := List.map_eq_cons_iff.mp same
    refine (parseNot_gives_iff ?_).mpr (ih _ same rest stops.of_negation)
    exact startsWithToken_cons_of_ne (isFirst ▸ free (.inl rfl))
  | not _ ih =>
    intro rest stops
    obtain ⟨mark, behind, rfl, isNot, innerSame⟩ := List.map_eq_cons_iff.mp same
    exact (parseNot_not_gives_iff isNot).mpr ⟨_, ih behind innerSame rest stops, rfl⟩
  | operand _ ih =>
    intro rest stops
    refine parseComparison_gives_iff.mpr ⟨_, rest, ih used same rest stops.of_comparison, ?_⟩
    rw [stops.relation nofun]
    exact ⟨rfl, rfl⟩
  | @compare _ _ _ _ op _ _ left right =>
    obtain ⟨before, ⟨mark, offset⟩, after, rfl, leftSame, rfl, rightSame⟩ := exists_split same
    exact Reads.related (.compare op) [_] (left before leftSame) (right after rightSame)
      (fun _ => rfl) (fun _ => rfl)
  | member _ _ left right =>
    obtain ⟨before, ⟨mark, offset⟩, after, rfl, leftSame, rfl, rightSame⟩ := exists_split same
    exact Reads.related (.membership false) [_] (left before leftSame) (right after rightSame)
      (fun _ => rfl) (fun _ => rfl)
  | notMember _ _ left right =>
    obtain ⟨before, ⟨mark, offset⟩, later, rfl, leftSame, rfl, laterSame⟩ := exists_split same
    obtain ⟨⟨second, offset'⟩, after, rfl, rfl, rightSame⟩ := List.map_eq_cons_iff.mp laterSame
    exact Reads.related (.membership true) [_, _] (left before leftSame) (right after rightSame)
      (fun _ => rfl) (fun _ => rfl)
  | literal =>
    intro rest _
    obtain ⟨mark, rfl, isLiteral⟩ := List.map_eq_singleton_iff.mp same
    exact (parsePrimary_literal_gives_iff isLiteral).mpr ⟨rfl, rfl⟩
  | path free valid =>
    intro rest stops
    obtain ⟨mark, rfl, isWord⟩ := List.map_eq_singleton_iff.mp same
    refine (parsePrimary_word_gives_iff isWord ?_).mpr ⟨pathOf_ok_iff.mpr ⟨free, _, valid, rfl⟩, rfl⟩
    simp [stops.opening]
  | parentheses _ ih =>
    intro rest _
    obtain ⟨opening, later, rfl, opens, laterSame⟩ := List.map_eq_cons_iff.mp same
    obtain ⟨inner, close, after, rfl, innerSame, closes, afterSame⟩ := exists_split laterSame
    obtain rfl := List.map_eq_nil_iff.mp afterSame
    have stops : Stops .disjunction (close :: rest) := .cons (.inr closes)
    have inside := (ih inner innerSame).disjunction stops
    refine (parsePrimary_paren_gives_iff opens).mpr ⟨close, closes, ?_⟩
    have whole : inner ++ [close] ++ rest = inner ++ close :: rest := by simp
    change Gives (parseOr finish (inner ++ [close] ++ rest)) _ (close :: rest)
    rwa [whole]
  | rangeTo derived stopReads =>
    obtain ⟨word, later, rfl, isRange, laterSame⟩ := List.map_eq_cons_iff.mp same
    obtain ⟨opening, later, rfl, opens, laterSame⟩ := List.map_eq_cons_iff.mp laterSame
    obtain ⟨stops, close, after, rfl, stopSame, closes, afterSame⟩ := exists_split laterSame
    obtain rfl := List.map_eq_nil_iff.mp afterSame
    exact .range isRange opens closes (stopReads stops stopSame) (stopSame ▸ derived) .nil rfl
  | rangeFrom derived _ startReads stopReads =>
    obtain ⟨word, later, rfl, isRange, laterSame⟩ := List.map_eq_cons_iff.mp same
    obtain ⟨opening, later, rfl, opens, laterSame⟩ := List.map_eq_cons_iff.mp laterSame
    obtain ⟨before, close, after, rfl, beforeSame, closes, afterSame⟩ := exists_split laterSame
    obtain rfl := List.map_eq_nil_iff.mp afterSame
    obtain ⟨starts, comma, stops, rfl, startSame, isComma, stopSame⟩ := exists_split beforeSame
    have more : ReadsMore finish (comma :: (stops ++ [])) [_] :=
      .cons isComma (stopReads stops stopSame) .nil
    simpa using Reads.range isRange opens closes (startReads starts startSame) (startSame ▸ derived)
      more rfl
  | rangeBy derived _ _ startReads stopReads stepReads =>
    obtain ⟨word, later, rfl, isRange, laterSame⟩ := List.map_eq_cons_iff.mp same
    obtain ⟨opening, later, rfl, opens, laterSame⟩ := List.map_eq_cons_iff.mp laterSame
    obtain ⟨before, close, after, rfl, beforeSame, closes, afterSame⟩ := exists_split laterSame
    obtain rfl := List.map_eq_nil_iff.mp afterSame
    obtain ⟨before, second, steps, rfl, beforeSame, isSecond, stepSame⟩ := exists_split beforeSame
    obtain ⟨starts, comma, stops, rfl, startSame, isComma, stopSame⟩ := exists_split beforeSame
    have more : ReadsMore finish (comma :: (stops ++ second :: (steps ++ []))) [_, _] :=
      .cons isComma (stopReads stops stopSame) (.cons isSecond (stepReads steps stepSame) .nil)
    simpa using Reads.range isRange opens closes (startReads starts startSame) (startSame ▸ derived)
      more rfl

/-- An expression is read from tokens that it takes up as a whole, exactly if they derive it. -/
theorem parseTokens_ok_iff : parseTokens finish tokens = .ok e ↔
    Derives .disjunction (tokens.map (·.token)) e := by
  have whole : parseTokens finish tokens = .ok e ↔ Gives (parseOr finish tokens) e [] := by
    rw [parseTokens]
    rcases parseOr finish tokens with fault | ⟨value, rest, shorter⟩
    · exact ⟨nofun, fun h => absurd h not_gives_error⟩
    · refine Iff.trans ?_ gives_ok_iff.symm
      cases rest with
      | nil => exact ⟨fun h => by cases h; exact ⟨rfl, rfl⟩, fun ⟨h, _⟩ => congrArg _ h⟩
      | cons extra more => exact ⟨nofun, fun h => nomatch h.2⟩
  rw [whole]
  constructor
  · intro h
    obtain ⟨used, same, derived⟩ := spans_of_parseOr h
    rwa [same, List.append_nil]
  · intro derived
    have reads : Reads finish tokens e .disjunction := derived.reads tokens rfl
    have h := reads.disjunction (.nil _)
    rwa [List.append_nil] at h

/-- The reader makes of a sequence of tokens the one expression that the grammar derives from it; from
no sequence it derives two, and every sequence from which it derives none is refused. -/
theorem parseTokens_iff_derives (finish : Nat) (tokens : List LocatedToken) :
    (∀ e, parseTokens finish tokens = .ok e ↔ Derives .disjunction (tokens.map (·.token)) e) ∧
    (∀ e other, Derives .disjunction (tokens.map (·.token)) e →
      Derives .disjunction (tokens.map (·.token)) other → e = other) ∧
    ((∀ e, ¬ Derives .disjunction (tokens.map (·.token)) e) →
      ∃ fault, parseTokens finish tokens = .error fault) := by
  refine ⟨fun e => parseTokens_ok_iff, fun e other first second => ?_, fun none => ?_⟩
  · have same : parseTokens finish tokens = .ok e := parseTokens_ok_iff.mpr first
    rw [parseTokens_ok_iff.mpr second] at same
    cases same
    rfl
  · cases read : parseTokens finish tokens with
    | error fault => exact ⟨fault, rfl⟩
    | ok e => exact absurd (parseTokens_ok_iff.mp read) (none e)

end PromptScript.Source
