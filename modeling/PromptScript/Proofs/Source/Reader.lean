import Mathlib
import PromptScript.Source.Expression

/-!
The reader of expressions, one equation for each of its functions: when it succeeds, with what, and
which tokens it leaves.
-/
namespace PromptScript.Source

/-- A part of the reader succeeds with a result and leaves some tokens. -/
def Gives {α : Type} {length : Nat} (result : Except Fault (Parsed α length)) (value : α)
    (rest : List LocatedToken) : Prop :=
  ∃ shorter, result = .ok ⟨value, rest, shorter⟩

theorem Gives.shorter {α : Type} {length : Nat} {result : Except Fault (Parsed α length)} {value : α}
    {rest : List LocatedToken} (h : Gives result value rest) : rest.length < length :=
  h.1

theorem gives_ok_iff {α : Type} {length : Nat} {parsed : Parsed α length} {value : α}
    {rest : List LocatedToken} :
    Gives (.ok parsed) value rest ↔ parsed.value = value ∧ parsed.rest = rest := by
  constructor
  · rintro ⟨_, h⟩
    cases h
    exact ⟨rfl, rfl⟩
  · rintro ⟨rfl, rfl⟩
    exact ⟨parsed.shorter, rfl⟩

theorem not_gives_error {α : Type} {length : Nat} {fault : Fault} {value : α}
    {rest : List LocatedToken} :
    ¬ Gives (.error fault : Except Fault (Parsed α length)) value rest :=
  fun ⟨_, h⟩ => nomatch h

theorem gives_bind_iff {α β : Type} {first second : Nat} {result : Except Fault (Parsed α first)}
    {next : Parsed α first → Except Fault (Parsed β second)} {value : β}
    {rest : List LocatedToken} :
    Gives (result >>= next) value rest ↔
      ∃ a between shorter, Gives result a between ∧
        Gives (next ⟨a, between, shorter⟩) value rest := by
  cases result with
  | error fault => exact ⟨(nomatch ·.2), fun ⟨_, _, _, h, _⟩ => nomatch h.2⟩
  | ok parsed =>
    refine ⟨fun h => ⟨parsed.value, parsed.rest, parsed.shorter, ⟨_, rfl⟩, h⟩, ?_⟩
    rintro ⟨_, _, _, ⟨_, same⟩, h⟩
    cases same
    exact h

theorem gives_pure_iff {α : Type} {length : Nat} {parsed : Parsed α length} {value : α}
    {rest : List LocatedToken} :
    Gives (pure parsed) value rest ↔ parsed.value = value ∧ parsed.rest = rest :=
  gives_ok_iff

variable {finish : Nat} {tokens rest : List LocatedToken} {t : LocatedToken} {e lhs : Expr}

theorem startsWithToken_iff {token : Token} : startsWithToken token tokens = true ↔
    ∃ t more, tokens = t :: more ∧ t.token = token := by
  cases tokens with
  | nil => exact ⟨nofun, nofun⟩
  | cons t more =>
    refine ⟨fun h => ⟨t, more, rfl, of_decide_eq_true h⟩, ?_⟩
    rintro ⟨_, _, same, h⟩
    cases same
    exact decide_eq_true h

theorem startsWithToken_cons_of_ne {token : Token} (h : t.token ≠ token) :
    startsWithToken token (t :: tokens) = false :=
  decide_eq_false h

theorem parseOr_gives_iff : Gives (parseOr finish tokens) e rest ↔
    ∃ lhs between, Gives (parseAnd finish tokens) lhs between ∧
      Gives (parseOrRest finish lhs between) e rest := by
  rw [parseOr]
  simp only [gives_bind_iff, gives_pure_iff]
  constructor
  · rintro ⟨lhs, between, _, first, _, _, _, more, rfl, rfl⟩
    exact ⟨lhs, between, first, more⟩
  · rintro ⟨lhs, between, first, more⟩
    exact ⟨lhs, between, first.shorter, first, _, _, more.shorter, more, rfl, rfl⟩

theorem parseOrRest_or_gives_iff (h : t.token = .word orWord) :
    Gives (parseOrRest finish lhs (t :: tokens)) e rest ↔
      ∃ rhs between, Gives (parseAnd finish tokens) rhs between ∧
        Gives (parseOrRest finish (.or lhs rhs) between) e rest := by
  rw [parseOrRest]
  simp only [h, if_true, gives_bind_iff, gives_pure_iff]
  constructor
  · rintro ⟨rhs, between, _, next, _, _, _, more, rfl, rfl⟩
    exact ⟨rhs, between, next, more⟩
  · rintro ⟨rhs, between, next, more⟩
    exact ⟨rhs, between, next.shorter, next, _, _, more.shorter, more, rfl, rfl⟩

theorem parseOrRest_gives_iff (h : startsWithToken (.word orWord) tokens = false) :
    Gives (parseOrRest finish lhs tokens) e rest ↔ lhs = e ∧ tokens = rest := by
  cases tokens with
  | nil => rw [parseOrRest, gives_ok_iff]
  | cons t tokens =>
    have other : t.token ≠ .word orWord := of_decide_eq_false h
    rw [parseOrRest, if_neg other, gives_ok_iff]

theorem parseAnd_gives_iff : Gives (parseAnd finish tokens) e rest ↔
    ∃ lhs between, Gives (parseNot finish tokens) lhs between ∧
      Gives (parseAndRest finish lhs between) e rest := by
  rw [parseAnd]
  simp only [gives_bind_iff, gives_pure_iff]
  constructor
  · rintro ⟨lhs, between, _, first, _, _, _, more, rfl, rfl⟩
    exact ⟨lhs, between, first, more⟩
  · rintro ⟨lhs, between, first, more⟩
    exact ⟨lhs, between, first.shorter, first, _, _, more.shorter, more, rfl, rfl⟩

theorem parseAndRest_and_gives_iff (h : t.token = .word andWord) :
    Gives (parseAndRest finish lhs (t :: tokens)) e rest ↔
      ∃ rhs between, Gives (parseNot finish tokens) rhs between ∧
        Gives (parseAndRest finish (.and lhs rhs) between) e rest := by
  rw [parseAndRest]
  simp only [h, if_true, gives_bind_iff, gives_pure_iff]
  constructor
  · rintro ⟨rhs, between, _, next, _, _, _, more, rfl, rfl⟩
    exact ⟨rhs, between, next, more⟩
  · rintro ⟨rhs, between, next, more⟩
    exact ⟨rhs, between, next.shorter, next, _, _, more.shorter, more, rfl, rfl⟩

theorem parseAndRest_gives_iff (h : startsWithToken (.word andWord) tokens = false) :
    Gives (parseAndRest finish lhs tokens) e rest ↔ lhs = e ∧ tokens = rest := by
  cases tokens with
  | nil => rw [parseAndRest, gives_ok_iff]
  | cons t tokens =>
    have other : t.token ≠ .word andWord := of_decide_eq_false h
    rw [parseAndRest, if_neg other, gives_ok_iff]

theorem parseNot_not_gives_iff (h : t.token = .word notWord) :
    Gives (parseNot finish (t :: tokens)) e rest ↔
      ∃ operand, Gives (parseNot finish tokens) operand rest ∧ .not operand = e := by
  rw [parseNot]
  simp only [h, if_true, gives_bind_iff, gives_pure_iff]
  constructor
  · rintro ⟨operand, _, _, inner, rfl, rfl⟩
    exact ⟨operand, inner, rfl⟩
  · rintro ⟨operand, inner, rfl⟩
    exact ⟨operand, _, inner.shorter, inner, rfl, rfl⟩

theorem parseNot_gives_iff (h : startsWithToken (.word notWord) tokens = false) :
    Gives (parseNot finish tokens) e rest ↔ Gives (parseComparison finish tokens) e rest := by
  cases tokens with
  | nil => rw [parseNot]
  | cons t tokens =>
    have other : t.token ≠ .word notWord := of_decide_eq_false h
    rw [parseNot, if_neg other]

/-- An operand is compared with a second one exactly if a relation follows it. -/
theorem parseComparison_gives_iff : Gives (parseComparison finish tokens) e rest ↔
    ∃ lhs between, Gives (parsePrimary finish tokens) lhs between ∧
      match relationOf? between with
      | none => lhs = e ∧ between = rest
      | some (relation, taken) => ∃ rhs,
        Gives (parsePrimary finish (between.drop taken)) rhs rest ∧ relation.apply lhs rhs = e := by
  rw [parseComparison]
  simp only [gives_bind_iff]
  refine exists_congr fun lhs => exists_congr fun between => ?_
  rcases relationOf? between with _ | ⟨relation, taken⟩
  · simp only [gives_pure_iff]
    constructor
    · rintro ⟨_, first, same⟩
      exact ⟨first, same⟩
    · rintro ⟨first, same⟩
      exact ⟨first.shorter, first, same⟩
  · simp only [gives_bind_iff, gives_pure_iff]
    constructor
    · rintro ⟨_, first, rhs, _, _, second, rfl, rfl⟩
      exact ⟨first, rhs, second, rfl⟩
    · rintro ⟨first, rhs, second, rfl⟩
      exact ⟨first.shorter, first, rhs, _, second.shorter, second, rfl, rfl⟩

theorem parsePrimary_nil : ¬ Gives (parsePrimary finish []) e rest := by
  rw [parsePrimary]
  exact not_gives_error

theorem parsePrimary_other (literal : ∀ value, t.token ≠ .literal value)
    (word : ∀ word, t.token ≠ .word word) (paren : t.token ≠ .openParen) :
    ¬ Gives (parsePrimary finish (t :: tokens)) e rest := by
  obtain ⟨token, offset⟩ := t
  rw [parsePrimary]
  · exact not_gives_error
  · exact literal
  · exact paren
  · exact word

theorem parsePrimary_literal_gives_iff {value : Value} (h : t.token = .literal value) :
    Gives (parsePrimary finish (t :: tokens)) e rest ↔ .literal value = e ∧ tokens = rest := by
  obtain ⟨_, offset⟩ := t
  cases h
  rw [parsePrimary, gives_ok_iff]

theorem parsePrimary_paren_gives_iff (h : t.token = .openParen) :
    Gives (parsePrimary finish (t :: tokens)) e rest ↔
      ∃ close, close.token = .closeParen ∧ Gives (parseOr finish tokens) e (close :: rest) := by
  obtain ⟨_, offset⟩ := t
  cases h
  rw [parsePrimary]
  simp only [gives_bind_iff]
  constructor
  · rintro ⟨inner, between, _, reads, more⟩
    split at more
    · next closes =>
      obtain ⟨close, behind, rfl, closing⟩ := startsWithToken_iff.mp closes
      obtain ⟨rfl, rfl⟩ := gives_pure_iff.mp more
      exact ⟨close, closing, reads⟩
    · exact absurd more not_gives_error
  · rintro ⟨close, closing, reads⟩
    refine ⟨e, close :: rest, reads.shorter, reads, ?_⟩
    rw [if_pos (startsWithToken_iff.mpr ⟨close, rest, rfl, closing⟩)]
    exact gives_pure_iff.mpr ⟨rfl, rfl⟩

theorem parsePrimary_range_gives_iff {opening : LocatedToken} (h : t.token = .word rangeWord)
    (h' : opening.token = .openParen) :
    Gives (parsePrimary finish (t :: opening :: tokens)) e rest ↔
      ∃ args close, close.token = .closeParen ∧
        Gives (parseRangeArgs finish tokens) args (close :: rest) ∧ rangeOf t.offset args = .ok e := by
  obtain ⟨_, offset⟩ := t
  cases h
  have opens := startsWithToken_iff.mpr ⟨opening, tokens, rfl, h'⟩
  rw [parsePrimary]
  simp only [if_pos (⟨trivial, opens⟩ : True ∧ _), gives_bind_iff]
  constructor
  · rintro ⟨args, between, _, reads, more⟩
    split at more
    · next closes =>
      obtain ⟨close, behind, rfl, closing⟩ := startsWithToken_iff.mp closes
      cases described : rangeOf offset args with
      | error fault => rw [described] at more; exact absurd more not_gives_error
      | ok range =>
        rw [described] at more
        obtain ⟨rfl, rfl⟩ := gives_pure_iff.mp more
        exact ⟨args, close, closing, reads, described⟩
    · exact absurd more not_gives_error
  · rintro ⟨args, close, closing, reads, described⟩
    refine ⟨args, close :: rest, reads.shorter, reads, ?_⟩
    rw [if_pos (startsWithToken_iff.mpr ⟨close, rest, rfl, closing⟩), described]
    exact gives_pure_iff.mpr ⟨rfl, rfl⟩

theorem pathOf_ok_iff {offset : Nat} {word : List Char} : pathOf offset word = .ok e ↔
    word ∉ [andWord, orWord, notWord, inWord] ∧ ∃ path, VarPath.ofText? word = some path ∧
      .path path = e := by
  have operator : isOperatorWord word = true ↔ word ∈ [andWord, orWord, notWord, inWord] := by
    simp only [isOperatorWord, Bool.or_eq_true, decide_eq_true_eq, List.mem_cons, List.not_mem_nil,
      or_false, or_assoc]
  unfold pathOf
  by_cases reserved : isOperatorWord word = true
  · rw [if_pos reserved]
    exact ⟨nofun, fun h => absurd (operator.mp reserved) h.1⟩
  · rw [if_neg reserved]
    cases read : VarPath.ofText? word with
    | none => exact ⟨nofun, nofun⟩
    | some path =>
      refine ⟨fun h => ?_, ?_⟩
      · cases h
        exact ⟨mt operator.mpr reserved, path, rfl, rfl⟩
      · rintro ⟨_, _, same, rfl⟩
        cases same
        rfl

theorem parsePrimary_word_gives_iff {word : List Char} (h : t.token = .word word)
    (h' : ¬(word = rangeWord ∧ startsWithToken .openParen tokens = true)) :
    Gives (parsePrimary finish (t :: tokens)) e rest ↔
      pathOf t.offset word = .ok e ∧ tokens = rest := by
  obtain ⟨_, offset⟩ := t
  cases h
  rw [parsePrimary]
  simp only [if_neg h']
  cases pathOf offset word with
  | error fault =>
    constructor
    · intro h
      exact absurd h not_gives_error
    · rintro ⟨h, _⟩
      cases h
  | ok path =>
    refine gives_pure_iff.trans ⟨?_, ?_⟩
    · rintro ⟨rfl, rfl⟩
      exact ⟨rfl, rfl⟩
    · rintro ⟨h, rfl⟩
      cases h
      exact ⟨rfl, rfl⟩

theorem parseRangeArgs_gives_iff {args : List Expr} :
    Gives (parseRangeArgs finish tokens) args rest ↔
      if startsWithToken .closeParen tokens then args = [] ∧ tokens = rest
      else ∃ first between more, Gives (parseOr finish tokens) first between ∧
        Gives (parseRangeRest finish between) more rest ∧ first :: more = args := by
  rw [parseRangeArgs]
  split
  · exact gives_ok_iff.trans (and_congr_left' eq_comm)
  · simp only [gives_bind_iff, gives_pure_iff]
    constructor
    · rintro ⟨first, between, _, reads, more, _, _, others, rfl, rfl⟩
      exact ⟨first, between, more, reads, others, rfl⟩
    · rintro ⟨first, between, more, reads, others, rfl⟩
      exact ⟨first, between, reads.shorter, reads, more, _, others.shorter, others, rfl, rfl⟩

theorem parseRangeRest_comma_gives_iff {args : List Expr} (h : t.token = .comma) :
    Gives (parseRangeRest finish (t :: tokens)) args rest ↔
      ∃ next between more, Gives (parseOr finish tokens) next between ∧
        Gives (parseRangeRest finish between) more rest ∧ next :: more = args := by
  obtain ⟨_, offset⟩ := t
  cases h
  rw [parseRangeRest]
  simp only [gives_bind_iff, gives_pure_iff]
  constructor
  · rintro ⟨next, between, _, reads, more, _, _, others, rfl, rfl⟩
    exact ⟨next, between, more, reads, others, rfl⟩
  · rintro ⟨next, between, more, reads, others, rfl⟩
    exact ⟨next, between, reads.shorter, reads, more, _, others.shorter, others, rfl, rfl⟩

theorem parseRangeRest_gives_iff {args : List Expr} (h : startsWithToken .comma tokens = false) :
    Gives (parseRangeRest finish tokens) args rest ↔ args = [] ∧ tokens = rest := by
  have other : ∀ offset more, tokens ≠ ⟨.comma, offset⟩ :: more := by
    rintro offset more rfl
    cases h
  rw [parseRangeRest]
  · exact gives_ok_iff.trans (and_congr_left' eq_comm)
  · exact other

end PromptScript.Source
