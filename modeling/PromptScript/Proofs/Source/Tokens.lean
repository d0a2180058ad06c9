import PromptScript.Proofs.Computation
import PromptScript.Proofs.Source.Grammar

/-!
The tokens of a text as a relation without offsets. An expression can be read from a text exactly if
the grammar derives it from the tokens of the text, wherever the text stands.
-/
namespace PromptScript.Source

inductive Tokens : List Char → List Token → Prop
  | nil : Tokens [] []
  | cons {c : Char} {rest : List Char} {token : Option Token} {taken : Nat} {ts : List Token} :
    scanToken c rest = .ok (token, taken) → Tokens (rest.drop taken) ts →
    Tokens (c :: rest) (token.toList ++ ts)

variable {text : List Char} {ts : List Token}

theorem tokens_of_tokenize {offset : Nat} {located : List LocatedToken}
    (h : tokenize offset text = .ok located) : Tokens text (located.map (·.token)) := by
  induction length : text.length using Nat.strongRecOn generalizing text offset located with
  | ind n ih =>
    match text with
    | [] =>
      rw [tokenize] at h
      cases h
      exact .nil
    | c :: rest =>
      simp only [tokenize, Computation.except_bind_ok_iff, Computation.mapError_ok_iff,
        Computation.except_pure_ok_iff] at h
      obtain ⟨⟨token, taken⟩, scanned, more, later, rfl⟩ := h
      have shorter : (rest.drop taken).length < n := by
        simp only [List.length_cons, List.length_drop] at length ⊢
        omega
      have tokens := Tokens.cons scanned (ih _ shorter later rfl)
      cases token <;> exact tokens

theorem tokenize_of_tokens (h : Tokens text ts) (offset : Nat) :
    ∃ located, tokenize offset text = .ok located ∧ located.map (·.token) = ts := by
  induction h generalizing offset with
  | nil => exact ⟨[], by rw [tokenize], rfl⟩
  | @cons c rest token taken ts scanned _ ih =>
    obtain ⟨more, later, rfl⟩ := ih (offset + taken + 1)
    refine ⟨(token.map (LocatedToken.mk · offset)).toList ++ more, ?_, ?_⟩
    · rw [tokenize, scanned]
      simp only [Except.mapError, bind, Except.bind, later]
      rfl
    · cases token <;> simp

/-- An expression takes up a span exactly if it is derived from the tokens of its text. -/
theorem readExpr_ok_iff {s : Span} {e : Expr} :
    readExpr s = .ok e ↔ ∃ ts, Tokens s.text ts ∧ Derives .disjunction ts e := by
  simp only [readExpr, Computation.except_bind_ok_iff]
  constructor
  · rintro ⟨located, read, h⟩
    split at h
    · cases h
    · exact ⟨_, tokens_of_tokenize read, parseTokens_ok_iff.mp h⟩
  · rintro ⟨ts, tokens, derived⟩
    obtain ⟨located, read, rfl⟩ := tokenize_of_tokens tokens s.start
    refine ⟨located, read, ?_⟩
    obtain ⟨first, more, nonempty, _⟩ := derived.head
    obtain ⟨mark, behind, rfl, _⟩ := List.map_eq_cons_iff.mp nonempty
    exact parseTokens_ok_iff.mpr derived

end PromptScript.Source

namespace PromptScript

theorem Expr.parse_ok_iff {source : String} {e : Expr} : Expr.parse source = .ok e ↔
    ∃ ts, Source.Tokens source.toList ts ∧ Source.Derives .disjunction ts e :=
  Computation.mapError_ok_iff.trans Source.readExpr_ok_iff

end PromptScript
