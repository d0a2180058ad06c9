import Mathlib
import PromptScript.Proofs.Value.Grammar
import PromptScript.Proofs.Value.Quiet
import PromptScript.Source.Token

/-!
Where a literal in brackets ends. JSON text is balanced, so that the bracket that closes a list or a mapping
is found behind all of its items, whatever follows it.
-/
namespace PromptScript.Source

open Value

/-- A search for a closing bracket steps over the text as a whole. -/
def Balanced (text : List Char) : Prop :=
  ∀ depth rest n, closingBracket (depth + 1) .code rest = some n →
    closingBracket (depth + 1) .code (text ++ rest) = some (text.length + n)

variable {text text' rest body content : List Char} {c : Char} {n : Nat} {phrase : Phrase}

/-- Behind its opening quote, a search steps over a string. -/
theorem closingBracket_string {depth : Nat} (closes : Closes '"' body)
    (found : closingBracket depth .code rest = some n) :
    closingBracket depth .quoted (body ++ rest) = some (body.length + n) := by
  induction closes with
  | close => simp [closingBracket, found, Nat.add_comm]
  | escape _ ih =>
    simp only [List.cons_append, closingBracket, if_true, ih, Option.map_some, List.length_cons]
    congr 1
    omega
  | char noBackslash noQuote _ ih =>
    simp only [List.cons_append, closingBracket, if_neg noBackslash, if_neg noQuote, ih,
      Option.map_some, List.length_cons]
    congr 1
    omega

namespace Balanced

theorem nil : Balanced [] := by
  intro depth rest n found
  simpa using found

theorem append (h : Balanced text) (h' : Balanced text') : Balanced (text ++ text') := by
  intro depth rest n found
  rw [List.append_assoc, List.length_append, Nat.add_assoc]
  exact h depth _ _ (h' depth rest n found)

theorem char (plain : c ∉ ['"', '[', '\x7b', ']', '\x7d']) : Balanced [c] := by
  intro depth rest n found
  simp only [List.mem_cons, List.not_mem_nil, or_false, not_or] at plain
  obtain ⟨quote, list, map, listEnd, mapEnd⟩ := plain
  simp [closingBracket, quote, list, map, listEnd, mapEnd, found, Nat.add_comm]

theorem cons (plain : c ∉ ['"', '[', '\x7b', ']', '\x7d']) (h : Balanced text) :
    Balanced (c :: text) :=
  (char plain).append h

theorem of_forall (plain : ∀ c ∈ text, c ∉ ['"', '[', '\x7b', ']', '\x7d']) : Balanced text := by
  induction text with
  | nil => exact nil
  | cons c more ih =>
    exact cons (plain c List.mem_cons_self) (ih fun d member => plain d (List.mem_cons_of_mem c member))

/-- Characters of a kind that no mark is of. -/
theorem of_kind {kind : Char → Bool} (marks : ['"', '[', '\x7b', ']', '\x7d'].any kind = false)
    (all : ∀ c ∈ text, kind c = true) : Balanced text := by
  apply of_forall
  intro c member mark
  exact List.any_eq_false.mp marks c mark (all c member)

theorem string (closes : Closes '"' body) : Balanced ('"' :: body) := by
  intro depth rest n found
  have inside := closingBracket_string closes found
  simp only [List.cons_append, closingBracket, if_true, inside, Option.map_some, List.length_cons]
  congr 1
  omega

/-- Brackets around a balanced text: the search goes one level deeper, and comes back. -/
theorem enclosed {opening closing : Char} (opens : opening = '[' ∨ opening = '\x7b')
    (closes : closing = ']' ∨ closing = '\x7d') (h : Balanced text) :
    Balanced (opening :: text ++ [closing]) := by
  intro depth rest n found
  have inside : closingBracket (depth + 1 + 1) .code (closing :: rest) = some (n + 1) := by
    rcases closes with rfl | rfl <;> simp [closingBracket, found]
  have later := h (depth + 1) (closing :: rest) (n + 1) inside
  have whole : opening :: text ++ [closing] ++ rest = opening :: (text ++ closing :: rest) := by simp
  rw [whole]
  rcases opens with rfl | rfl <;> simp [closingBracket, later] <;> omega

end Balanced

/-! ### JSON text -/

theorem balanced_blanks (h : IsBlanks text) : Balanced text :=
  .of_kind (by decide) h

theorem balanced_number (h : IsNumber text) : Balanced text :=
  .of_kind (by decide) (List.all_eq_true.mp h.all_isNumberChar)

/-- Every phrase of JSON is balanced, however deep it nests. -/
theorem balanced_of_spells (h : phrase.Spells text) : Balanced text := by
  induction h with
  | emptyList blanks => exact .enclosed (.inl rfl) (.inl rfl) (balanced_blanks blanks)
  | list _ ih => exact .enclosed (.inl rfl) (.inl rfl) ih
  | emptyMap blanks => exact .enclosed (.inr rfl) (.inr rfl) (balanced_blanks blanks)
  | map _ ih => exact .enclosed (.inr rfl) (.inr rfl) ih
  | container _ ih | lastItem _ ih | lastEntry _ ih => exact ih
  | null | true | false => exact .of_forall (by simp)
  | number number => exact balanced_number number
  | string content => exact .string (closes_content content)
  | item before _ behind ih => exact ((balanced_blanks before).append ih).append (balanced_blanks behind)
  | moreItems _ _ ih later | moreEntries _ _ ih later => exact ih.append (.cons (by decide) later)
  | entry before content behind _ ih =>
    have key := (balanced_blanks before).append (.string (closes_content content))
    exact (key.append (balanced_blanks behind)).append (.cons (by decide) ih)

/-- A list or a mapping is a balanced text between brackets. -/
theorem exists_enclosed (h : Phrase.container.Spells text) : ∃ opening closing inner,
    (opening = '[' ∨ opening = '\x7b') ∧ (closing = ']' ∨ closing = '\x7d') ∧
      text = opening :: (inner ++ [closing]) ∧ Balanced inner := by
  cases h with
  | emptyList blanks => exact ⟨_, _, _, .inl rfl, .inl rfl, rfl, balanced_blanks blanks⟩
  | list items => exact ⟨_, _, _, .inl rfl, .inl rfl, rfl, balanced_of_spells items⟩
  | emptyMap blanks => exact ⟨_, _, _, .inr rfl, .inr rfl, rfl, balanced_blanks blanks⟩
  | map entries => exact ⟨_, _, _, .inr rfl, .inr rfl, rfl, balanced_of_spells entries⟩

/-- The bracket that matches the first one of a list or a mapping is its last character. -/
theorem matchingBracket_of_spells (h : Phrase.container.Spells text) (rest : List Char) :
    matchingBracket (text ++ rest) = some (text.length - 1) := by
  obtain ⟨opening, closing, inner, opens, closes, rfl, balanced⟩ := exists_enclosed h
  have here : closingBracket 1 .code (closing :: rest) = some 0 := by
    rcases closes with rfl | rfl <;> simp [closingBracket]
  have found := balanced 0 (closing :: rest) 0 here
  rw [matchingBracket]
  rcases opens with rfl | rfl <;> simp [closingBracket, found]

/-- A list or a mapping is read as one token, whatever follows it. -/
theorem bracketToken_compact {v : Value} (plain : Plain maxDepth v) (compound : v.isScalar = false)
    (whole : v.compact = c :: text) (rest : List Char) :
    bracketToken c (text ++ rest) = .ok (.literal v, text.length) := by
  have found := matchingBracket_of_spells (container_compact plain compound) rest
  have read : Value.ofText? v.compact = some v := ofTextWithin?_compact plain
  rw [whole] at found read
  have taken : (c :: (text ++ rest)).take (text.length + 1) = c :: text := by
    rw [List.take_succ_cons, List.take_left]
  rw [bracketToken, ← List.cons_append, found]
  simp only [List.cons_append, List.length_cons, Nat.add_sub_cancel, taken, read]

end PromptScript.Source
