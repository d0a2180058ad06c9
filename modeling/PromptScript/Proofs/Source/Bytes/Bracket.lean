import PromptScript.Proofs.Source.Bracket
import PromptScript.Proofs.Source.Bytes.Token
import PromptScript.Proofs.Source.OpenBracket

/-!
The bracket that matches the one at an offset of a source. It is found without a negative number of open
brackets, and for a list or a mapping in JSON text it is the last character of that.
-/
namespace PromptScript.Source

open Text Value
open Command (byteLength)

namespace Bytes

variable {front rest read : List Char} {c : Char}

/-- The offset of the bracket that matches the one at an offset of a text. -/
def matchingBracket (text : List Char) (start : Nat) : Checked (Option Nat) := do
  let behind ← require (slice text start (byteLength text))
  closingBracket 0 .code start behind

theorem matchingBracket_append (front behind : List Char) :
    matchingBracket (front ++ behind) (byteLength front) =
      closingBracket 0 .code (byteLength front) behind := by
  rw [matchingBracket, slice_behind, require_some, pure_bind]

/-- The match is found, or not, where it is by characters. -/
theorem matchingBracket_eq (opens : c = '[' ∨ c = '\x7b') (front rest : List Char) :
    matchingBracket (front ++ c :: rest) (byteLength front) =
      pure ((Source.matchingBracket (c :: rest)).map fun n =>
        byteLength (front ++ (c :: rest).take n)) := by
  rw [matchingBracket_append, closingBracket_of_bracket opens]
  simp only [byteLength_append, byteOffset]

/-- Behind a part of a text in which the match is not found, the loop goes on with as many brackets as are open
in that part. -/
theorem closingBracket_read (opens : c = '[' ∨ c = '\x7b')
    (goes : ∀ k ∈ Source.matchingBracket (c :: (read ++ rest)), read.length < k) (offset : Nat) :
    ∃ (depth : Nat) (mode : BracketMode), 1 ≤ depth ∧ (depth : Int) = openBrackets (c :: read) ∧
      ∀ later, closingBracket 0 .code offset (c :: (read ++ later)) =
        closingBracket depth mode (offset + byteLength (c :: read)) later := by
  obtain ⟨depth, mode, positive, counted, onward⟩ := Source.closingBracket_read opens goes
  refine ⟨depth, mode, positive, counted, ?_⟩
  intro later
  have place (n : Nat) : byteOffset (c :: (read ++ later)) (read.length + n + 1) =
      byteLength (c :: read) + byteOffset later n := by
    have front := byteOffset_append (c :: read) later
    have both := byteOffset_add (c :: read ++ later) (c :: read).length n
    rw [front, List.drop_left] at both
    rw [← both, List.length_cons, Nat.add_right_comm]
    rfl
  rw [closingBracket_of_bracket opens, matchingBracket_cons opens, onward,
    closingBracket_of_pos positive, Option.map_map, Option.map_map]
  congr 2
  funext n
  rw [Function.comp_apply, Function.comp_apply, place, Nat.add_assoc]

end Bytes

/-- A list or a mapping in JSON text, wherever in a source it starts and whatever follows it, ends with the
bracket that matches its first one. From any bracket of a source, the number of open brackets does not become
negative, and is at least one until the match is found; the match is the first character behind which the
brackets outside of strings balance, and there is none exactly if they never do. -/
theorem matchingBracket_balances (front behind : List Char) :
    (∀ json rest, Phrase.container.Spells json → behind = json ++ rest →
      matchingBracket behind = some (json.length - 1) ∧
        Bytes.matchingBracket (front ++ behind) (byteLength front) =
          pure (some (byteLength (front ++ json.dropLast)))) ∧
    ∀ c ∈ behind.head?, c = '[' ∨ c = '\x7b' →
      Bytes.matchingBracket (front ++ behind) (byteLength front) =
        pure ((matchingBracket behind).map fun n => byteLength (front ++ behind.take n)) ∧
      (∀ read, read <+: behind → read ≠ [] → (∀ n ∈ matchingBracket behind, read.length ≤ n) →
        ∃ (depth : Nat) (mode : BracketMode), 1 ≤ depth ∧ (depth : Int) = openBrackets read ∧
          ∀ later, Bytes.closingBracket 0 .code (byteLength front) (read ++ later) =
            Bytes.closingBracket depth mode (byteLength (front ++ read)) later) ∧
      (∀ n, matchingBracket behind = some n ↔
        IsLeast {n | n < behind.length ∧ openBrackets (behind.take (n + 1)) = 0} n) ∧
      (matchingBracket behind = none ↔
        ∀ n < behind.length, openBrackets (behind.take (n + 1)) ≠ 0) := by
  constructor
  · rintro json rest container rfl
    have found := matchingBracket_of_spells container rest
    have front' : (json ++ rest).take (json.length - 1) = json.dropLast := by
      rw [List.take_append_of_le_length (Nat.sub_le _ _), List.dropLast_eq_take]
    obtain ⟨opening, closing, inner, opens, -, rfl, -⟩ := exists_enclosed container
    have located := Bytes.matchingBracket_eq opens front (inner ++ [closing] ++ rest)
    rw [← List.cons_append, found, Option.map_some, front'] at located
    exact ⟨found, located⟩
  · intro c first opens
    obtain ⟨rest, rfl⟩ := List.head?_eq_some_iff.mp first
    refine ⟨Bytes.matchingBracket_eq opens front rest, ?_, fun n => matchingBracket_eq_some_iff opens,
      matchingBracket_eq_none_iff opens⟩
    rintro read ⟨more, whole⟩ nonempty goes
    obtain ⟨d, read, rfl⟩ := List.exists_cons_of_ne_nil nonempty
    obtain ⟨rfl, rfl⟩ := List.cons.inj whole
    rw [byteLength_append]
    exact Bytes.closingBracket_read opens goes (byteLength front)

/-- A string with a bracket and an escaped quote in it, in a list behind a character of two bytes. -/
theorem matchingBracket_balances_quoted :
    let json := ['[', '"', ']', '\\', '"', '"', ',', '\x7b', '"', 'a', '"', ':', '[', ']', '\x7d', ']']
    let behind := json ++ [']', '"']
    Phrase.container.Spells json ∧ matchingBracket behind = some 15 ∧
      Bytes.matchingBracket (['é', ' '] ++ behind) 3 = pure (some 18) ∧
      1 ≤ openBrackets (behind.take 8) ∧ openBrackets (behind.take 16) = 0 := by
  intro json behind
  have content : IsContent [']', '\\', '"'] :=
    .char (by decide) (by decide) (by decide) (.mark (by decide) .nil)
  have key : IsContent ['a'] := .char (by decide) (by decide) (by decide) .nil
  have first : Phrase.item.Spells ['"', ']', '\\', '"', '"'] := spells_item (.string content)
  have empty : Phrase.item.Spells ['[', ']'] := spells_item (.container (.emptyList isBlanks_nil))
  have entry : Phrase.entry.Spells ['"', 'a', '"', ':', '[', ']'] :=
    .entry isBlanks_nil key isBlanks_nil empty
  have container : Phrase.container.Spells json :=
    .list (.moreItems first (.lastItem (spells_item (.container (.map (.lastEntry entry))))))
  obtain ⟨whole, search⟩ := matchingBracket_balances ['é', ' '] behind
  obtain ⟨found, located⟩ := whole json _ container rfl
  obtain ⟨-, goes, least, -⟩ := search '[' rfl (.inl rfl)
  refine ⟨container, found, ?_, ?_, ((least 15).mp found).1.2⟩
  · exact located
  · obtain ⟨depth, -, positive, counted, -⟩ := goes (behind.take 8) (List.take_prefix 8 behind)
      (List.cons_ne_nil _ _) (by rw [found]; rintro _ ⟨⟩; decide)
    omega

end PromptScript.Source
