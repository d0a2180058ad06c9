import PromptScript.Proofs.Computation
import PromptScript.Proofs.Text.Break
import PromptScript.Source.Fault

/-!
Two texts that say the same, though the second stands elsewhere and breaks its lines another way. What is
read from the first is compared with what is read from the second: both readings give related results, or
both fail for a cause of the same kind, at places that belong together.
-/
namespace PromptScript

/-- A cause without the part of the source that its message shows. -/
def ParseCause.kind : ParseCause → ParseCause
  | .missingBody _ => .missingBody ""
  | .malformedDirective _ => .malformedDirective ""
  | .unexpectedToken _ => .unexpectedToken ""
  | cause => cause

namespace Source

open Text

/-- The results are related, or both are faults that are related. -/
inductive Related {α β : Type} (F : Fault → Fault → Prop) (V : α → β → Prop) :
    Except Fault α → Except Fault β → Prop
  | ok {a : α} {a' : β} : V a a' → Related F V (.ok a) (.ok a')
  | error {fault fault' : Fault} : F fault fault' → Related F V (.error fault) (.error fault')

/-- Faults of one kind whose offsets are related. -/
structure FaultAlike (R : Nat → Nat → Prop) (fault fault' : Fault) : Prop where
  kind : fault.cause.kind = fault'.cause.kind
  place : R fault.offset fault'.offset

/-- The results are related, or both are faults of one kind whose offsets are related. -/
abbrev Alike {α β : Type} (R : Nat → Nat → Prop) (V : α → β → Prop) :
    Except Fault α → Except Fault β → Prop :=
  Related (FaultAlike R) V

namespace Related

variable {α β γ δ : Type} {F : Fault → Fault → Prop} {V : α → β → Prop} {W : γ → δ → Prop}
  {result : Except Fault α} {result' : Except Fault β}

theorem bind {f : α → Except Fault γ} {f' : β → Except Fault δ} (h : Related F V result result')
    (next : ∀ a a', V a a' → Related F W (f a) (f' a')) :
    Related F W (result >>= f) (result' >>= f') := by
  cases h with
  | ok related => exact next _ _ related
  | error faults => exact .error faults

theorem map {f : α → γ} {f' : β → δ} (h : Related F V result result')
    (next : ∀ a a', V a a' → W (f a) (f' a')) : Related F W (result.map f) (result'.map f') := by
  cases h with
  | ok related => exact .ok (next _ _ related)
  | error faults => exact .error faults

theorem mono {V' : α → β → Prop} (h : Related F V result result') (le : ∀ a a', V a a' → V' a a') :
    Related F V' result result' := by
  cases h with
  | ok related => exact .ok (le _ _ related)
  | error faults => exact .error faults

/-- What is known of the results when both readings succeed holds beside what relates them. -/
theorem and_ok {V' : α → β → Prop} (h : Related F V result result')
    (more : ∀ a a', result = .ok a → result' = .ok a' → V' a a') :
    Related F (fun a a' => V a a' ∧ V' a a') result result' := by
  cases h with
  | ok related => exact .ok ⟨related, more _ _ rfl rfl⟩
  | error faults => exact .error faults

theorem mapM {f : α → Except Fault γ} {f' : β → Except Fault δ} {items : List α} {items' : List β}
    (related : List.Forall₂ V items items') (next : ∀ a a', V a a' → Related F W (f a) (f' a')) :
    Related F (List.Forall₂ W) (items.mapM f) (items'.mapM f') := by
  induction related with
  | nil => exact .ok .nil
  | cons here _ ih =>
    rw [List.mapM_cons, List.mapM_cons]
    exact (next _ _ here).bind fun _ _ first => ih.bind fun _ _ others => .ok (.cons first others)

end Related

section

variable {α β : Type} {V : α → β → Prop} {p : α → Bool} {q : β → Bool} {items : List α} {items' : List β}

theorem forall₂_takeWhile (same : ∀ a a', V a a' → p a = q a') (h : List.Forall₂ V items items') :
    List.Forall₂ V (items.takeWhile p) (items'.takeWhile q) := by
  induction h with
  | nil => exact .nil
  | cons here _ ih =>
    rw [List.takeWhile_cons, List.takeWhile_cons, same _ _ here]
    split
    · exact .cons here ih
    · exact .nil

theorem forall₂_dropWhile (same : ∀ a a', V a a' → p a = q a') (h : List.Forall₂ V items items') :
    List.Forall₂ V (items.dropWhile p) (items'.dropWhile q) := by
  induction h with
  | nil => exact .nil
  | cons here others ih =>
    rw [List.dropWhile_cons, List.dropWhile_cons, same _ _ here]
    split
    · exact ih
    · exact .cons here others

end

/-! ### Spans -/

theorem Span.text_trimStart (s : Span) : s.trimStart.text = Text.trimStart s.text := by
  rw [Span.trimStart, Span.text_drop, Text.trimStart]
  nth_rewrite 2 [← List.takeWhile_append_dropWhile (p := Text.isBlank) (l := s.text)]
  exact List.drop_left

theorem Span.drop_drop (s : Span) (n m : Nat) : (s.drop n).drop m = s.drop (n + m) := by
  rw [Span.drop, Span.drop, Span.drop, List.drop_drop, Nat.add_assoc]

/-- The second span has the text of the first with its line breaks written another way, and the places in
both belong together. -/
structure Moved (R : Nat → Nat → Prop) (b : Break) (s s' : Span) : Prop where
  text : s'.text = b.write s.text
  places : ∀ {n m}, b.Measures s.text n m → R (s.start + n) (s'.start + m)
  untaken : b.Untaken s.text
  /-- A carriage return in front of a newline is told from those of the text. -/
  single : b.carriageReturn = true → '\r' ∉ s.text

namespace Moved

variable {R : Nat → Nat → Prop} {b : Break} {s s' : Span} {n m : Nat} {front rest : List Char}

theorem drop (h : Moved R b s s') (measures : b.Measures s.text n m) :
    Moved R b (s.drop n) (s'.drop m) where
  text := by rw [Span.text_drop, Span.text_drop, h.text, measures.drop_write]
  places more := by
    rw [Span.start_drop, Span.start_drop, Nat.add_assoc, Nat.add_assoc]
    exact h.places (measures.drop more)
  untaken := h.untaken.of_infix (List.drop_suffix n s.text).isInfix
  single carriage member := h.single carriage (List.mem_of_mem_drop member)

theorem take (h : Moved R b s s') (measures : b.Measures s.text n m) :
    Moved R b (s.take n) (s'.take m) where
  text := by rw [Span.text_take, Span.text_take, h.text, measures.take_write]
  places more := by
    obtain ⟨front, rest, split, rfl, rfl⟩ := more.exists_append
    refine h.places ?_
    rw [Span.text_take] at split
    rw [← List.take_append_drop n s.text, split, List.append_assoc]
    exact .of_append b front _
  untaken := h.untaken.of_infix (List.take_prefix n s.text).isInfix
  single carriage member := h.single carriage (List.mem_of_mem_take member)

theorem start (h : Moved R b s s') : R s.start s'.start :=
  h.places (.zero b s.text)

theorem finish (h : Moved R b s s') : R s.finish s'.finish := by
  rw [Span.finish, Span.finish, h.text]
  exact h.places (.whole b s.text)

theorem drop_takeWhile (h : Moved R b s s') {p : Char → Bool} (newline : p '\n' = false)
    (carriage : p '\r' = false) : Moved R b (s.drop (s.text.takeWhile p).length)
      (s'.drop (s'.text.takeWhile p).length) := by
  rw [h.text, Break.takeWhile_write newline carriage]
  exact h.drop (.of_takeWhile newline s.text)

theorem trimStart (h : Moved R b s s') : Moved R b s.trimStart s'.trimStart := by
  have measures := Break.Measures.of_append b (s.text.takeWhile isBlank) (s.text.dropWhile isBlank)
  rw [List.takeWhile_append_dropWhile] at measures
  rw [Span.trimStart, Span.trimStart, h.text,
    Break.takeWhile_write_of_blanks (by decide) (by decide) (by decide)]
  exact h.drop measures

theorem fault {α β : Type} {V : α → β → Prop} (h : Moved R b s s') {cause cause' : ParseCause}
    (kind : cause.kind = cause'.kind) : Alike R V (s.fault cause) (s'.fault cause') :=
  .error ⟨kind, h.start⟩

theorem unexpected {α β : Type} {V : α → β → Prop} (h : Moved R b s s') :
    Alike R V s.unexpected s'.unexpected :=
  h.fault rfl

theorem word (h : Moved R b s s') : s'.word = s.word := by
  rw [Span.word, Span.word, h.text, Break.takeWhile_write]
  · exact isNameChar_of_lt (by decide)
  · exact isNameChar_of_lt (by decide)

end Moved

section

variable {R : Nat → Nat → Prop} {b : Break} {s s' : Span} {n : Nat}

/-- Where a text has no breaks to write, the second span has the same text. -/
theorem Moved.toPlain (h : Moved R b s s') (idle : b.Idle s.text) : Moved R .plain s s' where
  text := by rw [h.text, idle.write_eq, Break.plain_write]
  places := by
    intro n m measures
    obtain ⟨front, rest, split, rfl, rfl⟩ := measures.exists_append
    rw [Break.plain_write]
    refine h.places ?_
    rw [split] at idle ⊢
    have here := Break.Measures.of_append b front rest
    rwa [(idle.of_subset fun _ => List.mem_append_left rest).write_eq] at here
  untaken := .inl rfl
  single := nofun

theorem Moved.plain_text (h : Moved R .plain s s') : s'.text = s.text :=
  h.text.trans (Break.plain_write s.text)

/-- A text says the same elsewhere. -/
theorem Moved.same (text : s.text = s'.text) :
    Moved (fun _ _ => True) .plain s s' :=
  ⟨by rw [Break.plain_write, text], fun _ => trivial, .inl rfl, nofun⟩

end

end Source

end PromptScript
