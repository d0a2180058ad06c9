import PromptScript.Proofs.Source.Alike.Basic
import PromptScript.Proofs.Text.Slice

/-!
Reading a source by bytes. Offsets count bytes here, and what stands between two of them is a slice of the
source. A reading that takes a slice where there is none, or subtracts more than there is, stops without a
result; that is told apart from a fault of the source. Each such reading goes along with the reading by
characters: the same result or the same fault, at places that belong together.
-/
namespace PromptScript.Source.Bytes

open Text
open Command (byteLength)

variable {α β γ δ : Type}

/-- A reading of a source. It gives nothing at all where it cannot go on. -/
abbrev Checked := ExceptT Fault Option

/-- What must exist, if the reading is to go on. -/
def require (found : Option α) : Checked α :=
  ExceptT.lift found

/-- A difference that must not be negative. -/
def subtract (n m : Nat) : Checked Nat :=
  require (if m ≤ n then some (n - m) else none)

def fault (offset : Nat) (cause : ParseCause) : Checked α :=
  throw ⟨cause, offset⟩

theorem require_some (a : α) : require (some a) = pure a :=
  rfl

theorem subtract_of_le {n m : Nat} (h : m ≤ n) : subtract n m = pure (n - m) := by
  rw [subtract, if_pos h, require_some]

/-! ### Readings that go along -/

/-- Faults of one cause at one place, counted in bytes and in characters. -/
structure SameFault (source : List Char) (found found' : Fault) : Prop where
  cause : found.cause = found'.cause
  offset : found.offset = byteOffset source found'.offset

/-- A reading by bytes that never stops without a result, and gives what a reading by characters gives. -/
def Follows (source : List Char) (V : α → β → Prop) (reading : Checked α) (result : Except Fault β) :
    Prop :=
  ∃ found, reading.run = some found ∧ Related (SameFault source) V found result

namespace Follows

variable {source : List Char} {V : α → β → Prop} {W : γ → δ → Prop} {reading : Checked α}
  {result : Except Fault β} {a : α} {b : β} {n m : Nat}

theorem ok (h : V a b) : Follows source V (pure a) (.ok b) :=
  ⟨.ok a, rfl, .ok h⟩

theorem fault (cause : ParseCause) (h : n = byteOffset source m) :
    Follows source V (Bytes.fault n cause) (.error ⟨cause, m⟩) :=
  ⟨.error ⟨cause, n⟩, rfl, .error ⟨rfl, h⟩⟩

theorem of_related {found : Except Fault α} (h : Related (SameFault source) V found result) :
    Follows source V (ExceptT.mk (some found)) result :=
  ⟨found, rfl, h⟩

theorem bind {next : α → Checked γ} {next' : β → Except Fault δ} (h : Follows source V reading result)
    (later : ∀ a b, V a b → Follows source W (next a) (next' b)) :
    Follows source W (reading >>= next) (result >>= next') := by
  obtain ⟨found, run, related⟩ := h
  obtain rfl : reading = ExceptT.mk (some found) := run
  cases related with
  | ok values => exact later _ _ values
  | error same => exact ⟨_, rfl, .error same⟩

theorem map {f : α → γ} {f' : β → δ} (h : Follows source V reading result)
    (later : ∀ a b, V a b → W (f a) (f' b)) : Follows source W (f <$> reading) (result.map f') := by
  obtain ⟨found, run, related⟩ := h
  obtain rfl : reading = ExceptT.mk (some found) := run
  cases related with
  | ok values => exact .ok (later _ _ values)
  | error same => exact ⟨_, rfl, .error same⟩

theorem map_right {W : α → δ → Prop} {f : β → δ} (h : Follows source V reading result)
    (later : ∀ a b, V a b → W a (f b)) : Follows source W reading (result.map f) := by
  have both := h.map (f := id) later
  rwa [id_map] at both

theorem mono {V' : α → β → Prop} (h : Follows source V reading result)
    (le : ∀ a b, V a b → V' a b) : Follows source V' reading result := by
  obtain ⟨found, run, related⟩ := h
  exact ⟨found, run, related.mono le⟩

/-- What is known of a result by characters holds beside what relates it. -/
theorem and_ok {P : β → Prop} (h : Follows source V reading result)
    (more : ∀ b, result = .ok b → P b) : Follows source (fun a b => V a b ∧ P b) reading result := by
  obtain ⟨found, run, related⟩ := h
  exact ⟨found, run, related.and_ok fun _ b _ read => more b read⟩

theorem mapM {f : α → Checked γ} {f' : β → Except Fault δ} {items : List α} {items' : List β}
    (related : List.Forall₂ V items items') (each : ∀ a b, V a b → Follows source W (f a) (f' b)) :
    Follows source (List.Forall₂ W) (items.mapM f) (items'.mapM f') := by
  induction related with
  | nil => exact .ok .nil
  | cons here _ ih =>
    rw [List.mapM_cons, List.mapM_cons]
    exact (each _ _ here).bind fun _ _ first => ih.bind fun _ _ others => .ok (.cons first others)

end Follows

/-! ### Spans in bytes -/

/-- A part of the source between two offsets. -/
structure ByteSpan where
  start : Nat
  stop : Nat
deriving DecidableEq, Repr, Inhabited

namespace ByteSpan

variable (source : List Char)

def text (s : ByteSpan) : Checked (List Char) :=
  require (slice source s.start s.stop)

/-- The part from the first character that is not blank. -/
def trimStart (s : ByteSpan) : Checked ByteSpan := do
  let rest ← s.text source
  let blank ← subtract (byteLength rest) (byteLength (Text.trimStart rest))
  return ⟨s.start + blank, s.stop⟩

/-- The word of name characters at the start. -/
def word (s : ByteSpan) : Checked (List Char) := do
  let rest ← s.text source
  require (slice rest 0 (byteLength (rest.takeWhile isNameChar)))

/-- A fault that shows the first run of characters that are not blank. -/
def unexpected (s : ByteSpan) : Checked α := do
  let rest ← s.text source
  fault s.start (.unexpectedToken (.ofList ((words rest).headD [])))

def isEmpty (s : ByteSpan) : Bool :=
  s.stop ≤ s.start

end ByteSpan

/-- A span counted in bytes and in characters, which stands in the source. -/
structure Stands (source : List Char) (r : ByteSpan) (s : Span) : Prop where
  text : s.text <+: source.drop s.start
  start : r.start = byteOffset source s.start
  stop : r.stop = byteOffset source s.finish

variable {source : List Char} {r : ByteSpan} {s : Span} {n m : Nat}

/-- All that is behind an offset. -/
theorem Stands.behind (source : List Char) (n : Nat) :
    Stands source ⟨byteOffset source n, byteLength source⟩ ⟨n, source.drop n⟩ where
  text := List.prefix_rfl
  start := rfl
  stop := by
    refine (byteOffset_of_length_le ?_).symm
    simp only [Span.finish, List.length_drop]
    omega

namespace Stands

theorem byteOffset_text (h : Stands source r s) (within : n ≤ s.text.length) :
    byteOffset s.text n = byteOffset (source.drop s.start) n := by
  obtain ⟨rest, whole⟩ := h.text
  rw [byteOffset, byteOffset, ← whole, List.take_append_of_le_length within]

/-- Where a character of the span stands. -/
theorem offset (h : Stands source r s) (within : n ≤ s.text.length) :
    r.start + byteOffset s.text n = byteOffset source (s.start + n) := by
  rw [byteOffset_add, h.start, h.byteOffset_text within]

theorem slice_text (h : Stands source r s) : slice source r.start r.stop = some s.text := by
  obtain ⟨rest, whole⟩ := h.text
  rw [h.start, h.stop, Span.finish, slice_byteOffset source (Nat.le_add_right _ _),
    Nat.add_sub_cancel_left, ← whole, List.take_left]

/-- All of the source up to the end of the span. -/
theorem slice_before (h : Stands source r s) :
    slice source 0 r.stop = some (source.take s.start ++ s.text) := by
  obtain ⟨rest, whole⟩ := h.text
  refine slice_eq_some_iff.mpr ⟨[], rest, ?_, byteLength_nil.symm, ?_⟩
  · rw [List.nil_append, List.append_assoc, whole, List.take_append_drop]
  · rw [List.nil_append, byteLength_append, h.stop, Span.finish, byteOffset_add, byteOffset,
      byteOffset, ← whole, List.take_left]

theorem text_eq (h : Stands source r s) : r.text source = pure s.text := by
  rw [ByteSpan.text, h.slice_text, require_some]

/-- The part behind the first `n` characters. -/
theorem drop (h : Stands source r s) (within : n ≤ s.text.length) :
    Stands source ⟨r.start + byteOffset s.text n, r.stop⟩ (s.drop n) where
  text := by
    rw [Span.text_drop, Span.start_drop, ← List.drop_drop]
    obtain ⟨rest, whole⟩ := h.text
    exact ⟨rest, by rw [← whole, List.drop_append_of_le_length within]⟩
  start := h.offset within
  stop := by
    rw [h.stop, Span.finish, Span.finish, Span.text_drop, Span.start_drop, List.length_drop]
    congr 1
    omega

/-- The part behind a number of bytes that the first `n` characters take. -/
theorem drop_bytes (h : Stands source r s) (within : n ≤ s.text.length)
    (size : m = byteOffset s.text n) : Stands source ⟨r.start + m, r.stop⟩ (s.drop n) :=
  size ▸ h.drop within

theorem take (h : Stands source r s) (within : n ≤ s.text.length) :
    Stands source ⟨r.start, r.start + byteOffset s.text n⟩ (s.take n) where
  text := (List.take_prefix n s.text).trans h.text
  start := h.start
  stop := by
    rw [h.offset within, Span.finish, Span.text_take, List.length_take, Nat.min_eq_left within]
    rfl

theorem stop_eq (h : Stands source r s) : r.stop = r.start + byteLength s.text := by
  rw [h.stop, Span.finish, ← h.offset (Nat.le_refl _), byteOffset_of_length_le (Nat.le_refl _)]

theorem isEmpty (h : Stands source r s) : r.isEmpty = s.text.isEmpty := by
  rw [ByteSpan.isEmpty, h.stop_eq, Bool.eq_iff_iff, List.isEmpty_iff, decide_eq_true_iff,
    ← byteLength_eq_zero_iff]
  omega

theorem exists_trimStart (h : Stands source r s) :
    ∃ t, r.trimStart source = pure t ∧ t.stop = r.stop ∧ Stands source t s.trimStart := by
  refine ⟨⟨r.start + byteOffset s.text (s.text.takeWhile isBlank).length, r.stop⟩, ?_, rfl,
    h.drop (List.takeWhile_prefix isBlank).length_le⟩
  -- The blanks take what the whole takes more than what is left of it.
  have split : byteLength (s.text.takeWhile isBlank) + byteLength (Text.trimStart s.text) =
      byteLength s.text := by
    rw [← byteLength_append, Text.trimStart, List.takeWhile_append_dropWhile]
  rw [ByteSpan.trimStart, h.text_eq, pure_bind, subtract_of_le (by omega), pure_bind,
    ← byteLength_takeWhile, ← split, Nat.add_sub_cancel]

theorem word_eq (h : Stands source r s) : r.word source = pure s.word := by
  have found : slice s.text 0 (byteLength (s.text.takeWhile isNameChar)) =
      some (s.text.takeWhile isNameChar) :=
    slice_eq_some_iff.mpr ⟨[], s.text.dropWhile isNameChar,
      List.takeWhile_append_dropWhile.symm, byteLength_nil.symm, rfl⟩
  rw [ByteSpan.word, h.text_eq, pure_bind, found, require_some, Span.word]

theorem unexpected {V : α → β → Prop} (h : Stands source r s) :
    Follows source V (r.unexpected source) s.unexpected := by
  rw [ByteSpan.unexpected, h.text_eq, pure_bind]
  exact .fault _ h.start

theorem fault {V : α → β → Prop} (h : Stands source r s) (cause : ParseCause) :
    Follows source V (Bytes.fault r.start cause) (s.fault cause) :=
  .fault cause h.start

end Stands

/-- One result, and what is left of a span behind it. -/
def SameEnd (source : List Char) (r : ByteSpan) (s : Span) (found found' : α × Nat) : Prop :=
  found.1 = found'.1 ∧ Stands source ⟨found.2, r.stop⟩ (s.drop found'.2)

end PromptScript.Source.Bytes
