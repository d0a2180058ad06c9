import PromptScript.Proofs.Source.Alike.Line

/-!
Templates whose source is laid out another way. What the body of a source says is read from its logical
lines, so that two sources with the same lines, one by one, have the same nodes.
-/
namespace PromptScript

/-- Both sources are read as templates that are related, or both are refused for a cause of one kind, at
places that are related. -/
inductive ParsedAlike (V : Template → Template → Prop) (L : Nat × Nat → Nat × Nat → Prop) :
    Except ParseError Template → Except ParseError Template → Prop
  | ok {t t' : Template} : V t t' → ParsedAlike V L (.ok t) (.ok t')
  | error {e e' : ParseError} : e.cause.kind = e'.cause.kind → L (e.line, e.column) (e'.line, e'.column) →
    ParsedAlike V L (.error e) (.error e')

namespace Source

open Text

variable {R : Nat → Nat → Prop} {b : Break} {f : Nat → Nat} {s s' : Span}
  {lines lines' : List LogicalLine} {line line' : LogicalLine}

theorem located_alike {V : Template → Template → Prop} {L : Nat × Nat → Nat × Nat → Prop}
    {source source' : List Char} {result result' : Except Fault Template}
    (h : Alike R V result result')
    (places : ∀ n n', R n n' → L (locate source n) (locate source' n')) :
    ParsedAlike V L (located source result) (located source' result') := by
  cases h with
  | ok related => exact .ok related
  | error faults => exact .error faults.kind (places _ _ faults.place)

/-! ### The lines of a body -/

/-- The nodes of lines, the least indented of which set the indentation of the others. -/
def readLines (lines : List LogicalLine) : Except Fault (List Node) :=
  readLayout ((lines.map (·.indent)).min?.getD 0) none (Layout.ofLines lines)

/-- The nodes of the lines of a body. -/
def readBody (s : Span) : Except Fault (List Node) :=
  logicalLines s >>= readLines

theorem readLines_nil : readLines [] = .ok [] := by
  rw [readLines, Layout.ofLines, readLayout]
  rfl

theorem readBody_nil (start : Nat) : readBody ⟨start, []⟩ = .ok [] := by
  rw [readBody, logicalLines_nil]
  exact readLines_nil

theorem readTemplate_eq (source : List Char) : readTemplate source =
    readPreamble source >>= fun preamble =>
      (readBody ⟨preamble.2, source.drop preamble.2⟩).map (⟨preamble.1, ·⟩) := by
  unfold readTemplate
  congr 1
  funext ⟨metadata, start⟩
  unfold readBody
  simp only
  generalize logicalLines _ = read
  cases read with
  | error fault => rfl
  | ok lines =>
    change (readLines lines >>= fun nodes => pure (⟨metadata, nodes⟩ : Template)) =
      (readLines lines).map _
    cases readLines lines <;> rfl

theorem min?_map {values : List Nat} (mono : StrictMono f) :
    (values.map f).min? = values.min?.map f := by
  cases least : values.min? with
  | none =>
    rw [List.min?_eq_none_iff] at least
    rw [least]
    rfl
  | some n =>
    obtain ⟨member, le⟩ := List.min?_eq_some_iff.mp least
    refine List.min?_eq_some_iff.mpr ⟨List.mem_map_of_mem member, fun _ image => ?_⟩
    obtain ⟨m, inside, rfl⟩ := List.mem_map.mp image
    exact mono.monotone (le m inside)

theorem LineAlike.indents (h : List.Forall₂ (LineAlike R b f) lines lines') :
    lines'.map (·.indent) = (lines.map (·.indent)).map f := by
  induction h with
  | nil => rfl
  | cons here _ ih => rw [List.map_cons, List.map_cons, List.map_cons, here.indent, ih]

/-- Lines that say the same, and are indented in the same order, are the same nodes. -/
theorem readLines_alike (mono : StrictMono f) (h : List.Forall₂ (LineAlike R b f) lines lines') :
    Alike R Eq (readLines lines) (readLines lines') := by
  cases least : (lines.map (·.indent)).min? with
  | none =>
    obtain rfl := List.map_eq_nil_iff.mp (List.min?_eq_none_iff.mp least)
    cases h
    rw [readLines_nil]
    exact .ok rfl
  | some n =>
    rw [readLines, readLines, LineAlike.indents h, min?_map mono, least]
    exact readLayout_alike mono (ofLines_reshaped mono h) n none

/-! ### Include markers -/

/-- Where a line goes on over a newline, each include marker in it stands in a text block: the line does not
end in front of the marker, as a block is open there. -/
def LogicalLine.HidesMarkers (line : LogicalLine) : Prop :=
  '\n' ∈ line.span.text → ∀ n < line.span.text.length, ['[', '['] <+: line.span.text.drop n →
    (lineLength .code 0 (line.span.text.take n)).isOk = false

instance (line : LogicalLine) : Decidable line.HidesMarkers :=
  inferInstanceAs (Decidable (_ → _))

/-- The logical lines of the body of a source. -/
def bodyLines (source : List Char) : Except Fault (List LogicalLine) := do
  let (_, start) ← readPreamble source
  logicalLines ⟨start, source.drop start⟩

/-- The lines of a source that go on over a newline have no include markers outside of their text blocks. -/
def HidesMarkers (source : List Char) : Prop :=
  ∀ lines, bodyLines source = .ok lines → ∀ line ∈ lines, line.HidesMarkers

theorem LineMoved.alike (h : LineMoved R b line line') (hides : b = .plain ∨ line.HidesMarkers) :
    LineAlike R b (· + b.margin) line line' where
  indent := h.indent
  span := {
    toMoved := h.span
    settled := by
      rcases hides with plain | hides
      · exact .inl (.inl plain)
      · by_cases newline : '\n' ∈ line.span.text
        · refine .inr ⟨h.ends, fun front back same goesOn => ?_⟩
          have stuck := hides newline front.length (by simp [same]) (by simp [same])
          rw [same, List.take_left, goesOn.length] at stuck
          cases stuck
        · exact .inl (.inr newline)
    breaks := fun _ => h.indent }

/-- The body of a source says the same with other breaks, behind the margin. -/
theorem readBody_alike {start' : Nat} (h : Moved R b s ⟨start' + b.margin, b.write s.text⟩)
    (hides : b = .plain ∨ ∀ lines, logicalLines s = .ok lines → ∀ line ∈ lines, line.HidesMarkers) :
    Alike R Eq (readBody s) (readBody ⟨start', List.replicate b.margin ' ' ++ b.write s.text⟩) := by
  refine ((logicalLines_alike h).and_ok fun _ _ read _ => read).bind fun lines lines' ⟨moved, read⟩ => ?_
  have hidden : ∀ line ∈ lines, b = .plain ∨ line.HidesMarkers :=
    fun line member => hides.imp_right fun all => all lines read line member
  have related : List.Forall₂ (LineAlike R b (· + b.margin)) lines lines' :=
    ((List.forall₂_and_left _ _).mpr ⟨hidden, moved⟩).imp fun _ _ both => both.2.alike both.1
  exact readLines_alike (fun _ _ less => Nat.add_lt_add_right less _) related

end Source

end PromptScript
