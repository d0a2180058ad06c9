import PromptScript.Proofs.Source.Body

/-!
Line endings. A source whose newlines stand behind carriage returns is the same template, and what is wrong
with it is at the same line and column.
-/
namespace PromptScript.Source

open Text

variable {source front text line tail : List Char} {n n' : Nat}

/-- A newline behind a carriage return. -/
def returned : Break :=
  ⟨true, 0⟩

/-- A source in which each newline stands behind a carriage return. -/
def withReturns (source : List Char) : List Char :=
  returned.write source

theorem withReturns_newline (single : '\n' ∉ line) (rest : List Char) :
    withReturns (line ++ '\n' :: rest) = (line ++ ['\r']) ++ '\n' :: withReturns rest := by
  rw [withReturns, Break.write_append, Break.write_of_single single, Break.write_newline,
    List.append_assoc]
  rfl

/-! ### Lines and columns -/

theorem count_withReturns (text : List Char) : (withReturns text).count '\n' = text.count '\n' := by
  induction text with
  | nil => rfl
  | cons c rest ih =>
    unfold withReturns at ih ⊢
    by_cases newline : c = '\n'
    · subst newline
      rw [Break.write_newline, List.count_append, ih, List.count_cons_self, Nat.add_comm]
      rfl
    · rw [Break.write_cons_of_ne newline, List.count_cons_of_ne newline, List.count_cons_of_ne newline, ih]

/-- On the last line both texts are the same. -/
theorem column_withReturns (text : List Char) :
    (withReturns text).reverse.takeWhile (· ≠ '\n') = text.reverse.takeWhile (· ≠ '\n') := by
  induction text using List.reverseRecOn with
  | nil => rfl
  | append_singleton front c ih =>
    unfold withReturns at ih ⊢
    rw [Break.write_append]
    by_cases newline : c = '\n'
    · subst newline
      simp [Break.write_newline, Break.text, returned]
    · have written : returned.write [c] = [c] := Break.write_cons_of_ne newline []
      rw [written, List.reverse_append, List.reverse_append, List.reverse_singleton,
        List.singleton_append, List.singleton_append, List.takeWhile_cons, List.takeWhile_cons, ih]

theorem locate_withReturns (h : returned.Measures source n n') :
    locate source n = locate (withReturns source) n' := by
  have count := count_withReturns (source.take n)
  have column := column_withReturns (source.take n)
  unfold withReturns at count column ⊢
  unfold locate
  rw [h.take_write]
  simp only [count, column]

/-! ### Metadata -/

/-- Places behind which both sources are the same body. -/
def SameBody (source : List Char) (n n' : Nat) : Prop :=
  returned.Measures source n n' ∨ source.length ≤ n ∧ (withReturns source).length ≤ n'

/-- A line that may have a carriage return at its end. -/
structure LineReturned (source : List Char) (line line' : Span) : Prop where
  text : line'.text = line.text ∨ line'.text = line.text ++ ['\r']
  start : returned.Measures source line.start line'.start
  next : SameBody source (line.finish + 1) (line'.finish + 1)

theorem lines_returned (front text : List Char) :
    List.Forall₂ (LineReturned (front ++ text)) (physicalLinesFrom front.length text)
      (physicalLinesFrom (withReturns front).length (withReturns text)) := by
  induction size : text.length using Nat.strongRecOn generalizing front text with
  | ind n ih =>
    obtain ⟨line, tail, rfl, single, ends⟩ := exists_line text
    have start := Break.Measures.of_append returned front (line ++ tail)
    have written : withReturns line = line := Break.write_of_single single
    cases tail with
    | nil =>
      rw [List.append_nil] at start ⊢
      rw [written, physicalLinesFrom_single single, physicalLinesFrom_single single]
      refine .cons ⟨.inl rfl, start, .inr ?_⟩ .nil
      rw [withReturns, Break.write_append, List.length_append, List.length_append,
        Break.write_of_single single]
      exact ⟨Nat.le_succ _, Nat.le_succ _⟩
    | cons c rest =>
      obtain rfl := ends c rfl
      have single' : '\n' ∉ line ++ ['\r'] := by simpa using single
      have shorter : rest.length < n := by
        simp only [List.length_append, List.length_cons] at size
        omega
      have whole : front ++ (line ++ '\n' :: rest) = front ++ (line ++ ['\n']) ++ rest := by simp
      have length : (front ++ (line ++ ['\n'])).length = front.length + line.length + 1 := by
        rw [List.length_append, List.length_append, ← Nat.add_assoc]
        rfl
      have length' : (withReturns (front ++ (line ++ ['\n']))).length =
          (withReturns front).length + (line ++ ['\r']).length + 1 := by
        have last := withReturns_newline single []
        unfold withReturns at last ⊢
        rw [Break.write_append, List.length_append, last, List.length_append, ← Nat.add_assoc]
        rfl
      have later := ih _ shorter (front ++ (line ++ ['\n'])) rest rfl
      have next := Break.Measures.of_append returned (front ++ (line ++ ['\n'])) rest
      rw [length, length', ← whole] at later
      rw [length, show (returned.write _).length = _ from length', ← whole] at next
      rw [withReturns_newline single, physicalLinesFrom_newline single, physicalLinesFrom_newline single']
      exact .cons ⟨.inr rfl, start, .inl next⟩ later

namespace LineReturned

variable {line line' : Span}

theorem trimEnd (h : LineReturned source line line') : Text.trimEnd line'.text = Text.trimEnd line.text := by
  rcases h.text with same | more
  · rw [same]
  · rw [more, trimEnd_append]
    rfl

theorem trim (h : LineReturned source line line') : Text.trim line'.text = Text.trim line.text := by
  rcases h.text with same | more
  · rw [same]
  · rw [more, trim_append_of_blank (List.forall_mem_singleton.mpr (by decide))]

theorem trimEndOf (h : LineReturned source line line') :
    Text.trimEndOf (· = '\r') line'.text = Text.trimEndOf (· = '\r') line.text := by
  rcases h.text with same | more
  · rw [same]
  · rw [more]
    simp [Text.trimEndOf]

theorem isBlankLine (h : LineReturned source line line') :
    isBlankLine line = Source.isBlankLine line' := by
  rw [Source.isBlankLine, Source.isBlankLine, h.trim]

end LineReturned

/-- Places at the same line and column. -/
def SamePlace (source : List Char) (n n' : Nat) : Prop :=
  locate source n = locate (withReturns source) n'

/-- The same metadata, in front of the same body. -/
def SamePreamble (source : List Char) (preamble preamble' : Metadata × Nat) : Prop :=
  preamble.1 = preamble'.1 ∧ SameBody source preamble.2 preamble'.2

variable {lines lines' : List Span}

theorem readBlock_returned (h : List.Forall₂ (LineReturned source) lines lines') {opening opening' : Nat}
    (place : SamePlace source opening opening') (metadata : Metadata) :
    Alike (SamePlace source) (SamePreamble source) (readBlock opening metadata lines)
      (readBlock opening' metadata lines') := by
  induction h generalizing metadata with
  | nil => exact .error ⟨rfl, place⟩
  | cons here _ ih =>
    simp only [readBlock, here.trim]
    split
    · exact .ok ⟨rfl, here.next⟩
    · split
      · exact ih metadata
      · split
        · exact ih _
        · exact .error ⟨rfl, locate_withReturns here.start⟩

theorem readMarked_returned (h : List.Forall₂ (LineReturned source) lines lines') {finish finish' : Nat}
    (body : SameBody source finish finish') (metadata : Metadata) :
    Alike (SamePlace source) (SamePreamble source) (readMarked metadata finish lines)
      (readMarked metadata finish' lines') := by
  induction h generalizing metadata finish finish' with
  | nil => exact .ok ⟨rfl, body⟩
  | cons here _ ih =>
    simp only [readMarked, here.trimEndOf]
    split
    · exact ih here.next _
    · split
      · exact .error ⟨rfl, locate_withReturns here.start⟩
      · exact .ok ⟨rfl, .inl here.start⟩

theorem readPreamble_returned (source : List Char) : Alike (SamePlace source) (SamePreamble source)
    (readPreamble source) (readPreamble (withReturns source)) := by
  have all : List.Forall₂ (LineReturned source) (physicalLines source)
      (physicalLines (withReturns source)) := lines_returned [] source
  have lines := forall₂_dropWhile (p := isBlankLine) (q := isBlankLine)
    (fun _ _ here => here.isBlankLine) all
  unfold readPreamble
  generalize (physicalLines source).dropWhile isBlankLine = lines at lines
  generalize (physicalLines (withReturns source)).dropWhile isBlankLine = lines' at lines
  cases lines with
  | nil => exact .ok ⟨rfl, .inr ⟨le_rfl, le_rfl⟩⟩
  | cons here others =>
    simp only [here.trimEnd]
    split
    · exact readBlock_returned others (locate_withReturns here.start) _
    · exact readMarked_returned (.cons here others) (.inl here.start) _

/-- The source with carriage returns is the same template. -/
theorem parse_withReturns (noReturn : '\r' ∉ source) (untaken : ¬['\\', '\n'] <:+: source)
    (hides : HidesMarkers source) :
    ParsedAlike Eq Eq (Template.parse (.ofList source)) (Template.parse (.ofList (withReturns source))) := by
  have moved : Moved (SamePlace source) returned ⟨0, source⟩ ⟨0, withReturns source⟩ :=
    ⟨rfl, fun measures => by simpa [SamePlace] using locate_withReturns measures, .inr untaken,
      fun _ => noReturn⟩
  have template : Alike (SamePlace source) Eq (readTemplate source) (readTemplate (withReturns source)) := by
    rw [readTemplate_eq, readTemplate_eq]
    refine ((readPreamble_returned source).and_ok fun _ _ read _ => read).bind ?_
    rintro ⟨metadata, start⟩ ⟨_, start'⟩ ⟨⟨rfl, body⟩, read⟩
    have nodes : Alike (SamePlace source) Eq (readBody ⟨start, source.drop start⟩)
        (readBody ⟨start', (withReturns source).drop start'⟩) := by
      rcases body with measures | ⟨past, past'⟩
      · have written : (withReturns source).drop start' = returned.write (source.drop start) :=
          measures.drop_write
        have inner := moved.drop measures
        rw [Span.drop, Span.drop, Nat.zero_add, Nat.zero_add, written] at inner
        rw [written]
        refine readBody_alike inner (.inr fun lines found => hides lines ?_)
        rw [bodyLines, read]
        exact found
      · rw [List.drop_eq_nil_of_le past, List.drop_eq_nil_of_le past', readBody_nil, readBody_nil]
        exact .ok rfl
    exact nodes.map fun _ _ same => congrArg _ same
  rw [Template.parse, Template.parse, String.toList_ofList, String.toList_ofList]
  exact located_alike template fun _ _ same => same

/-- An entry of metadata, and a text block with the marks of an include in it. -/
theorem parse_withReturns_block :
    let source := ['@', 'k', ':', 'v', '\n', '<', '<', '\n', '[', '[', 'y', '\n', '>', '>']
    '\r' ∉ source ∧ ¬['\\', '\n'] <:+: source ∧ HidesMarkers source ∧
      ParsedAlike Eq Eq (Template.parse (.ofList source))
        (Template.parse (.ofList (withReturns source))) := by
  intro source
  have noReturn : '\r' ∉ source := by decide
  have untaken : ¬['\\', '\n'] <:+: source := by decide
  have hides : HidesMarkers source := by
    intro lines read
    have found : bodyLines source = .ok [⟨0, ⟨5, source.drop 5⟩⟩] := by decide +kernel
    rw [found] at read
    cases read
    decide
  exact ⟨noReturn, untaken, hides, parse_withReturns noReturn untaken hides⟩

end PromptScript.Source
