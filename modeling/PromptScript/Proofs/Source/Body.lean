import PromptScript.Proofs.Source.Alike.Template

/-!
Sources without metadata. Whether a source has any shows in its first line that is not blank, and without
any the whole source is its body.
-/
namespace PromptScript.Source

open Text

variable {text line tail content : List Char} {c : Char}

/-! ### Lines that are no metadata -/

theorem looksMarked_append_returns (returns : ∀ c ∈ tail, c = '\r') :
    looksMarked (content ++ tail) = looksMarked content := by
  have bars : Bars (fun c => !isBlank c) tail := by
    intro c member
    rw [returns c (List.mem_of_mem_head? member)]
    decide
  cases content with
  | nil =>
    cases tail with
    | nil => rfl
    | cons c more =>
      obtain rfl := returns c List.mem_cons_self
      rfl
  | cons c rest =>
    by_cases marked : c = '@'
    · subst marked
      rw [List.cons_append, looksMarked, looksMarked, takeWhile_append_bars bars]
    · rw [List.cons_append, looksMarked, looksMarked]
      · simpa using marked
      · simpa using marked

theorem looksMarked_trimEndOf (line : List Char) :
    looksMarked (trimEndOf (· = '\r') line) = looksMarked line := by
  obtain ⟨returns, same, all⟩ := exists_trimEndOf (· = '\r') line
  conv_rhs => rw [same]
  exact (looksMarked_append_returns fun c member => of_decide_eq_true (all c member)).symm

theorem looksMarked_of_entry {entry : List Char × List Char}
    (h : markedEntry? line = some entry) : looksMarked line = true := by
  unfold markedEntry? at h
  split at h
  · next first rest =>
    simp only at h
    split at h
    · next value starts ends =>
      have solid : ∀ c ∈ first :: rest.takeWhile (fun c => isWordChar c || c = '.' || c = '-'),
          (!isBlank c) = true := by
        refine List.forall_mem_cons.mpr ⟨?_, fun c member => ?_⟩
        · rw [not_isBlank_of_isNameChar (isNameChar_of_isNameStart (isNameStart_of_isPlainNameStart starts))]
          rfl
        · have continues := List.mem_takeWhile_imp member
          simp only [Bool.or_eq_true, decide_eq_true_eq] at continues
          rcases continues with (word | rfl) | rfl
          · rw [not_isBlank_of_isWordChar word]
            rfl
          · decide
          · decide
      have split := List.takeWhile_append_dropWhile
        (p := fun c => isWordChar c || c = '.' || c = '-') (l := rest)
      rw [ends] at split
      rw [← split, looksMarked, ← List.cons_append, List.takeWhile_append_of_pos solid,
        List.takeWhile_cons_of_pos (by decide)]
      simp
    · cases h
  · cases h

/-- A line is no metadata if it neither is a fence nor looks like an entry. -/
theorem isBody_iff :
    IsBody line ↔ isFence (trimEnd line) = false ∧ looksMarked line = false := by
  rw [← looksMarked_trimEndOf]
  refine ⟨fun body => ⟨body.fence, body.marked⟩, fun ⟨fence, marked⟩ => ⟨fence, ?_, marked⟩⟩
  refine Option.eq_none_iff_forall_ne_some.mpr fun entry found => ?_
  rw [looksMarked_of_entry found] at marked
  cases marked

/-! ### Blank lines in front -/

/-- A text is blank, or its first line that is not blank stands behind blank lines. -/
theorem blank_or_exists_line (text : List Char) (start : Nat) :
    ((physicalLinesFrom start text).dropWhile isBlankLine = [] ∧
      ∀ p, logicalLines ⟨p, text⟩ = .ok []) ∨
    ∃ blanks line tail, text = blanks ++ (line ++ tail) ∧ '\n' ∉ line ∧ EndsLine tail ∧
      isBlankLine ⟨start + blanks.length, line⟩ = false ∧
      (physicalLinesFrom start text).dropWhile isBlankLine =
        physicalLinesFrom (start + blanks.length) (line ++ tail) ∧
      ∀ p, logicalLines ⟨p, text⟩ = logicalLines ⟨p + blanks.length, line ++ tail⟩ := by
  induction size : text.length using Nat.strongRecOn generalizing text start with
  | ind n ih =>
    obtain ⟨line, tail, rfl, single, ends⟩ := exists_line text
    cases blank : isBlankLine ⟨start, line⟩ with
    | false =>
      obtain ⟨others, first⟩ := physicalLinesFrom_cons single ends start
      refine .inr ⟨[], line, tail, rfl, single, ends, blank, ?_, fun p => rfl⟩
      rw [first, List.dropWhile_cons_of_neg (by simp [blank])]
      exact first.symm
    | true =>
      have silent : isSilent (contentOf line) = true :=
        isSilent_of_blank fun c member =>
          isBlankLine_iff.mp blank c ((List.dropWhile_suffix isIndent).mem member)
      have skipped (p : Nat) := logicalLines_silent single ends silent p
      cases tail with
      | nil =>
        refine .inl ⟨?_, fun p => (skipped p).trans (logicalLines_nil _)⟩
        rw [List.append_nil, physicalLinesFrom_single single, List.dropWhile_cons_of_pos blank]
        rfl
      | cons c rest =>
        obtain rfl := ends c rfl
        rw [physicalLinesFrom_newline single, List.dropWhile_cons_of_pos blank]
        have shorter : rest.length < n := by
          simp only [List.length_append, List.length_cons] at size
          omega
        rcases ih _ shorter rest (start + line.length + 1) rfl with
          ⟨none, same⟩ | ⟨blanks, first, tail, rfl, single', ends', visible, behind, same⟩
        · exact .inl ⟨none, fun p => (skipped p).trans (same _)⟩
        · refine .inr ⟨line ++ '\n' :: blanks, first, tail, by simp, single', ends', visible, ?_,
            fun p => ?_⟩
          · rw [behind]
            congr 1
            simp only [List.length_append, List.length_cons]
            omega
          · rw [skipped, List.drop_one, List.tail_cons, same]
            congr 2
            simp only [List.length_append, List.length_cons]
            omega

/-- The first line that is not blank starts no metadata. -/
def StartsPlainly (source : List Char) : Prop :=
  ∀ line ∈ ((physicalLines source).dropWhile isBlankLine).head?,
    isFence (trimEnd line.text) = false ∧ looksMarked line.text = false

instance (source : List Char) : Decidable (StartsPlainly source) :=
  inferInstanceAs (Decidable (∀ line ∈ ((physicalLines source).dropWhile isBlankLine).head?, _))

/-- The first line of all is no metadata either: it is blank if it is not the line in question. -/
theorem StartsPlainly.isBody {source : List Char} (plain : StartsPlainly source) {more : List (List Char)}
    (first : pieces (· = '\n') source = line :: more) : IsBody line := by
  unfold StartsPlainly physicalLines at plain
  rw [first, lineSpans] at plain
  cases blank : isBlankLine ⟨0, line⟩ with
  | true =>
    refine .of_head fun c head => ?_
    have blank := isBlankLine_iff.mp blank c (List.mem_of_mem_head? head)
    constructor <;> rintro rfl <;> exact absurd blank (by decide)
  | false =>
    rw [List.dropWhile_cons_of_neg (by simp [blank])] at plain
    exact isBody_iff.mpr (plain _ rfl)

theorem readPreamble_of_plain {source : List Char} (plain : StartsPlainly source) :
    ∃ start, readPreamble source = .ok (.empty, start) ∧
      logicalLines ⟨start, source.drop start⟩ = logicalLines ⟨0, source⟩ := by
  unfold StartsPlainly at plain
  unfold readPreamble
  rw [show physicalLines source = physicalLinesFrom 0 source from rfl] at plain ⊢
  rcases blank_or_exists_line source 0 with
    ⟨none, same⟩ | ⟨blanks, line, tail, rfl, single, ends, visible, behind, same⟩
  · rw [none]
    exact ⟨_, rfl, by rw [List.drop_length, logicalLines_nil, same]⟩
  · obtain ⟨others, first⟩ := physicalLinesFrom_cons single ends (0 + blanks.length)
    rw [behind, first] at plain ⊢
    have body := isBody_iff.mpr (plain _ rfl)
    simp only [body.fence, Bool.false_eq_true, if_false, readMarked, body.entry, body.marked]
    refine ⟨_, rfl, ?_⟩
    rw [Nat.zero_add, List.drop_left, same, Nat.zero_add]

/-- A source without metadata is its body. -/
theorem readTemplate_of_plain {source : List Char} (plain : StartsPlainly source) :
    readTemplate source = (readBody ⟨0, source⟩).map (⟨.empty, ·⟩) := by
  obtain ⟨start, preamble, same⟩ := readPreamble_of_plain plain
  rw [readTemplate_eq, preamble]
  change (readBody ⟨start, source.drop start⟩).map _ = _
  rw [readBody, same, readBody]

theorem bodyLines_of_plain {source : List Char} (plain : StartsPlainly source) :
    bodyLines source = logicalLines ⟨0, source⟩ := by
  obtain ⟨start, preamble, same⟩ := readPreamble_of_plain plain
  rw [bodyLines, preamble]
  exact same

end PromptScript.Source
