import PromptScript.Proofs.Source.Blank

/-!
Templates from their first line, and lines of directives.
-/
namespace PromptScript.Source

open Text

variable {text rest content tail name value : List Char} {c : Char} {lines : List LogicalLine}
  {nodes : List Node} {node : Node} {e : Expr}

/-! ### Templates that start with a line -/

/-- A line that is not indented. -/
def LogicalLine.atMargin (start : Nat) (content : List Char) : LogicalLine :=
  ⟨0, ⟨start, trimEnd content⟩⟩

theorem logicalLines_atMargin (isLine : IsLine content) (ends : EndsLine tail) (start : Nat) :
    logicalLines ⟨start, content ++ tail⟩ =
      (logicalLines ⟨start + (content.length + 1), tail.drop 1⟩).map (.atMargin start content :: ·) :=
  logicalLines_row isLine (List.forall_mem_nil _) ends start

/-- A source whose first line is not indented is read as that line and those behind it. -/
theorem readTemplate_of_first (isLine : IsLine content) (isBody : IsBody content)
    (ends : EndsLine tail) (behind : logicalLines ⟨content.length + 1, tail.drop 1⟩ = .ok lines)
    (read : readLayout 0 none (Layout.ofLines (.atMargin 0 content :: lines)) = .ok nodes) :
    readTemplate (content ++ tail) = .ok ⟨.empty, nodes⟩ := by
  have visible : isBlankLine ⟨0, [] ++ content⟩ = false := not_isBlankLine isLine
  have preamble := readPreamble_append isLine.single ends visible isBody
  have logical := logicalLines_atMargin isLine ends 0
  rw [Nat.zero_add, behind] at logical
  have least : ∀ line ∈ LogicalLine.atMargin 0 content :: lines, 0 ≤ line.indent :=
    fun line _ => Nat.zero_le line.indent
  have level : (LogicalLine.atMargin 0 content).indent = 0 := rfl
  simp only [readTemplate, preamble, List.drop_zero, logical, Except.map, min_indent least, level,
    Option.getD_some, read, bind, Except.bind]
  rfl

/-- A source of one line that is a node of its own. -/
theorem readTemplate_of_statement (isLine : IsLine content) (isBody : IsBody content)
    (read : ∀ line : LogicalLine, line.span.text = trimEnd content →
      readStatement line = .ok (.node node)) : readTemplate content = .ok ⟨.empty, [node]⟩ := by
  have statement := read (.atMargin 0 content) rfl
  have starts := continuesChain_of_readStatement statement (bars_trimEnd isLine.start)
  have done : readLayout 0 none [] = .ok [] := by rw [readLayout]; rfl
  -- Nothing stands inside the line, and nothing behind it.
  have whole : readLayout 0 none (Layout.ofLines [.atMargin 0 content]) = .ok [node] := by
    rw [Layout.ofLines, List.takeWhile_nil, List.dropWhile_nil, Layout.ofLines]
    exact readLayout_leaf rfl starts statement done
  have parsed := readTemplate_of_first isLine isBody .nil (logicalLines_nil _) whole
  rwa [List.append_nil] at parsed

/-- What such a node depends on, a source that is the line alone depends on. -/
theorem readTemplate_iff_of_statement {p : Prop} (isLine : IsLine content) (isBody : IsBody content)
    (plain : node.isCompound = false)
    (statement : ∀ line : LogicalLine, line.span.text = trimEnd content →
      (readStatement line = .ok (.node node) ↔ p)) :
    readTemplate content = .ok ⟨.empty, [node]⟩ ↔ p := by
  constructor
  · intro read
    obtain ⟨_, _, found⟩ := of_readTemplate read isLine.single isLine.start plain
    exact (statement (.atMargin 0 content) rfl).mp (found _ rfl)
  · exact fun h => readTemplate_of_statement isLine isBody fun line same => (statement line same).mpr h

/-! ### Directives -/

theorem isNameChar_of_isAlpha (h : c.isAlpha = true) : isNameChar c = true := by
  simp [isNameChar, isAlphanumeric, isAlphabetic, h]

/-- A directive is no metadata: a blank stands behind its word, and no colon. -/
theorem isBody_directive {word : List Char} (letters : ∀ c ∈ word, c.isAlpha = true)
    (more : List Char) : IsBody ('@' :: (word ++ ' ' :: more)) := by
  let behind := trimEndOf (fun c => decide (c = '\r')) more
  have kept : trimEndOf (fun c => decide (c = '\r')) ('@' :: (word ++ ' ' :: more)) =
      '@' :: (word ++ ' ' :: behind) := trimEndOf_append_cons (by decide) ('@' :: word) more
  have notBlank : ∀ c ∈ word, isBlank c = false := fun c member =>
    not_isBlank_of_isNameChar (isNameChar_of_isAlpha (letters c member))
  refine ⟨decide_eq_false fun fence => ?_, ?_, ?_⟩
  · have first : trimEnd ([] ++ '@' :: (word ++ ' ' :: more)) = _ :=
      trimEndOf_append_cons (by decide) [] (word ++ ' ' :: more)
    rw [List.nil_append, fence] at first
    cases first
  · rw [kept]
    cases word with
    | nil => rfl
    | cons first others =>
      have space : isWordChar ' ' = false := by
        rw [isWordChar_of_lt (by decide)]
        decide
      -- The key of an entry would have to reach to a colon, but the blank stops it.
      have stops : (others ++ ' ' :: behind).dropWhile (fun c => isWordChar c || c = '.' || c = '-') =
          ' ' :: behind := by
        refine dropWhile_append_of_bars (fun c member => ?_) (bars_cons (by simp [space]))
        simp [isWordChar, isAlphabetic, letters c (List.mem_cons_of_mem first member)]
      simp only [ markedEntry?, List.cons_append, stops]
      split <;> simp_all
  · have front : (word ++ ' ' :: behind).takeWhile (fun c => !isBlank c) = word :=
      takeWhile_append_of_bars (fun c member => by simp [notBlank c member]) (bars_cons (by decide))
    have noColon : ':' ∉ word := fun member => absurd (letters ':' member) (by decide)
    simpa [kept, looksMarked, front] using noColon

theorem word_directive {word : List Char} (letters : ∀ c ∈ word, c.isAlpha = true) (more : List Char)
    (start : Nat) : ((⟨start, '@' :: (word ++ ' ' :: more)⟩ : Span).drop 1).word = word :=
  takeWhile_append_of_bars (fun c member => isNameChar_of_isAlpha (letters c member))
    (bars_cons not_isNameChar_space)

/-- A line that is a directive is the node of the directive. -/
theorem readStatement_directive {line : LogicalLine} (same : line.span.text = '@' :: rest) :
    readStatement line =
      (readDirective ⟨line.span.trimStart.start, '@' :: rest⟩).map Statement.node := by
  have visible : Bars isBlank line.span.text := by
    rw [same]
    exact bars_cons (by decide)
  have text := (Span.text_trimStart_of_bars visible).trans same
  have lead : Lead.ofText line.span.trimStart.text = .directive := by
    rw [text]
    rfl
  rw [readStatement, lead, ← text]

theorem Span.afterKeyword?_append {keyword : List Char} (bars : Bars isBlank rest) (start : Nat) :
    (⟨start, keyword ++ ' ' :: rest⟩ : Span).afterKeyword? keyword =
      some ⟨start + keyword.length + 1, rest⟩ := by
  have front : keyword.isPrefixOf (keyword ++ ' ' :: rest) = true :=
    List.isPrefixOf_iff_prefix.mpr (List.prefix_append _ _)
  simp only [Span.afterKeyword?, Span.drop_append, front, List.head?_cons, Option.any_some,
    Span.trimStart_space bars]
  rfl

theorem Span.trimStart_of_bars (bars : Bars isBlank rest) (start : Nat) :
    (⟨start, rest⟩ : Span).trimStart = ⟨start, rest⟩ := by
  have nothing := takeWhile_append_of_bars (List.forall_mem_nil _) bars
  rw [List.nil_append] at nothing
  rw [Span.trimStart, nothing]
  rfl

theorem leadingName?_append (named : leadingName? name = some name) (bars : Bars isWordChar rest) :
    leadingName? (name ++ rest) = some name := by
  cases name with
  | nil => cases named
  | cons c more =>
    simp only [leadingName?] at named
    split at named
    · next start =>
      have all := List.takeWhile_eq_self_iff.mp (List.cons.inj (Option.some.inj named)).2
      rw [List.cons_append, leadingName?, if_pos start, takeWhile_append_of_bars all bars]
    · cases named

/-- A name starts with a letter or an underscore, and goes on with word characters. -/
theorem isWordChar_of_mem_name (named : leadingName? name = some name) :
    ∀ c ∈ name, isWordChar c = true := by
  cases name with
  | nil => cases named
  | cons c more =>
    simp only [leadingName?] at named
    split at named
    · next start =>
      have all := List.takeWhile_eq_self_iff.mp (List.cons.inj (Option.some.inj named)).2
      refine List.forall_mem_cons.mpr ⟨?_, all⟩
      simp only [isPlainNameStart, Bool.or_eq_true] at start
      rcases start with letter | underscore <;> simp [isWordChar, isAlphabetic, *]
    · cases named

theorem isInert_of_isWordChar {c : Char} (h : isWordChar c = true) : isInert c = true := by
  have other (mark : Char) (ascii : mark.toNat < 128) (no : (mark.isAlphanum || mark = '_') = false) :
      c ≠ mark := by
    rintro rfl
    rw [isWordChar_of_lt ascii, no] at h
    cases h
  have double := other '"' (by decide) (by decide)
  have single := other '\'' (by decide) (by decide)
  have newline := other '\n' (by decide) (by decide)
  have angle := other '<' (by decide) (by decide)
  simp [isInert, isQuote, double, single, newline, angle]

theorem not_isWordChar_space : isWordChar ' ' = false := by
  rw [isWordChar_of_lt (by decide)]
  decide

theorem bars_name (named : leadingName? name = some name) (rest : List Char) :
    Bars isBlank (name ++ rest) := by
  cases name with
  | nil => cases named
  | cons c more =>
    simp only [leadingName?] at named
    split at named
    · next start =>
      exact bars_cons (not_isBlank_of_isNameChar
        (isNameChar_of_isNameStart (isNameStart_of_isPlainNameStart start)))
    · cases named

end PromptScript.Source

namespace PromptScript

theorem Template.parse_ok_iff {source : String} {text : List Char} {template : Template}
    (same : source.toList = text) :
    Template.parse source = .ok template ↔ Source.readTemplate text = .ok template := by
  rw [← same]
  exact Computation.mapError_ok_iff

end PromptScript
