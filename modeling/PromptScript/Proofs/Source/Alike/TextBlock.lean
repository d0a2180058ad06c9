import PromptScript.Proofs.Source.Alike.Expression

/-!
Text blocks whose line breaks are written another way. What a margin adds to the lines of a block is the
indentation that they lose, as the line of the block is indented by as much.
-/
namespace PromptScript.Source

open Text

/-- The same character. Where it is no newline, the places belong together. -/
def CharAlike (R : Nat → Nat → Prop) (c c' : LocatedChar) : Prop :=
  c.2 = c'.2 ∧ (c.2 ≠ '\n' → R c.1 c'.1)

/-- The same characters, but for spaces behind each newline. -/
inductive Widened (R : Nat → Nat → Prop) (margin : Nat) : List LocatedChar → List LocatedChar → Prop
  | nil : Widened R margin [] []
  | char {c c' : LocatedChar} {chars chars' : List LocatedChar} : c.2 ≠ '\n' → CharAlike R c c' →
    Widened R margin chars chars' → Widened R margin (c :: chars) (c' :: chars')
  | newline {place place' : Nat} {blanks chars chars' : List LocatedChar} :
    (∀ c ∈ blanks, c.2 = ' ') → blanks.length = margin → Widened R margin chars chars' →
    Widened R margin ((place, '\n') :: chars) ((place', '\n') :: (blanks ++ chars'))

/-- A line that a margin stands in front of. -/
def LineWidened (R : Nat → Nat → Prop) (margin : Nat) (line line' : List LocatedChar) : Prop :=
  ∃ blanks inner, line' = blanks ++ inner ∧ (∀ c ∈ blanks, c.2 = ' ') ∧ blanks.length = margin ∧
    List.Forall₂ (CharAlike R) line inner

variable {R : Nat → Nat → Prop} {b : Break} {margin width : Nat} {c : LocatedChar}
  {chars chars' blanks first first' line line' rest : List LocatedChar}
  {lines lines' : List (List LocatedChar)}

/-! ### Located characters -/

theorem locateChars_replicate (offset n : Nat) (rest : List Char) : ∃ blanks : List LocatedChar,
    locateChars offset (List.replicate n ' ' ++ rest) = blanks ++ locateChars (offset + n) rest ∧
      (∀ c ∈ blanks, c.2 = ' ') ∧ blanks.length = n := by
  induction n generalizing offset with
  | zero => exact ⟨[], rfl, nofun, rfl⟩
  | succ n ih =>
    obtain ⟨blanks, same, spaces, length⟩ := ih (offset + 1)
    refine ⟨(offset, ' ') :: blanks, ?_, List.forall_mem_cons.mpr ⟨rfl, spaces⟩,
      congrArg (· + 1) length⟩
    rw [List.replicate_succ, List.cons_append, locateChars, if_neg (by simp), same, List.cons_append,
      Nat.add_assoc, Nat.add_comm 1]

theorem locateChars_return (offset : Nat) (rest : List Char) :
    locateChars offset ('\r' :: '\n' :: rest) = (offset + 1, '\n') :: locateChars (offset + 2) rest := by
  simp [locateChars]

theorem locateChars_char {offset : Nat} {c : Char} {rest : List Char}
    (other : ¬(c = '\r' ∧ rest.head? = some '\n')) :
    locateChars offset (c :: rest) = (offset, c) :: locateChars (offset + 1) rest := by
  rw [locateChars, if_neg other]

theorem locateChars_break (b : Break) (offset : Nat) (rest : List Char) :
    ∃ (place : Nat) (blanks : List LocatedChar), locateChars offset (b.text ++ rest) =
      (place, '\n') :: (blanks ++ locateChars (offset + b.text.length) rest) ∧
        (∀ c ∈ blanks, c.2 = ' ') ∧ blanks.length = b.margin := by
  obtain ⟨carriage, margin⟩ := b
  cases carriage with
  | false =>
    obtain ⟨blanks, same, spaces, length⟩ := locateChars_replicate (offset + 1) margin rest
    refine ⟨offset, blanks, ?_, spaces, length⟩
    simp only [Break.text, Break.before, Bool.false_eq_true, if_false, List.nil_append, List.cons_append]
    rw [locateChars_char (by simp), same, List.length_cons, List.length_replicate, Nat.add_assoc,
      Nat.add_comm 1]
  | true =>
    obtain ⟨blanks, same, spaces, length⟩ := locateChars_replicate (offset + 2) margin rest
    refine ⟨offset + 1, blanks, ?_, spaces, length⟩
    simp only [Break.text, Break.before, if_true, List.cons_append, List.nil_append]
    rw [locateChars_return, same, List.length_cons, List.length_cons, List.length_replicate,
      Nat.add_assoc, Nat.add_comm 2]

theorem locateChars_widened {s s' : Span} (h : Moved R b s s') :
    Widened R b.margin (locateChars s.start s.text) (locateChars s'.start s'.text) := by
  -- By induction on the text: what stands behind its first character is moved as well.
  induction found : s.text generalizing s s' with
  | nil =>
    rw [h.text, found]
    exact .nil
  | cons c rest ih =>
    have behind : (s.drop 1).text = rest := by rw [Span.text_drop, found]; rfl
    by_cases newline : c = '\n'
    · subst newline
      have measures : b.Measures s.text 1 b.text.length :=
        found ▸ (Break.Measures.zero b rest).newline
      have later := ih (h.drop measures) behind
      rw [Span.text_drop, h.text, measures.drop_write, ← Span.text_drop, behind] at later
      obtain ⟨place, blanks, same, spaces, length⟩ := locateChars_break b s'.start (b.write rest)
      rw [locateChars_char (by simp), h.text, found, Break.write_newline, same]
      exact .newline spaces length later
    · have measures : b.Measures s.text 1 1 := found ▸ (Break.Measures.zero b rest).cons newline
      have later := ih (h.drop measures) behind
      rw [Span.text_drop, h.text, measures.drop_write, ← Span.text_drop, behind] at later
      -- A carriage return that was there before stands in front of a newline still.
      have returns : (c = '\r' ∧ (b.write rest).head? = some '\n') ↔
          (c = '\r' ∧ rest.head? = some '\n') := by
        refine and_congr_right fun carriage => ?_
        have plain : b.carriageReturn = false := by
          by_contra carried
          exact h.single (Bool.eq_true_of_not_eq_false carried) (by simp [found, carriage])
        cases rest with
        | nil => rfl
        | cons d more =>
          by_cases here : d = '\n'
          · subst here
            simp [Break.write_newline, Break.text, Break.before, plain]
          · rw [Break.write_cons_of_ne here]
            rfl
      rw [h.text, found, Break.write_cons_of_ne newline, locateChars, locateChars]
      simp only [returns]
      split
      · exact later
      · exact .char newline ⟨rfl, fun _ => h.start⟩ later

theorem Widened.forall₂ (h : Widened R margin chars chars') (single : ∀ c ∈ chars, c.2 ≠ '\n') :
    List.Forall₂ (CharAlike R) chars chars' := by
  induction h with
  | nil => exact .nil
  | char _ same _ ih => exact .cons same (ih (List.forall_mem_cons.mp single).2)
  | newline => exact absurd rfl (single _ List.mem_cons_self)

/-! ### The lines of a block -/

theorem blockLines_char (other : c.2 ≠ '\n') (h : blockLines rest = first :: lines) :
    blockLines (c :: rest) = (c :: first) :: lines := by
  rw [blockLines, if_neg other, h]

theorem blockLines_blanks (spaces : ∀ c ∈ blanks, c.2 = ' ') (h : blockLines rest = first :: lines) :
    blockLines (blanks ++ rest) = (blanks ++ first) :: lines := by
  induction blanks with
  | nil => exact h
  | cons c more ih =>
    obtain ⟨here, others⟩ := List.forall_mem_cons.mp spaces
    exact blockLines_char (by rw [here]; decide) (ih others)

theorem blockLines_widened (h : Widened R margin chars chars') : ∃ first first' lines lines',
    blockLines chars = first :: lines ∧ blockLines chars' = first' :: lines' ∧
      List.Forall₂ (CharAlike R) first first' ∧
      List.Forall₂ (LineWidened R margin) lines lines' := by
  induction h with
  | nil => exact ⟨[], [], [], [], rfl, rfl, .nil, .nil⟩
  | @char c c' chars chars' other same _ ih =>
    obtain ⟨first, first', lines, lines', here, there, start, others⟩ := ih
    exact ⟨_, _, lines, lines', blockLines_char other here, blockLines_char (same.1 ▸ other) there,
      .cons same start, others⟩
  | @newline place place' blanks chars chars' spaces length _ ih =>
    obtain ⟨first, first', lines, lines', here, there, start, others⟩ := ih
    have wider := blockLines_blanks spaces there
    refine ⟨[(place, '\n')], [(place', '\n')], first :: lines, (blanks ++ first') :: lines',
      by rw [blockLines, if_pos rfl, here], by rw [blockLines, if_pos rfl, wider],
      .cons ⟨rfl, fun other => absurd rfl other⟩ .nil, .cons ?_ others⟩
    exact ⟨blanks, first', rfl, spaces, length, start⟩

theorem dedent_blanks (spaces : ∀ c ∈ blanks, c.2 = ' ') (width : Nat) (rest : List LocatedChar) :
    dedent (width + blanks.length) (blanks ++ rest) = dedent width rest := by
  induction blanks with
  | nil => rfl
  | cons c more ih =>
    obtain ⟨here, others⟩ := List.forall_mem_cons.mp spaces
    rw [List.cons_append, dedent, if_pos ⟨here, by rw [List.length_cons]; omega⟩, List.length_cons,
      ← Nat.add_assoc, Nat.add_sub_cancel, ih others]

theorem dedent_alike (h : List.Forall₂ (CharAlike R) line line') (width : Nat) :
    List.Forall₂ (CharAlike R) (dedent width line) (dedent width line') := by
  induction h generalizing width with
  | nil => exact .nil
  | @cons c c' rest rest' same others ih =>
    rw [dedent, dedent, ← same.1]
    split_ifs
    · exact ih _
    · exact ih _
    · exact .cons same others

theorem LineWidened.dedent (h : LineWidened R margin line line') (width : Nat) :
    List.Forall₂ (CharAlike R) (dedent width line) (Source.dedent (width + margin) line') := by
  obtain ⟨blanks, inner, rfl, spaces, rfl, same⟩ := h
  rw [dedent_blanks spaces]
  exact dedent_alike same width

theorem flatMap_dedent (h : List.Forall₂ (LineWidened R margin) lines lines') (width : Nat) :
    List.Forall₂ (CharAlike R) (lines.flatMap (dedent width))
      (lines'.flatMap (dedent (width + margin))) := by
  induction h with
  | nil => exact .nil
  | cons here _ ih =>
    rw [List.flatMap_cons, List.flatMap_cons]
    exact List.rel_append (here.dedent width) ih

theorem all_isSpaceOrTab (h : List.Forall₂ (CharAlike R) line line') :
    line.all isSpaceOrTab = line'.all isSpaceOrTab := by
  induction h with
  | nil => rfl
  | cons same _ ih => rw [List.all_cons, List.all_cons, ih, isSpaceOrTab, isSpaceOrTab, same.1]

theorem LineWidened.all_isSpaceOrTab (h : LineWidened R margin line line') :
    line.all isSpaceOrTab = line'.all isSpaceOrTab := by
  obtain ⟨blanks, inner, rfl, spaces, -, same⟩ := h
  have blank : blanks.all isSpaceOrTab = true := by
    rw [List.all_eq_true]
    intro c member
    rw [isSpaceOrTab, spaces c member]
    rfl
  rw [List.all_append, blank, Bool.true_and, Source.all_isSpaceOrTab same]

theorem any_getLast?_widened (h : List.Forall₂ (LineWidened R margin) lines lines') :
    (lines.getLast?.any fun line => line.all isSpaceOrTab) =
      (lines'.getLast?.any fun line => line.all isSpaceOrTab) := by
  induction h with
  | nil => rfl
  | cons here others ih =>
    cases others with
    | nil => exact here.all_isSpaceOrTab
    | cons => rwa [List.getLast?_cons_cons, List.getLast?_cons_cons]

theorem dropClosingLine_cons (first second : List LocatedChar) (lines : List (List LocatedChar)) :
    dropClosingLine (first :: second :: lines) = first ::
      if ((second :: lines).getLast?.any fun line => line.all isSpaceOrTab) then
        (second :: lines).dropLast
      else second :: lines := by
  rw [dropClosingLine, List.getLast?_cons_cons]
  split_ifs with both closing closing
  · rfl
  · exact absurd both.2 closing
  · exact absurd ⟨by simp, closing⟩ both
  · rfl

/-- The first line stays, and the last one is dropped from both blocks or from neither. -/
theorem dropClosingLine_widened (h : List.Forall₂ (LineWidened R margin) lines lines')
    (first first' : List LocatedChar) : ∃ kept kept', dropClosingLine (first :: lines) = first :: kept ∧
      dropClosingLine (first' :: lines') = first' :: kept' ∧
      List.Forall₂ (LineWidened R margin) kept kept' := by
  cases h with
  | nil => exact ⟨[], [], rfl, rfl, .nil⟩
  | @cons line line' lines lines' here others =>
    have all : List.Forall₂ (LineWidened R margin) (line :: lines) (line' :: lines') := .cons here others
    refine ⟨_, _, dropClosingLine_cons first line lines, dropClosingLine_cons first' line' lines', ?_⟩
    rw [← any_getLast?_widened all]
    split
    · rw [List.dropLast_eq_take, List.dropLast_eq_take, all.length_eq]
      exact List.forall₂_take _ all
    · exact all

/-- The block behind an opening mark at the end of its line. -/
theorem normalize_of_break {content : Span} {second : List LocatedChar}
    (found : blockLines (locateChars content.start content.text) = [c] :: second :: lines)
    (indent : Nat) :
    normalize indent content = (dropClosingLine (second :: lines)).flatMap (dedent indent) := by
  rw [normalize, found]

/-- The block whose first line stands behind the opening mark. -/
theorem normalize_of_line {content : Span} {kept : List (List LocatedChar)}
    (found : blockLines (locateChars content.start content.text) = first :: lines)
    (other : first.length = 1 → lines = []) (drops : dropClosingLine (first :: lines) = first :: kept)
    (indent : Nat) : normalize indent content = first ++ kept.flatMap (dedent indent) := by
  rw [normalize, found]
  split
  · next same =>
    cases same
    cases other rfl
  · next same =>
    rw [drops]

theorem mem_of_mem_locateChars {offset : Nat} {text : List Char}
    (member : c ∈ locateChars offset text) : c.2 ∈ text := by
  induction text generalizing offset with
  | nil => cases member
  | cons d rest ih =>
    simp only [locateChars] at member
    split at member
    · exact List.mem_cons_of_mem d (ih member)
    · rcases List.mem_cons.mp member with rfl | later
      · exact List.mem_cons_self
      · exact List.mem_cons_of_mem d (ih later)

theorem blockLines_of_single (single : ∀ c ∈ chars, c.2 ≠ '\n') : blockLines chars = [chars] := by
  induction chars with
  | nil => rfl
  | cons c rest ih =>
    obtain ⟨here, others⟩ := List.forall_mem_cons.mp single
    exact blockLines_char here (ih others)

/-- A block on one line has no indentation to lose. -/
theorem normalize_of_single {content : Span} (single : '\n' ∉ content.text) (indent : Nat) :
    normalize indent content = locateChars content.start content.text := by
  have noNewline : ∀ c ∈ locateChars content.start content.text, c.2 ≠ '\n' :=
    fun c member same => single (same ▸ mem_of_mem_locateChars member)
  have drops : dropClosingLine [locateChars content.start content.text] =
      [locateChars content.start content.text] := by
    simp [dropClosingLine]
  rw [normalize_of_line (blockLines_of_single noNewline) (fun _ => rfl) drops, List.flatMap_nil,
    List.append_nil]

/-- The content of a block, without the indentation of its line, is the same content. -/
theorem normalize_alike {s s' : Span} {indent indent' : Nat} (h : Moved R b s s')
    (widened : '\n' ∈ s.text → indent' = indent + b.margin) :
    List.Forall₂ (CharAlike R) (normalize indent s) (normalize indent' s') := by
  have chars := locateChars_widened h
  by_cases single : '\n' ∈ s.text
  · obtain rfl := widened single
    obtain ⟨first, first', lines, lines', found, found', start, others⟩ := blockLines_widened chars
    by_cases mark : first.length = 1 ∧ lines ≠ []
    · -- The first line is the newline behind the mark.
      obtain ⟨one, more⟩ := mark
      obtain ⟨c, rfl⟩ := List.length_eq_one_iff.mp one
      obtain ⟨c', rfl⟩ := List.length_eq_one_iff.mp (start.length_eq.symm.trans one)
      cases others with
      | nil => exact absurd rfl more
      | @cons second second' rest rest' here later =>
        obtain ⟨kept, kept', drops, drops', all⟩ := dropClosingLine_widened later second second'
        rw [normalize_of_break found, normalize_of_break found', drops, drops']
        exact flatMap_dedent (.cons here all) indent
    · obtain ⟨kept, kept', drops, drops', all⟩ := dropClosingLine_widened others first first'
      have line (one : first.length = 1) : lines = [] := by
        by_contra more
        exact mark ⟨one, more⟩
      have line' (one : first'.length = 1) : lines' = [] := by
        have none := line (start.length_eq.trans one)
        subst none
        cases others
        rfl
      -- The first line is not indented by the margin, and is not dedented either.
      rw [normalize_of_line found line drops, normalize_of_line found' line' drops']
      exact List.rel_append start (flatMap_dedent all indent)
  · have single' : '\n' ∉ s'.text := by rwa [h.text, Break.newline_mem_write_iff]
    rw [normalize_of_single single, normalize_of_single single']
    exact chars.forall₂ fun c member same => single (same ▸ mem_of_mem_locateChars member)

/-! ### Interpolations -/

variable {pending : List Char} {offset : Nat} {d : Char}

theorem interpolate_plain (other : d ≠ '$') :
    interpolate pending ((offset, d) :: rest) = interpolate (d :: pending) rest := by
  rw [interpolate.eq_def]
  simp only [if_neg other]

theorem interpolate_dollar
    (noDollar : ∀ first second more, rest = (first, '$') :: (second, '\x7b') :: more → False)
    (noBrace : ∀ first more, rest = (first, '\x7b') :: more → False) :
    interpolate pending ((offset, '$') :: rest) = interpolate ('$' :: pending) rest := by
  rw [interpolate]
  · rfl
  · exact noDollar
  · exact noBrace

/-- An interpolation: the node of its path, if it is closed and holds one. -/
theorem interpolate_braces (first : Nat) :
    interpolate pending ((offset, '$') :: (first, '\x7b') :: rest) =
      if (rest.dropWhile isInterpolated).head?.any (·.2 = '\x7d') then
        match VarPath.ofText? (Text.trim ((rest.takeWhile isInterpolated).map (·.2))) with
        | none => .error ⟨.invalidPath (.ofList (Text.trim
            ((rest.takeWhile isInterpolated).map (·.2)))), offset⟩
        | some path => do
          let more ← interpolate [] ((rest.dropWhile isInterpolated).drop 1)
          return flush pending ++ .interpolation path :: more
      else .error ⟨.unterminatedInterpolation, offset⟩ := by
  rw [interpolate]
  rfl

theorem isInterpolated_alike (c c' : LocatedChar) (same : CharAlike R c c') :
    isInterpolated c = isInterpolated c' := by
  rw [isInterpolated, isInterpolated, same.1]

theorem takeWhile_isInterpolated (h : List.Forall₂ (CharAlike R) chars chars') :
    (chars.takeWhile isInterpolated).map (·.2) = (chars'.takeWhile isInterpolated).map (·.2) := by
  have taken := forall₂_takeWhile isInterpolated_alike h
  generalize chars.takeWhile isInterpolated = name at taken ⊢
  generalize chars'.takeWhile isInterpolated = name' at taken ⊢
  induction taken with
  | nil => rfl
  | cons same _ ih => rw [List.map_cons, List.map_cons, ih, same.1]

theorem dropWhile_isInterpolated (h : List.Forall₂ (CharAlike R) chars chars') :
    List.Forall₂ (CharAlike R) (chars.dropWhile isInterpolated) (chars'.dropWhile isInterpolated) :=
  forall₂_dropWhile isInterpolated_alike h

theorem any_head?_alike (h : List.Forall₂ (CharAlike R) chars chars') :
    chars.head?.any (·.2 = '\x7d') = chars'.head?.any (·.2 = '\x7d') := by
  cases h with
  | nil => rfl
  | cons same _ => simp only [List.head?_cons, Option.any_some, same.1]

theorem exists_cons_of_alike (h : List.Forall₂ (CharAlike R) ((offset, d) :: rest) chars') :
    ∃ place more, chars' = (place, d) :: more ∧ (d ≠ '\n' → R offset place) ∧
      List.Forall₂ (CharAlike R) rest more := by
  cases h with
  | @cons _ c' _ more same others =>
    obtain ⟨place, d'⟩ := c'
    obtain rfl : d = d' := same.1
    exact ⟨place, more, rfl, same.2, others⟩

theorem interpolate_alike {F : Fault → Fault → Prop}
    (faults : ∀ {place place'} cause, R place place' → F ⟨cause, place⟩ ⟨cause, place'⟩)
    (pending : List Char) (h : List.Forall₂ (CharAlike R) chars chars') :
    Related F Eq (interpolate pending chars) (interpolate pending chars') := by
  -- An error is told of the dollar, which is no newline, so that its places belong together.
  induction pending, chars using interpolate.induct generalizing chars' with
  | case1 pending =>
    cases h
    rw [interpolate]
    exact .ok rfl
  | case2 pending offset first second rest ih =>
    obtain ⟨_, _, rfl, -, behind⟩ := exists_cons_of_alike h
    obtain ⟨_, _, rfl, -, behind'⟩ := exists_cons_of_alike behind
    obtain ⟨_, _, rfl, -, later⟩ := exists_cons_of_alike behind'
    rw [interpolate, interpolate]
    exact ih later
  | case3 pending offset first rest _ closed =>
    rename_i noPath
    obtain ⟨_, _, rfl, place, behind⟩ := exists_cons_of_alike h
    obtain ⟨_, _, rfl, -, later⟩ := exists_cons_of_alike behind
    have closed' := closed
    rw [any_head?_alike (dropWhile_isInterpolated later)] at closed'
    rw [interpolate_braces, if_pos closed, interpolate_braces, if_pos closed',
      ← takeWhile_isInterpolated later, noPath]
    exact .error (faults _ (place (by decide)))
  | case4 pending offset first rest _ closed path =>
    rename_i read ih
    obtain ⟨_, _, rfl, -, behind⟩ := exists_cons_of_alike h
    obtain ⟨_, _, rfl, -, later⟩ := exists_cons_of_alike behind
    have after := dropWhile_isInterpolated later
    have closed' := closed
    rw [any_head?_alike after] at closed'
    rw [interpolate_braces, if_pos closed, interpolate_braces, if_pos closed',
      ← takeWhile_isInterpolated later, read]
    exact (ih (List.forall₂_drop 1 after)).bind fun more _ same => .ok (by rw [same])
  | case5 pending offset first rest unclosed =>
    obtain ⟨_, _, rfl, place, behind⟩ := exists_cons_of_alike h
    obtain ⟨_, _, rfl, -, later⟩ := exists_cons_of_alike behind
    have unclosed' := unclosed
    rw [any_head?_alike (dropWhile_isInterpolated later)] at unclosed'
    rw [interpolate_braces, if_neg unclosed, interpolate_braces, if_neg unclosed']
    exact .error (faults _ (place (by decide)))
  | case6 pending offset rest noDollar noBrace ih =>
    obtain ⟨place, rest', rfl, -, later⟩ := exists_cons_of_alike h
    rw [interpolate_dollar noDollar noBrace, interpolate_dollar]
    · exact ih later
    · rintro first second more rfl
      cases later with
      | @cons c _ _ _ same behind =>
        obtain ⟨offset, d⟩ := c
        obtain rfl : d = '$' := same.1
        cases behind with
        | @cons c _ _ _ same _ =>
          obtain ⟨offset', d'⟩ := c
          obtain rfl : d' = '\x7b' := same.1
          exact noDollar _ _ _ rfl
    · rintro first more rfl
      cases later with
      | @cons c _ _ _ same _ =>
        obtain ⟨offset, d⟩ := c
        obtain rfl : d = '\x7b' := same.1
        exact noBrace _ _ rfl
  | case7 pending offset c rest other ih =>
    obtain ⟨place, rest', rfl, -, later⟩ := exists_cons_of_alike h
    rw [interpolate_plain other, interpolate_plain other]
    exact ih later

/-! ### Blocks -/

theorem finishLine_of_newline (finish : Nat) (last : chars.getLast? = some (offset, '\n')) :
    finishLine finish chars = chars := by
  simp [finishLine, last]

theorem finishLine_of_ne (finish : Nat) (other : d ≠ '\n')
    (last : chars.getLast? = some (offset, d)) : finishLine finish chars = chars ++ [(finish, '\n')] := by
  rw [finishLine, last]
  split
  · next same =>
    cases same
    exact absurd rfl other
  · next same => cases same
  · rfl

theorem getLast?_alike (h : List.Forall₂ (CharAlike R) chars chars') :
    Option.Rel (CharAlike R) chars.getLast? chars'.getLast? := by
  induction h with
  | nil => exact .none
  | cons same others ih =>
    cases others with
    | nil => exact .some same
    | cons => rwa [List.getLast?_cons_cons, List.getLast?_cons_cons]

theorem finishLine_alike (finish finish' : Nat) (h : List.Forall₂ (CharAlike R) chars chars') :
    List.Forall₂ (CharAlike R) (finishLine finish chars) (finishLine finish' chars') := by
  have last := getLast?_alike h
  cases here : chars.getLast? with
  | none =>
    rw [List.getLast?_eq_none_iff] at here
    subst here
    cases h
    exact .nil
  | some c =>
    rw [here] at last
    cases there : chars'.getLast? with
    | none =>
      rw [there] at last
      cases last
    | some c' =>
      rw [there] at last
      cases last with
      | some same =>
        obtain ⟨place, d⟩ := c
        obtain ⟨place', d'⟩ := c'
        obtain rfl : d = d' := same.1
        by_cases newline : d = '\n'
        · subst newline
          rwa [finishLine_of_newline finish here, finishLine_of_newline finish' there]
        · rw [finishLine_of_ne finish newline here, finishLine_of_ne finish' newline there]
          exact List.rel_append h (.cons ⟨rfl, fun other => absurd rfl other⟩ .nil)

theorem readTextBlock_alike {s s' : Span} {indent indent' : Nat} (h : Moved R b s s')
    (widened : '\n' ∈ s.text → indent' = indent + b.margin) (isInline : Bool) :
    Alike R Eq (readTextBlock indent isInline s) (readTextBlock indent' isInline s') := by
  have content := normalize_alike h widened
  have whole : List.Forall₂ (CharAlike R)
      (if isInline then normalize indent s else finishLine s.finish (normalize indent s))
      (if isInline then normalize indent' s' else finishLine s'.finish (normalize indent' s')) := by
    split
    · exact content
    · exact finishLine_alike _ _ content
  unfold readTextBlock
  simp only
  generalize (if isInline then normalize indent s else _) = chars,
    (if isInline then normalize indent' s' else _) = chars' at whole
  cases whole with
  | nil => exact .ok rfl
  | cons same others =>
    exact (interpolate_alike (fun _ place => ⟨rfl, place⟩) [] (.cons same others)).map
      fun _ _ same => by rw [same]

/-! ### Blocks on a line -/

theorem lineLength_toBlockEnd {text : List Char} {n : Nat} (found : Text.find? ['>', '>'] text = some n)
    (opening offset : Nat) (rest : List Char) :
    lineLength (.text opening) offset (text.take (n + 2) ++ rest) =
      (lineLength .code (offset + (n + 2)) rest).map (· + (n + 2)) := by
  induction text generalizing n offset with
  | nil => cases found
  | cons c more ih =>
    rw [Text.find?] at found
    split at found
    · next closes =>
      cases found
      obtain ⟨behind, same⟩ := List.isPrefixOf_iff_prefix.mp closes
      rw [← same, List.cons_append, List.cons_append, List.take_succ_cons, List.take_succ_cons,
        List.take_zero, List.cons_append, List.cons_append, List.nil_append, lineLength_blockEnd]
    · next open' =>
      obtain ⟨m, later, rfl⟩ := Option.map_eq_some_iff.mp found
      have apart : ∀ d ∈ (more.take (m + 2) ++ rest).head?, ¬(c = '>' ∧ d = '>') := by
        rintro d member ⟨rfl, rfl⟩
        cases more with
        | nil => cases later
        | cons e behind =>
          cases member
          exact open' rfl
      rw [show m + 1 + 2 = m + 2 + 1 from rfl, List.take_succ_cons, List.cons_append,
        lineLength_text _ apart, ih later, except_map_add, Nat.add_assoc offset, Nat.add_comm 1]

/-- A line goes on behind a text block. -/
theorem GoesOn.block {text : List Char} {n : Nat} (found : Text.find? ['>', '>'] text = some n) :
    GoesOn ('<' :: '<' :: text.take (n + 2)) := by
  intro offset rest
  have length : (text.take (n + 2)).length = n + 2 := by
    rw [List.length_take_of_le]
    have mark := (prefix_of_find? found).length_le
    rw [List.length_drop] at mark
    simp only [List.length_cons, List.length_nil] at mark
    omega
  rw [List.cons_append, List.cons_append, lineLength_block, lineLength_toBlockEnd found,
    except_map_add, List.length_cons, List.length_cons, length, Nat.add_assoc offset, Nat.add_comm 2]

theorem readBlockMark_alike {s s' : Span} {indent indent' : Nat}
    (h : Remains R b (indent' = indent + b.margin) s s') (lead : Lead.ofText s.text = .block)
    (isInline : Bool) : Alike R (Takes R b (indent' = indent + b.margin) s s')
      (readBlockMark indent isInline s) (readBlockMark indent' isInline s') := by
  obtain ⟨inner, start⟩ := exists_of_block lead
  have mark : b.Measures s.text 2 2 :=
    start ▸ ((Break.Measures.zero b inner).cons (by decide)).cons (by decide)
  have found := Break.find?_measures (b := b) ['>', '>'] rfl (List.cons_ne_nil _ _) (s.text.drop 2)
  unfold readBlockMark
  rw [h.text, mark.drop_write]
  cases closes : Text.find? ['>', '>'] (s.text.drop 2) with
  | none =>
    rw [closes] at found
    generalize Text.find? ['>', '>'] (b.write (s.text.drop 2)) = found' at found
    cases found
    exact h.fault rfl
  | some n =>
    rw [closes] at found
    generalize Text.find? ['>', '>'] (b.write (s.text.drop 2)) = found' at found
    cases found with
    | @some _ m related =>
      have inside : '\n' ∈ ((s.drop 2).take n).text → indent' = indent + b.margin :=
        fun member => h.breaks (List.mem_of_mem_drop (List.mem_of_mem_take member))
      have content := (h.toMoved.drop mark).take related.1
      refine (readTextBlock_alike content inside isInline).bind
        fun node node' same => .ok ⟨same, ?_⟩
      have whole : b.Measures s.text (n + 4) (m + 4) := by
        have := mark.drop related.2
        rwa [Nat.add_comm 2, Nat.add_comm 2] at this
      refine h.drop whole ?_
      rw [start] at closes ⊢
      exact .block closes

end PromptScript.Source
