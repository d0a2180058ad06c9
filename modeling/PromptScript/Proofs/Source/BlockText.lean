import PromptScript.Proofs.Source.Alike.TextBlock
import PromptScript.Source.Template

/-!
The text of a block, said line by line: what of it stays depends on the indentation of the line that opens
the block and on whether the block stands as a statement. A block that opens at the end of its line and
has nothing but blanks on the next one keeps blanks that it should lose.
-/
namespace PromptScript.Source

/-! ### What stays of a block -/

/-- A text whose newlines have no carriage return in front of them. -/
def plainNewlines : List Char → List Char
  | [] => []
  | '\r' :: '\n' :: rest => '\n' :: plainNewlines rest
  | c :: rest => c :: plainNewlines rest

/-- How many of the spaces and tabs at the start of a line are taken as indentation: as many as are not
wider than it. -/
def indentLength (indent : Nat) (line : List Char) : Nat :=
  Nat.findGreatest (fun n => (line.take n).all isIndent ∧ indentWidth (line.take n) ≤ indent) line.length

def unindent (indent : Nat) (line : List Char) : List Char :=
  line.drop (indentLength indent line)

/-- What stays of the lines behind the first one. The last of them is dropped if it is blank. -/
def laterLines (indent : Nat) : List (List Char) → List Char
  | [] => []
  | [last] => if last.all isIndent then [] else unindent indent last
  | line :: rest => unindent indent line ++ '\n' :: laterLines indent rest

/-- What stays of the text between the marks of a block. The newline behind the opening mark is dropped. -/
def blockContent (indent : Nat) (text : List Char) : List Char :=
  match (plainNewlines text).splitOn '\n' with
  | [] => []
  | [only] => only
  | first :: rest => (if first.isEmpty then [] else first ++ ['\n']) ++ laterLines indent rest

/-- A text that ends with a newline, unless it is empty. -/
def ended (text : List Char) : List Char :=
  if text.isEmpty ∨ text.getLast? = some '\n' then text else text ++ ['\n']

/-- The text of a block: a block that stands as a statement ends with a newline. -/
def blockText (indent : Nat) (isInline : Bool) (text : List Char) : List Char :=
  if isInline then blockContent indent text else ended (blockContent indent text)

/-- A newline and then nothing but spaces and tabs, not all of which are taken as indentation. -/
def LeavesBlanks (indent : Nat) (text : List Char) : Prop :=
  ∃ blanks, plainNewlines text = '\n' :: blanks ∧ (∀ c ∈ blanks, isIndent c = true) ∧
    indentLength indent blanks < blanks.length

/-- The characters of a block that are split at its interpolations. -/
def blockChars (indent : Nat) (isInline : Bool) (content : Span) : List LocatedChar :=
  if isInline then normalize indent content
  else finishLine content.finish (normalize indent content)

theorem readTextBlock_eq (indent : Nat) (isInline : Bool) (content : Span) :
    readTextBlock indent isInline content =
      if (blockChars indent isInline content).isEmpty then .ok none
      else (interpolate [] (blockChars indent isInline content)).map fun nodes => some (.block nodes) :=
  rfl

/-! ### Indentation -/

variable {indent : Nat} {c : Char} {line text rest : List Char} {chars : List LocatedChar}

theorem indentLength_eq_iff {n : Nat} : indentLength indent line = n ↔ n ≤ line.length ∧
    ((line.take n).all isIndent ∧ indentWidth (line.take n) ≤ indent) ∧
    ∀ m, n < m → m ≤ line.length →
      ¬((line.take m).all isIndent ∧ indentWidth (line.take m) ≤ indent) := by
  have none : (line.take 0).all isIndent ∧ indentWidth (line.take 0) ≤ indent := by
    simp [indentWidth]
  rw [indentLength, Nat.findGreatest_eq_iff]
  refine and_congr_right fun _ => and_congr_left fun _ => ⟨fun here => ?_, fun here _ => here⟩
  by_cases zero : n = 0
  · exact zero ▸ none
  · exact here zero

/-- A character that is no indentation, or too wide, ends it. -/
theorem indentLength_stop (stops : ¬(isIndent c = true ∧ indentWidth [c] ≤ indent)) :
    indentLength indent (c :: rest) = 0 := by
  refine indentLength_eq_iff.mpr ⟨Nat.zero_le _, by simp [indentWidth], ?_⟩
  rintro (_ | m) more _ ⟨blank, fits⟩
  · cases more
  · simp only [List.take_succ_cons, List.all_cons, Bool.and_eq_true] at blank
    simp only [List.take_succ_cons, indentWidth] at fits
    exact stops ⟨blank.1, by simp only [indentWidth]; omega⟩

theorem indentLength_cons (blank : isIndent c = true) (fits : indentWidth [c] ≤ indent) :
    indentLength indent (c :: rest) = indentLength (indent - indentWidth [c]) rest + 1 := by
  have inner : indentLength (indent - indentWidth [c]) rest = _ := rfl
  obtain ⟨within, ⟨here, narrow⟩, longest⟩ := indentLength_eq_iff.mp inner
  have width (n : Nat) : indentWidth ((c :: rest).take (n + 1)) =
      indentWidth [c] + indentWidth (rest.take n) := by
    simp only [List.take_succ_cons, indentWidth, Nat.add_zero]
  refine indentLength_eq_iff.mpr ⟨Nat.succ_le_succ within, ⟨?_, ?_⟩, ?_⟩
  · rw [List.take_succ_cons, List.all_cons, blank, Bool.true_and, here]
  · rw [width]
    omega
  · rintro (_ | m) more short ⟨blanks, small⟩
    · cases more
    · rw [width] at small
      rw [List.take_succ_cons, List.all_cons, blank, Bool.true_and] at blanks
      exact longest m (Nat.lt_of_succ_lt_succ more) (Nat.le_of_succ_le_succ short) ⟨blanks, by omega⟩

theorem dedent_eq (indent : Nat) (line : List LocatedChar) :
    (dedent indent line).map (·.2) = unindent indent (line.map (·.2)) := by
  induction line generalizing indent with
  | nil => rfl
  | cons c rest ih =>
    obtain ⟨place, c⟩ := c
    rw [dedent, List.map_cons, unindent]
    split_ifs with space tab
    · obtain ⟨rfl, fits⟩ := space
      rw [indentLength_cons rfl fits, List.drop_succ_cons, ih]
      rfl
    · obtain ⟨rfl, fits⟩ := tab
      rw [indentLength_cons rfl fits, List.drop_succ_cons, ih]
      rfl
    · rw [indentLength_stop, List.drop_zero, List.map_cons]
      rintro ⟨blank, fits⟩
      rcases (by simpa [isIndent] using blank : c = ' ' ∨ c = '\t') with rfl | rfl
      · exact space ⟨rfl, fits⟩
      · exact tab ⟨rfl, fits⟩

/-- The newline of a line does not belong to its indentation. -/
theorem unindent_newline (indent : Nat) (line : List Char) :
    unindent indent (line ++ ['\n']) = unindent indent line ++ ['\n'] := by
  induction line generalizing indent with
  | nil => rw [List.nil_append, unindent, indentLength_stop (by simp [isIndent])]; rfl
  | cons c rest ih =>
    by_cases here : isIndent c = true ∧ indentWidth [c] ≤ indent
    · simp only [unindent, List.cons_append, indentLength_cons here.1 here.2, List.drop_succ_cons] at ih ⊢
      exact ih _
    · simp only [unindent, List.cons_append, indentLength_stop here, List.drop_zero]

/-! ### Lines -/

/-- Lines of located characters and their texts. The last line has no newline. -/
inductive Lines : List (List LocatedChar) → List (List Char) → Prop
  | last (line : List LocatedChar) : Lines [line] [line.map (·.2)]
  | newline {line : List LocatedChar} {text : List Char} {lines : List (List LocatedChar)}
      {texts : List (List Char)} : line.map (·.2) = text ++ ['\n'] → Lines lines texts →
    Lines (line :: lines) (text :: texts)

variable {lines : List (List LocatedChar)} {texts : List (List Char)}

theorem map_locateChars (offset : Nat) (text : List Char) :
    (locateChars offset text).map (·.2) = plainNewlines text := by
  induction text using plainNewlines.induct generalizing offset with
  | case1 => rfl
  | case2 rest ih => rw [locateChars_return, List.map_cons, ih, plainNewlines]
  | case3 c rest other ih =>
    rw [locateChars_char, List.map_cons, ih, plainNewlines]
    · exact other
    · rintro ⟨rfl, newline⟩
      obtain ⟨more, rfl⟩ := List.head?_eq_some_iff.mp newline
      exact other more rfl rfl

theorem splitOn_newline (rest : List Char) : ('\n' :: rest).splitOn '\n' = [] :: rest.splitOn '\n' := by
  simp [List.splitOn, List.splitOnP_cons_eq_if_modifyHead]

theorem splitOn_other (other : c ≠ '\n') (rest : List Char) :
    (c :: rest).splitOn '\n' = (rest.splitOn '\n').modifyHead (c :: ·) := by
  simp [List.splitOn, List.splitOnP_cons_eq_if_modifyHead, other]

theorem lines_blockLines (chars : List LocatedChar) :
    Lines (blockLines chars) ((chars.map (·.2)).splitOn '\n') := by
  induction chars with
  | nil => exact .last []
  | cons c rest ih =>
    obtain ⟨place, c⟩ := c
    rw [List.map_cons]
    by_cases newline : c = '\n'
    · subst newline
      rw [blockLines, if_pos rfl, splitOn_newline]
      exact .newline rfl ih
    · rw [splitOn_other newline]
      generalize found : blockLines rest = lines at ih
      generalize (rest.map (·.2)).splitOn '\n' = texts at ih ⊢
      cases ih with
      | last line =>
        rw [blockLines_char newline found]
        exact .last ((place, c) :: line)
      | newline same others =>
        rw [blockLines_char newline found]
        exact .newline (by rw [List.map_cons, same, List.cons_append]) others

theorem all_isSpaceOrTab_eq (line : List LocatedChar) :
    line.all isSpaceOrTab = (line.map (·.2)).all isIndent := by
  rw [List.all_map]
  rfl

/-- The lines behind the first one, without the last one if it is blank. -/
theorem laterLines_eq (h : Lines lines texts) (indent : Nat) :
    ((if lines.getLast?.any fun line => line.all isSpaceOrTab then lines.dropLast
      else lines).flatMap (dedent indent)).map (·.2) = laterLines indent texts := by
  induction h with
  | last line =>
    rw [List.getLast?_singleton, Option.any_some, all_isSpaceOrTab_eq, laterLines]
    split
    · rfl
    · rw [List.flatMap_singleton, dedent_eq]
  | @newline line text lines texts same others ih =>
    obtain ⟨next, lines, rfl⟩ : ∃ next more, lines = next :: more := by
      cases others <;> exact ⟨_, _, rfl⟩
    obtain ⟨next', texts, rfl⟩ : ∃ next' more, texts = next' :: more := by
      cases others <;> exact ⟨_, _, rfl⟩
    rw [List.getLast?_cons_cons, List.dropLast_cons_cons, laterLines, ← ih]
    · split <;>
        rw [List.flatMap_cons, List.map_append, dedent_eq, same, unindent_newline, List.append_assoc,
          List.singleton_append]
    · nofun

/-! ### Blocks -/

theorem exists_cons_of_lines (h : Lines lines texts) :
    ∃ line more text others, lines = line :: more ∧ texts = text :: others := by
  cases h <;> exact ⟨_, _, _, _, rfl, rfl⟩

theorem dropClosingLine_of_lt (several : 1 < lines.length) : dropClosingLine lines =
    if lines.getLast?.any fun line => line.all isSpaceOrTab then lines.dropLast else lines := by
  simp only [dropClosingLine, several, true_and]

/-- The text of a block is what stays of its lines, but for blanks that should not stay. -/
theorem normalize_eq {content : Span} (indent : Nat) (none : ¬LeavesBlanks indent content.text) :
    (normalize indent content).map (·.2) = blockContent indent content.text := by
  have lines := lines_blockLines (locateChars content.start content.text)
  rw [map_locateChars] at lines
  have joined : ['\n'].intercalate ((plainNewlines content.text).splitOn '\n') = _ :=
    List.intercalate_splitOn '\n'
  unfold blockContent
  generalize found : blockLines (locateChars content.start content.text) = located at lines
  generalize (plainNewlines content.text).splitOn '\n' = texts at lines joined
  cases lines with
  | last line =>
    have drops : dropClosingLine [line] = [line] := by simp [dropClosingLine]
    rw [normalize_of_line found (fun _ => rfl) drops]
    simp
  | @newline line first lines texts same others =>
    obtain ⟨second, more, text, later, rfl, rfl⟩ := exists_cons_of_lines others
    by_cases mark : first = []
    · -- The first line is the newline behind the opening mark.
      subst mark
      obtain ⟨c, rfl, _⟩ := List.map_eq_singleton_iff.mp same
      rw [normalize_of_break found]
      simp only [List.isEmpty_nil, if_true, List.nil_append]
      cases others with
      | last =>
        rw [dropClosingLine, if_neg (by simp), List.flatMap_singleton, dedent_eq, laterLines]
        split
        · next blank =>
          -- A line of blanks is not dropped, so that all of it has to be indentation.
          refine List.drop_eq_nil_of_le (Nat.not_lt.mp fun short => none ⟨second.map (·.2), ?_, ?_, short⟩)
          · rw [← joined]
            simp
          · exact List.all_eq_true.mp blank
        · rfl
      | newline same' others' =>
        obtain ⟨_, _, _, _, rfl, rfl⟩ := exists_cons_of_lines others'
        rw [dropClosingLine_of_lt (by simp), laterLines_eq (.newline same' others')]
    · have several : line.length = 1 → second :: more = [] := by
        intro one
        have length := congrArg List.length same
        rw [List.length_map, one, List.length_append, List.length_singleton] at length
        exact absurd (List.length_eq_zero_iff.mp (by omega)) mark
      rw [normalize_of_line found several (dropClosingLine_cons line second more), List.map_append, same,
        laterLines_eq others]
      simp [mark]

/-- Blanks behind the newline that opens a block stay, as far as they are not taken as indentation,
although the line that they stand on is blank. -/
theorem normalize_of_leavesBlanks {content : Span} (leaves : LeavesBlanks indent content.text) :
    blockContent indent content.text = [] ∧
      (normalize indent content).map (·.2) ≠ [] := by
  obtain ⟨blanks, same, blank, wide⟩ := leaves
  have single : '\n' ∉ blanks := fun member => absurd (blank _ member) (by decide)
  have split : (plainNewlines content.text).splitOn '\n' = [[], blanks] := by
    rw [same]
    have parts : (['\n'].intercalate [[], blanks]).splitOn '\n' = [[], blanks] :=
      List.splitOn_intercalate '\n' (by simpa using single) (by simp)
    simpa using parts
  have lines := lines_blockLines (locateChars content.start content.text)
  rw [map_locateChars, split] at lines
  constructor
  · rw [blockContent, split]
    simp [laterLines, List.all_eq_true.mpr blank]
  · generalize found : blockLines (locateChars content.start content.text) = located at lines
    generalize shape : [[], blanks] = texts at lines
    cases lines with
    | last => exact absurd (congrArg List.length shape) (by simp)
    | @newline line text lines texts opening others =>
      obtain ⟨rfl, rfl⟩ := List.cons.inj shape
      obtain ⟨c, rfl, -⟩ := List.map_eq_singleton_iff.mp opening
      generalize last : [blanks] = texts at others
      cases others with
      | newline _ others =>
        obtain ⟨_, _, _, _, _, rfl⟩ := exists_cons_of_lines others
        cases last
      | last second =>
        cases last
        rw [normalize_of_break found, dropClosingLine, if_neg (by simp), List.flatMap_singleton, dedent_eq]
        exact fun none => absurd (List.drop_eq_nil_iff.mp none) (Nat.not_le.mpr wide)

theorem map_finishLine (finish : Nat) (chars : List LocatedChar) :
    (finishLine finish chars).map (·.2) = ended (chars.map (·.2)) := by
  rcases List.eq_nil_or_concat chars with rfl | ⟨front, ⟨place, c⟩, rfl⟩
  · rfl
  · by_cases newline : c = '\n'
    · subst newline
      simp [finishLine, ended]
    · simp [finishLine, ended, newline]

theorem ended_eq_nil_iff : ended text = [] ↔ text = [] := by
  unfold ended
  split
  · rfl
  · next other => simp_all

/-- The characters of a block are those of its text, unless blanks stay that should not. -/
theorem map_blockChars_eq_iff (indent : Nat) (isInline : Bool) (content : Span) :
    (blockChars indent isInline content).map (·.2) = blockText indent isInline content.text ↔
      ¬LeavesBlanks indent content.text := by
  constructor
  · intro same leaves
    obtain ⟨nothing, something⟩ := normalize_of_leavesBlanks leaves
    refine something ?_
    cases isInline with
    | true => exact same.trans nothing
    | false =>
      simp only [blockChars, blockText, Bool.false_eq_true, if_false, map_finishLine, nothing] at same
      exact ended_eq_nil_iff.mp same
  · intro none
    cases isInline with
    | true => exact normalize_eq indent none
    | false => exact (map_finishLine _ _).trans (congrArg ended (normalize_eq indent none))

theorem find?_blockEnd (first : ¬['>', '>'] <:+: text ++ ['>']) (rest : List Char) :
    Text.find? ['>', '>'] (text ++ '>' :: '>' :: rest) = some text.length := by
  induction text with
  | nil => rfl
  | cons c more ih =>
    have later := ih fun inside => first (inside.trans (List.suffix_cons c _).isInfix)
    have apart : ['>', '>'].isPrefixOf (c :: (more ++ '>' :: '>' :: rest)) = false := by
      rw [← Bool.not_eq_true, List.isPrefixOf_iff_prefix]
      intro starts
      -- The marks would begin with the first character of the text, and end in it or with its end.
      refine first (List.IsPrefix.isInfix ?_)
      rw [List.cons_append]
      cases more with
      | nil => simpa using starts
      | cons d more => simpa using starts
    rw [List.cons_append, Text.find?, apart, if_neg Bool.false_ne_true, later]
    rfl

/-- The text between the marks of a block is split at its interpolations as what `blockText` leaves of it,
and gives no node if nothing is left, exactly unless the block opens at the end of its line and has nothing
but spaces and tabs on the next one, of which some are not taken as indentation. -/
theorem readBlockMark_passes_iff (indent : Nat) (isInline : Bool) {s : Span} {text rest : List Char}
    (marks : s.text = '<' :: '<' :: (text ++ '>' :: '>' :: rest))
    (first : ¬['>', '>'] <:+: text ++ ['>']) :
    let chars := blockChars indent isInline ⟨s.start + 2, text⟩
    readBlockMark indent isInline s =
      (if chars.isEmpty then .ok none
      else (interpolate [] chars).map fun nodes => some (.block nodes)).map (·, text.length + 4) ∧
    (chars.map (·.2) = blockText indent isInline text ↔ ¬LeavesBlanks indent text) := by
  refine ⟨?_, map_blockChars_eq_iff indent isInline ⟨s.start + 2, text⟩⟩
  have content : (s.drop 2).take text.length = ⟨s.start + 2, text⟩ := by
    simp only [Span.take, Span.drop, marks, List.drop_succ_cons, List.drop_zero, List.take_left]
  have closes : Text.find? ['>', '>'] (s.text.drop 2) = some text.length := by
    rw [marks]
    exact find?_blockEnd first rest
  rw [readBlockMark, closes, ← readTextBlock_eq, ← content]
  rfl

/-- A block behind four columns of indentation, whose lines end with a carriage return and a newline, and
whose second line starts with a tab and a space. -/
theorem readBlockMark_passes_of_tab :
    let text := ['\r', '\n', '\t', ' ', 'a', '\r', '\n', ' ', '\t']
    ¬['>', '>'] <:+: text ++ ['>'] ∧ ¬LeavesBlanks 4 text ∧
      (blockChars 4 false ⟨2, text⟩).map (·.2) = [' ', 'a', '\n'] ∧
      readBlockMark 4 false ⟨0, '<' :: '<' :: (text ++ ['>', '>'])⟩ =
        (interpolate [] (blockChars 4 false ⟨2, text⟩)).map fun nodes => (some (.block nodes), 13) := by
  intro text
  have first : ¬['>', '>'] <:+: text ++ ['>'] := by decide
  have none : ¬LeavesBlanks 4 text := by
    rintro ⟨blanks, same, blank, -⟩
    cases same
    exact absurd (blank 'a' (by decide)) (by decide)
  obtain ⟨read, passes⟩ := readBlockMark_passes_iff 4 false
    (s := ⟨0, '<' :: '<' :: (text ++ '>' :: '>' :: [])⟩) rfl first
  refine ⟨first, none, (passes.mpr none).trans (by decide +kernel), read.trans ?_⟩
  cbv

set_option maxRecDepth 20000 in
/-- Three spaces behind the newline that opens a block stay, although nothing of the block should. -/
theorem readTemplate_of_blank_line :
    blockText 0 false ['\n', ' ', ' ', ' '] = [] ∧
      readTemplate "<<\n   >>".toList = .ok ⟨.empty, [.block [.text "   \n"]]⟩ := by
  constructor
  · decide +kernel
  · cbv

end PromptScript.Source
