import PromptScript.Proofs.Source.Body

/-!
Indentation. Of a source whose logical lines are physical lines, only what the lines say matters, and which
of two lines is indented further: blank lines and comments may stand anywhere.
-/
namespace PromptScript.Source

open Text

variable {source source' content line next tail rest : List Char} {n : Nat}

/-- A physical line as it is written, unless it is blank or a comment. -/
def Row.ofLine? (line : List Char) : Option Row :=
  if isSilent (contentOf line) then none
  else some ⟨indentWidth (line.takeWhile isIndent), contentOf line⟩

/-- The physical lines of a source that are neither blank nor comments. -/
def rowsOf (source : List Char) : List Row :=
  (pieces (· = '\n') source).filterMap Row.ofLine?

/-- The same line with another indentation. -/
def Row.reindented (f : Nat → Nat) (row : Row) : Row :=
  ⟨f row.indent, row.content⟩

/-- Whether the logical line that starts with a physical line goes on behind its newline, though no text
block is open there. -/
def takesNewline (line : Span) : Bool :=
  !isSilent (contentOf line.text) &&
    lineLength .code 0 (contentOf line.text ++ ['\n']) = .ok ((contentOf line.text).length + 1)

theorem rowsOf_single (single : '\n' ∉ line) : rowsOf line = (Row.ofLine? line).toList := by
  rw [rowsOf, pieces_of_forall (ne_newline_of_mem single), filterMap_cons_toList, List.filterMap_nil,
    List.append_nil]

theorem rowsOf_newline (single : '\n' ∉ line) (rest : List Char) :
    rowsOf (line ++ '\n' :: rest) = (Row.ofLine? line).toList ++ rowsOf rest := by
  rw [rowsOf, pieces_append_cons (ne_newline_of_mem single) (by decide), filterMap_cons_toList]
  rfl

theorem forall_toList_ofLine {P : List Char → Prop} : (∀ row ∈ (Row.ofLine? line).toList, P row.content) ↔
    (isSilent (contentOf line) = false → P (contentOf line)) := by
  unfold Row.ofLine?
  cases isSilent (contentOf line) <;> simp

theorem forall_rowsOf_newline {P : List Char → Prop} (single : '\n' ∉ line) (rest : List Char) :
    (∀ row ∈ rowsOf (line ++ '\n' :: rest), P row.content) ↔
      (isSilent (contentOf line) = false → P (contentOf line)) ∧ ∀ row ∈ rowsOf rest, P row.content := by
  rw [rowsOf_newline single, List.forall_mem_append, forall_toList_ofLine]

/-- What a source says on its lines, and what its lines would be as logical lines. -/
theorem stands_rowsOf (lines : List (List Char)) (start : Nat) :
    List.Forall₂ Stands (lines.filterMap Row.ofLine?)
      ((lineSpans start lines).filterMap LogicalLine.ofLine?) := by
  induction lines generalizing start with
  | nil => exact .nil
  | cons line rest ih =>
    rw [lineSpans, filterMap_cons_toList, filterMap_cons_toList, Row.ofLine?, LogicalLine.ofLine?]
    cases isSilent (contentOf line) with
    | true => exact ih _
    | false => exact .cons ⟨rfl, rfl⟩ (ih _)

/-! ### The end of a line -/

/-- At the end of a text no text block is open. -/
def IsClosed (content : List Char) : Prop :=
  lineLength .code 0 content = .ok content.length

theorem lineLength_moved {offset : Nat} (h : lineLength .code offset content = .ok n) (offset' : Nat) :
    lineLength .code offset' content = .ok n := by
  have moved : Moved (fun _ _ => True) .plain ⟨offset, content⟩ ⟨offset', content⟩ := .same rfl
  have related := lineLength_alike moved .code
  simp only [h] at related
  generalize lineLength .code offset' content = read at related
  cases related with
  | ok ends =>
    obtain ⟨front, tail, -, -, rfl, rfl⟩ := ends
    have nothing : beforeEnd .plain tail = [] := by
      unfold beforeEnd
      split <;> rfl
    rw [Break.plain_write, nothing]
    rfl

theorem endsOrTakes (closed : IsClosed content) :
    EndsAt .code content content.length ∨ TakesNext .code content :=
  endsOrTakes_of_ok closed

theorem not_takesNewline {start : Nat} (ends : EndsAt .code (contentOf line) (contentOf line).length) :
    takesNewline ⟨start, line⟩ = false := by
  have length : lineLength .code 0 (contentOf line ++ ['\n']) = .ok (contentOf line).length :=
    ends 0 0 _ (.newline [])
  simp [takesNewline, length]

/-- Behind a backslash that takes the newline, the string it stands in goes on. -/
theorem TakesNext.lineLength (takes : TakesNext .code content) (rest : List Char) (offset : Nat) :
    ∃ quote offset', Source.lineLength .code offset (content ++ '\n' :: rest) =
      (Source.lineLength (.quoted quote) offset' rest).map (· + (content.length + 1)) := by
  obtain ⟨front, quote, rfl, takes⟩ := takes
  obtain ⟨offset', here⟩ := takes 0 offset ('\n' :: rest)
  refine ⟨quote, offset' + 2, ?_⟩
  have length : (front ++ ['\\']).length + 1 = 2 + front.length := by
    rw [List.length_append, List.length_singleton]
    omega
  rw [lineLength_escape, except_map_add] at here
  rw [length]
  exact here

theorem takesNewline_of_takes {start : Nat} (audible : isSilent (contentOf line) = false)
    (takes : TakesNext .code (contentOf line)) : takesNewline ⟨start, line⟩ = true := by
  obtain ⟨quote, offset, length⟩ := takes.lineLength [] 0
  simp only [takesNewline, audible, length]
  simp [lineLength, Except.map]

theorem TakesNext.lineLength_blank (takes : TakesNext .code content) (single : '\n' ∉ next)
    (ends : EndsLine tail) (blank : ∀ c ∈ next, isBlank c = true) (offset : Nat) :
    Source.lineLength .code offset (content ++ '\n' :: (next ++ tail)) =
      .ok (content.length + (next.length + 1)) := by
  obtain ⟨quote, offset', length⟩ := takes.lineLength (next ++ tail) offset
  have noBlock : ¬['<', '<'] <:+: next := by
    intro inside
    exact absurd (blank '<' (inside.subset (by simp))) (by decide)
  have later : Source.lineLength (.quoted quote) offset' (next ++ tail) = .ok next.length :=
    lineLength_of_not_hangs noBlock single ends
      (fun (hangs : hangs (some quote) next = true) => by rw [hangs_of_blank blank] at hangs; cases hangs)
      offset'
  rw [length, later]
  exact congrArg Except.ok (Nat.add_left_comm _ _ _)

/-! ### Logical lines that are physical lines -/

/-- What a line says on another physical line is more than blanks if it shows a newline. -/
theorem blank_of_trimEnd {front back : List Char} (single : '\n' ∉ trimEnd (front ++ '\n' :: back)) :
    ∀ c ∈ '\n' :: back, isBlank c = true := by
  rw [← trimEnd_eq_nil_iff]
  by_contra visible
  obtain ⟨behind, same⟩ := isPrefix_trimEndOf isBlank ('\n' :: back)
  obtain ⟨c, more, kept⟩ := List.exists_cons_of_ne_nil visible
  have head : c = '\n' := by
    rw [trimEnd] at kept
    rw [kept] at same
    exact (List.cons.inj same).1
  rw [trimEnd_append, if_neg (by simpa using visible), kept, head] at single
  exact single (List.mem_append_right _ List.mem_cons_self)

/-- A line at whose end no text block is open is a logical line of its own, if it says anything, unless it
takes its newline in front of a line that is not blank. -/
theorem logicalLines_of_isClosed (single : '\n' ∉ line) (start : Nat)
    (closed : isSilent (contentOf line) = false → IsClosed (contentOf line))
    (apart : takesNewline ⟨start, line⟩ = true → ∃ next tail, rest = next ++ tail ∧ '\n' ∉ next ∧
      EndsLine tail ∧ ∀ c ∈ next, isBlank c = true) :
    logicalLines ⟨start, line ++ '\n' :: rest⟩ =
      (logicalLines ⟨start + line.length + 1, rest⟩).map
        ((LogicalLine.ofLine? ⟨start, line⟩).toList ++ ·) := by
  cases silent : isSilent (contentOf line) with
  | true => exact logicalLines_skipped single start silent
  | false =>
    rcases endsOrTakes (closed silent) with ends | takes
    · exact logicalLines_closed single start silent fun offset => ends 0 offset _ (.newline rest)
    · obtain ⟨next, tail, rfl, single', ends, blank⟩ := apart (takesNewline_of_takes silent takes)
      exact logicalLines_onto_blank single start silent single' ends blank
        (takes.lineLength_blank single' ends blank)

/-- Lines at whose ends no text block is open are logical lines of their own, unless one takes its newline
in front of a line that is not blank. -/
theorem logicalLines_of_closed (closed : ∀ row ∈ rowsOf source, IsClosed row.content) {start : Nat}
    (apart : (physicalLinesFrom start source).IsChain
      fun line next => takesNewline line = true → isBlankLine next = true) :
    logicalLines ⟨start, source⟩ =
      .ok ((physicalLinesFrom start source).filterMap LogicalLine.ofLine?) := by
  induction size : source.length using Nat.strongRecOn generalizing source start with
  | ind n ih =>
    obtain ⟨line, tail, rfl, single, ends⟩ := exists_line source
    cases tail with
    | nil =>
      rw [List.append_nil] at closed ⊢
      rw [rowsOf_single single, forall_toList_ofLine (P := IsClosed)] at closed
      rw [logicalLines_last single start fun audible => lineLength_moved (closed audible),
        physicalLinesFrom_single single, filterMap_cons_toList, List.filterMap_nil, List.append_nil]
    | cons c rest =>
      obtain rfl := ends c rfl
      have shorter : rest.length < n := by
        simp only [List.length_append, List.length_cons] at size
        omega
      obtain ⟨next, behind, rfl, single', ends'⟩ := exists_line rest
      obtain ⟨others, below⟩ := physicalLinesFrom_cons single' ends' (start + line.length + 1)
      rw [forall_rowsOf_newline single (P := IsClosed)] at closed
      rw [physicalLinesFrom_newline single, below, List.isChain_cons_cons, ← below] at apart
      have first := logicalLines_of_isClosed single start closed.1 fun takes =>
        ⟨next, behind, rfl, single', ends', isBlankLine_iff.mp (apart.1 takes)⟩
      rw [first, ih _ shorter closed.2 apart.2 rfl, physicalLinesFrom_newline single,
        filterMap_cons_toList]
      rfl

/-- A logical line without a newline is a physical line: no text block is open at its end, and it takes its
newline in front of a blank line only. -/
theorem closed_of_first {lines : List LogicalLine} {start : Nat} (single : '\n' ∉ line)
    (single' : '\n' ∉ next) (audible : isSilent (contentOf line) = false)
    (read : logicalLines ⟨start, line ++ '\n' :: (next ++ tail)⟩ = .ok lines)
    (alone : ∀ line ∈ lines, '\n' ∉ line.span.text) :
    IsClosed (contentOf line) ∧
      (takesNewline ⟨start, line⟩ = true → isBlankLine ⟨start + line.length + 1, next⟩ = true) := by
  have inside := not_mem_contentOf single
  have nonempty : line ++ '\n' :: (next ++ tail) ≠ [] := by simp
  have whole := read
  rw [logicalLines_physical single (.newline _) start nonempty, audible] at whole
  obtain ⟨k, length, whole⟩ := Computation.except_bind_ok_iff.mp whole
  obtain ⟨more, -, same⟩ := Computation.except_bind_ok_iff.mp whole
  cases same
  have reaches := le_of_lineLength inside length
  obtain ⟨m, rfl⟩ := Nat.exists_eq_add_of_le reaches
  have blank : ∀ c ∈ ('\n' :: (next ++ tail)).take m, isBlank c = true := by
    have shown := alone _ List.mem_cons_self
    simp only [List.take_length_add_append] at shown
    cases m with
    | zero => nofun
    | succ m =>
      rw [List.take_succ_cons] at shown ⊢
      exact blank_of_trimEnd shown
  have closed : IsClosed (contentOf line) :=
    lineLength_moved (lineLength_front length reaches (by rwa [Nat.add_sub_cancel_left])) 0
  refine ⟨closed, fun takes => ?_⟩
  rcases endsOrTakes closed with ends | taken
  · rw [not_takesNewline ends] at takes
    cases takes
  · obtain ⟨quote, offset, goes⟩ := taken.lineLength (next ++ tail) (start + (line.takeWhile isIndent).length)
    obtain ⟨k, later, same⟩ := Computation.except_map_ok_iff.mp (goes.symm.trans length)
    obtain rfl : m = k + 1 := by omega
    have within := le_of_lineLength single' later
    refine isBlankLine_iff.mpr fun c member => blank c ?_
    rw [List.take_succ_cons, List.take_append, List.take_of_length_le within]
    exact List.mem_cons_of_mem _ (List.mem_append_left _ member)

theorem closed_of_last {lines : List LogicalLine} {start : Nat} (single : '\n' ∉ line)
    (audible : isSilent (contentOf line) = false) (read : logicalLines ⟨start, line⟩ = .ok lines) :
    IsClosed (contentOf line) := by
  have nonempty : line ++ [] ≠ [] := by
    rintro none
    rw [List.append_nil] at none
    subst none
    cases audible
  rw [← List.append_nil line, logicalLines_physical single .nil start nonempty, audible] at read
  obtain ⟨k, length, -⟩ := Computation.except_bind_ok_iff.mp read
  have reaches := le_of_lineLength (not_mem_contentOf single) length
  have within := (le_and_endsLine_of_lineLength length).1
  rw [List.append_nil] at length within
  rw [IsClosed, lineLength_moved length 0, within.antisymm reaches]

/-- Logical lines without newlines are physical lines: no text block is open at their ends, and none of
them takes its newline in front of a line that is not blank. -/
theorem closed_of_logicalLines {lines : List LogicalLine} {start : Nat}
    (read : logicalLines ⟨start, source⟩ = .ok lines) (alone : ∀ line ∈ lines, '\n' ∉ line.span.text) :
    (∀ row ∈ rowsOf source, IsClosed row.content) ∧ (physicalLinesFrom start source).IsChain
      fun line next => takesNewline line = true → isBlankLine next = true := by
  induction size : source.length using Nat.strongRecOn generalizing source start lines with
  | ind n ih =>
    obtain ⟨line, tail, rfl, single, ends⟩ := exists_line source
    cases tail with
    | nil =>
      rw [List.append_nil] at read ⊢
      rw [rowsOf_single single, forall_toList_ofLine (P := IsClosed), physicalLinesFrom_single single]
      exact ⟨fun audible => closed_of_last single audible read, .singleton _⟩
    | cons c rest =>
      obtain rfl := ends c rfl
      have shorter : rest.length < n := by
        simp only [List.length_append, List.length_cons] at size
        omega
      obtain ⟨next, behind, rfl, single', ends'⟩ := exists_line rest
      obtain ⟨others, below⟩ := physicalLinesFrom_cons single' ends' (start + line.length + 1)
      have here : (isSilent (contentOf line) = false → IsClosed (contentOf line)) ∧
          (takesNewline ⟨start, line⟩ = true → isBlankLine ⟨start + line.length + 1, next⟩ = true) := by
        cases silent : isSilent (contentOf line) with
        | true => exact ⟨nofun, fun takes => by simp [takesNewline, silent] at takes⟩
        | false => exact (closed_of_first single single' silent read alone).imp_left fun closed _ => closed
      have first := logicalLines_of_isClosed single start here.1 fun takes =>
        ⟨next, behind, rfl, single', ends', isBlankLine_iff.mp (here.2 takes)⟩
      rw [first] at read
      obtain ⟨later, read', rfl⟩ := Computation.except_map_ok_iff.mp read
      obtain ⟨closed, apart⟩ := ih _ shorter read'
        (fun line member => alone line (List.mem_append_right _ member)) rfl
      rw [physicalLinesFrom_newline single, below, List.isChain_cons_cons, ← below]
      exact ⟨(forall_rowsOf_newline single _).mpr ⟨here.1, closed⟩, here.2, apart⟩

/-! ### Templates -/

theorem text_mem_of_mem_lineSpans {lines : List (List Char)} {start : Nat} {span : Span}
    (member : span ∈ lineSpans start lines) : span.text ∈ lines := by
  induction lines generalizing start with
  | nil => cases member
  | cons line rest ih =>
    rcases List.mem_cons.mp member with rfl | later
    · exact List.mem_cons_self
    · exact List.mem_cons_of_mem line (ih later)

/-- A comment is no metadata. -/
theorem isBody_of_isSilent {start : Nat} (silent : isSilent (contentOf line) = true)
    (visible : isBlankLine ⟨start, line⟩ = false) : IsBody (contentOf line) := by
  rw [isSilent, Bool.or_eq_true, List.isEmpty_iff, trimEnd_eq_nil_iff] at silent
  rcases silent with blank | comment
  · have all : ∀ c ∈ line, isBlank c = true := by
      rw [← takeWhile_append_contentOf line]
      refine List.forall_mem_append.mpr ⟨fun c member => ?_, blank⟩
      exact isBlank_of_isIndent (List.mem_takeWhile_imp member)
    rw [isBlankLine_iff.mpr all] at visible
    cases visible
  · obtain ⟨more, same⟩ := List.isPrefixOf_iff_prefix.mp comment
    refine .of_head fun c head => ?_
    rw [← same] at head
    cases head
    decide

/-- A source none of whose lines is metadata behind its indentation has none. -/
theorem startsPlainly_of_rows (bodies : ∀ row ∈ rowsOf source,
    isFence (trimEnd row.content) = false ∧ looksMarked row.content = false) : StartsPlainly source := by
  intro line first
  have inside := (List.dropWhile_suffix isBlankLine).mem (List.mem_of_mem_head? first)
  have visible : isBlankLine line = false := by
    have head := List.head?_dropWhile_not isBlankLine (physicalLines source)
    rwa [Option.mem_def.mp first] at head
  rw [← isBody_iff, ← takeWhile_append_contentOf line.text]
  refine IsBody.indented ?_ fun c member => List.mem_takeWhile_imp member
  cases silent : isSilent (contentOf line.text) with
  | true => exact isBody_of_isSilent silent visible
  | false =>
    have row : (⟨_, contentOf line.text⟩ : Row) ∈ rowsOf source :=
      List.mem_filterMap.mpr ⟨line.text, text_mem_of_mem_lineSpans inside, by rw [Row.ofLine?, silent]; rfl⟩
    exact isBody_iff.mpr (bodies _ row)

theorem lines_reindented {f : Nat → Nat} {rows : List Row} {lines lines' : List LogicalLine}
    (stand : List.Forall₂ Stands rows lines)
    (stand' : List.Forall₂ Stands (rows.map (·.reindented f)) lines')
    (alone : ∀ line ∈ lines, '\n' ∉ line.span.text) :
    List.Forall₂ (LineAlike (fun _ _ => True) .plain f) lines lines' := by
  induction stand generalizing lines' with
  | nil =>
    cases stand'
    exact .nil
  | @cons row line rows lines here _ ih =>
    obtain ⟨first, others⟩ := List.forall_mem_cons.mp alone
    cases stand' with
    | @cons _ line' _ _ here' later =>
      have text : line.span.text = line'.span.text := here.text.trans here'.text.symm
      have indent : line'.indent = f line.indent := by
        rw [here.indent]
        exact here'.indent
      exact .cons ⟨indent, Moved.same text, .inl (.inl rfl), fun newline => absurd newline first⟩
        (ih later others)

/-- Of a source whose logical lines are physical lines, only the order of the indentation matters. Blank
lines and comments may be put in or left out, and every line may be indented another way, as long as no line
takes its newline in front of a line that is not blank. -/
theorem parse_reindented {f : Nat → Nat} (mono : StrictMono f) {lines : List LogicalLine}
    (read : logicalLines ⟨0, source⟩ = .ok lines) (alone : ∀ line ∈ lines, '\n' ∉ line.span.text)
    (bodies : ∀ row ∈ rowsOf source,
      isFence (trimEnd row.content) = false ∧ looksMarked row.content = false)
    (same : rowsOf source' = (rowsOf source).map (·.reindented f))
    (apart : (physicalLines source').IsChain
      fun line next => takesNewline line = true → isBlankLine next = true) :
    ParsedAlike Eq (fun _ _ => True) (Template.parse (.ofList source))
      (Template.parse (.ofList source')) := by
  obtain ⟨closed, apart₁⟩ := closed_of_logicalLines read alone
  have closed' : ∀ row ∈ rowsOf source', IsClosed row.content := by
    rw [same]
    exact List.forall_mem_map.mpr closed
  have bodies' : ∀ row ∈ rowsOf source',
      isFence (trimEnd row.content) = false ∧ looksMarked row.content = false := by
    rw [same]
    exact List.forall_mem_map.mpr bodies
  have read₁ := logicalLines_of_closed closed apart₁
  have read' : logicalLines ⟨0, source'⟩ = _ := logicalLines_of_closed closed' apart
  obtain rfl : lines = _ := Except.ok.inj (read.symm.trans read₁)
  have stand := stands_rowsOf (pieces (· = '\n') source) 0
  have stand' := stands_rowsOf (pieces (· = '\n') source') 0
  change List.Forall₂ Stands (rowsOf source') _ at stand'
  rw [same] at stand'
  have nodes := readLines_alike mono (lines_reindented stand stand' alone)
  have template : Alike (fun _ _ => True) Eq (readTemplate source) (readTemplate source') := by
    rw [readTemplate_of_plain (startsPlainly_of_rows bodies),
      readTemplate_of_plain (startsPlainly_of_rows bodies'), readBody, readBody, read, read']
    exact nodes.map fun _ _ same => congrArg _ same
  rw [Template.parse, Template.parse, String.toList_ofList, String.toList_ofList]
  exact located_alike template fun _ _ _ => trivial

/-- A conditional indented further, with a blank line and a comment put in. -/
theorem parse_reindented_conditional :
    let source := ['i', 'f', ' ', 'x', ':', '\n', ' ', '<', '<', 'a', '>', '>']
    let source' := ['\n', '\t', 'i', 'f', ' ', 'x', ':', '\n', '/', '/', '\n', '\t', '\t', ' ', '<', '<', 'a',
      '>', '>']
    let f := fun n => 5 * n + 4
    StrictMono f ∧ rowsOf source' = (rowsOf source).map (·.reindented f) ∧
      ParsedAlike Eq (fun _ _ => True) (Template.parse (.ofList source))
        (Template.parse (.ofList source')) := by
  intro source source' f
  have mono : StrictMono f := fun n m less => by
    simp only [f]
    omega
  have read : logicalLines ⟨0, source⟩ = .ok [⟨0, ⟨0, ['i', 'f', ' ', 'x', ':']⟩⟩,
      ⟨1, ⟨7, ['<', '<', 'a', '>', '>']⟩⟩] := by cbv
  have same : rowsOf source' = (rowsOf source).map (·.reindented f) := by cbv
  refine ⟨mono, same, parse_reindented mono read ?_ ?_ same ?_⟩
  · decide
  · decide
  · decide

set_option maxRecDepth 20000 in
theorem readTemplate_of_blank_between :
    readTemplate "it's \\\n\n@effect run".toList = .ok ⟨.empty, [.effect .run]⟩ := by
  have plain : StartsPlainly "it's \\\n\n@effect run".toList := by decide +kernel
  have lines : logicalLines ⟨0, "it's \\\n\n@effect run".toList⟩ =
      .ok [⟨0, ⟨0, "it's \\".toList⟩⟩, ⟨0, ⟨8, "@effect run".toList⟩⟩] := by decide +kernel
  have read : readLines [⟨0, ⟨0, "it's \\".toList⟩⟩, ⟨0, ⟨8, "@effect run".toList⟩⟩] =
      .ok [.effect .run] := by with_unfolding_all rfl
  rw [readTemplate_of_plain plain, readBody, lines]
  exact congrArg (Except.map (Template.mk .empty)) read

/-- Behind an apostrophe and a backslash, a blank line keeps the next line from being taken in: without it
the statement there is none. -/
theorem readTemplate_without_blank_line :
    let source := "it's \\\n\n@effect run".toList
    let source' := "it's \\\n@effect run".toList
    logicalLines ⟨0, source⟩ =
        .ok [⟨0, ⟨0, "it's \\".toList⟩⟩, ⟨0, ⟨8, "@effect run".toList⟩⟩] ∧
      (∀ row ∈ rowsOf source, isFence (trimEnd row.content) = false ∧ looksMarked row.content = false) ∧
      rowsOf source' = (rowsOf source).map (·.reindented id) ∧
      readTemplate source = .ok ⟨.empty, [.effect .run]⟩ ∧ readTemplate source' = .ok ⟨.empty, []⟩ := by
  exact ⟨by decide +kernel, by decide, by with_unfolding_all rfl, readTemplate_of_blank_between,
    readTemplate_of_backslash⟩

end PromptScript.Source
