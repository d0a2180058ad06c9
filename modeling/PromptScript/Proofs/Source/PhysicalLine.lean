import PromptScript.Proofs.Source.Leaf

/-!
Where logical lines end in a source without text blocks. A logical line is one physical line, except that
a backslash in an open string takes the newline behind it into the line.
-/
namespace PromptScript.Source

open Text

variable {mode : Mode} {offset n : Nat} {quote : Option Char} {text tail line : List Char}

/-- The string that is open behind a character, if one is. -/
def quoteBehind (quote : Option Char) (c : Char) : Option Char :=
  match quote with
  | none => if isQuote c then some c else none
  | some q => if c = q then none else some q

/-- Whether a text ends with a backslash that stands in a string, where it takes the next character with
it. A string may be open at the start of the text. -/
def hangs (quote : Option Char) : List Char → Bool
  | [] => false
  | c :: rest =>
    if quote.isSome ∧ c = '\\' then
      match rest with
      | [] => true
      | _ :: rest => hangs quote rest
    else hangs (quoteBehind quote c) rest

theorem hangs_taken {c : Char} {rest : List Char} (string : quote.isSome = true) :
    hangs quote ('\\' :: c :: rest) = hangs quote rest := by
  simp [hangs, string]

theorem hangs_char {c : Char} {rest : List Char} (noEscape : ¬(quote.isSome = true ∧ c = '\\')) :
    hangs quote (c :: rest) = hangs (quoteBehind quote c) rest := by
  rw [hangs.eq_def]
  exact if_neg noEscape

/-- The mode of a line in which a string may be open. -/
def Mode.ofQuote : Option Char → Mode
  | none => .code
  | some quote => .quoted quote

/-- A line without its indentation. -/
def contentOf (line : List Char) : List Char :=
  line.dropWhile isIndent

/-- What a physical line says by itself, if it says anything: it is neither blank nor a comment. -/
def LogicalLine.ofLine? (line : Span) : Option LogicalLine :=
  let indentation := line.text.takeWhile isIndent
  if isSilent (contentOf line.text) then none
  else some
    ⟨indentWidth indentation, ⟨line.start + indentation.length, trimEnd (contentOf line.text)⟩⟩

/-- Whether the logical line that starts with a physical line goes on behind its newline. -/
def runsOn (line : Span) : Bool :=
  !isSilent (contentOf line.text) && hangs none (contentOf line.text)

/-! ### The end of a line -/

theorem lineLength_nil (quote : Option Char) (offset : Nat) (ends : EndsLine tail) :
    lineLength (.ofQuote quote) offset tail = .ok 0 := by
  refine lineLength_ended (fun opening => ?_) ends offset
  cases quote <;> nofun

/-- A character of a line that takes no other with it. -/
theorem lineLength_char {rest : List Char} {c : Char} (noNewline : c ≠ '\n')
    (apart : ∀ d ∈ rest.head?, Apart c d) (noEscape : ¬(quote.isSome = true ∧ c = '\\'))
    (offset : Nat) : lineLength (.ofQuote quote) offset (c :: rest) =
      (lineLength (.ofQuote (quoteBehind quote c)) (offset + 1) rest).map (· + 1) := by
  cases quote with
  | none =>
    cases opens : isQuote c with
    | true => simpa [quoteBehind, opens, Mode.ofQuote] using lineLength_opening opens offset rest
    | false =>
      simpa [quoteBehind, opens, Mode.ofQuote] using lineLength_plain noNewline opens apart offset
  | some q =>
    have noBackslash : c ≠ '\\' := fun same => noEscape ⟨rfl, same⟩
    rw [Mode.ofQuote, lineLength_quoted noNewline noBackslash, quoteBehind]
    by_cases closes : c = q <;> simp [closes, Mode.ofQuote]

theorem lineLength_taken {c : Char} {rest : List Char} (string : quote.isSome = true) (offset : Nat) :
    lineLength (.ofQuote quote) offset ('\\' :: c :: rest) =
      (lineLength (.ofQuote quote) (offset + 2) rest).map (· + 2) := by
  obtain ⟨q, rfl⟩ := Option.isSome_iff_exists.mp string
  exact lineLength_escape q offset c rest

/-- Where no text block opens, an angle is not followed by another. -/
theorem apart_of_not_infix {c : Char} {rest : List Char} (noBlock : ¬['<', '<'] <:+: c :: rest)
    (ends : EndsLine tail) : ∀ d ∈ (rest ++ tail).head?, Apart c d := by
  cases rest with
  | nil =>
    intro d member
    rw [ends d member]
    exact fun h => absurd h.2 (by decide)
  | cons e more =>
    rintro _ ⟨⟩ ⟨rfl, rfl⟩
    exact noBlock ⟨[], more, rfl⟩

theorem not_infix_of_cons {c : Char} {rest : List Char} (noBlock : ¬['<', '<'] <:+: c :: rest) :
    ¬['<', '<'] <:+: rest :=
  fun inside => noBlock (List.infix_cons inside)

/-- In a source without text blocks, a line ends at its newline, unless a backslash takes that. -/
theorem lineLength_of_not_hangs (noBlock : ¬['<', '<'] <:+: text) (single : '\n' ∉ text)
    (ends : EndsLine tail) (done : hangs quote text = true → tail = []) (offset : Nat) :
    lineLength (.ofQuote quote) offset (text ++ tail) = .ok text.length := by
  induction quote, text using hangs.induct generalizing offset with
  | case1 quote => exact lineLength_nil quote offset ends
  | case2 quote c escape =>
    obtain ⟨string, rfl⟩ := escape
    obtain rfl := done (by simp [hangs, string])
    obtain ⟨q, rfl⟩ := Option.isSome_iff_exists.mp string
    by_cases closes : '\\' = q
    · subst closes
      rfl
    · simp [Mode.ofQuote, lineLength, if_neg closes]
      rfl
  | case3 quote c escape d rest ih =>
    obtain ⟨string, rfl⟩ := escape
    rw [hangs_taken string] at done
    have later := ih (not_infix_of_cons (not_infix_of_cons noBlock))
      (List.not_mem_of_not_mem_cons (List.not_mem_of_not_mem_cons single)) done (offset + 2)
    rw [List.cons_append, List.cons_append, lineLength_taken string, later]
    rfl
  | case4 quote c rest noEscape ih =>
    rw [hangs_char noEscape] at done
    have later := ih (not_infix_of_cons noBlock) (List.not_mem_of_not_mem_cons single) done (offset + 1)
    have apart := apart_of_not_infix noBlock ends
    rw [List.cons_append, lineLength_char (List.ne_of_not_mem_cons single).symm apart noEscape, later]
    rfl

theorem lineLength_code (noBlock : ¬['<', '<'] <:+: text) (single : '\n' ∉ text)
    (ends : EndsLine tail) (done : hangs none text = true → tail = []) (offset : Nat) :
    lineLength .code offset (text ++ tail) = .ok text.length :=
  lineLength_of_not_hangs noBlock single ends done offset

/-- A backslash at the end of a line takes the newline, and the string stays open. -/
theorem lineLength_of_hangs {rest : List Char} (noBlock : ¬['<', '<'] <:+: text)
    (single : '\n' ∉ text) (hanging : hangs quote text = true) (offset : Nat) :
    ∃ q, lineLength (.ofQuote quote) offset (text ++ '\n' :: rest) =
      (lineLength (.quoted q) (offset + (text.length + 1)) rest).map (· + (text.length + 1)) := by
  induction quote, text using hangs.induct generalizing offset with
  | case1 quote => cases hanging
  | case2 quote c escape =>
    obtain ⟨string, rfl⟩ := escape
    obtain ⟨q, rfl⟩ := Option.isSome_iff_exists.mp string
    exact ⟨q, lineLength_escape q offset _ rest⟩
  | case3 quote c escape d more ih =>
    obtain ⟨string, rfl⟩ := escape
    rw [hangs_taken string] at hanging
    obtain ⟨q, later⟩ := ih (not_infix_of_cons (not_infix_of_cons noBlock))
      (List.not_mem_of_not_mem_cons (List.not_mem_of_not_mem_cons single)) hanging (offset + 2)
    refine ⟨q, ?_⟩
    rw [List.cons_append, List.cons_append, lineLength_taken string, later, except_map_add]
    congr 2
    simp only [List.length_cons]
    omega
  | case4 quote c more noEscape ih =>
    rw [hangs_char noEscape] at hanging
    obtain ⟨q, later⟩ := ih (not_infix_of_cons noBlock) (List.not_mem_of_not_mem_cons single) hanging
      (offset + 1)
    have apart := apart_of_not_infix noBlock (.newline rest)
    refine ⟨q, ?_⟩
    rw [List.cons_append, lineLength_char (List.ne_of_not_mem_cons single).symm apart noEscape, later,
      except_map_add]
    congr 2
    simp only [List.length_cons]
    omega

/-! ### Blank lines -/

theorem isBlankLine_iff {start : Nat} :
    isBlankLine ⟨start, line⟩ = true ↔ ∀ c ∈ line, isBlank c = true := by
  rw [isBlankLine, List.isEmpty_iff]
  constructor
  · intro nothing c member
    by_contra visible
    exact List.ne_nil_of_mem (mem_trim member (Bool.eq_false_iff.mpr visible)) nothing
  · intro blank
    rw [trim, trimStart, List.dropWhile_eq_nil_iff.mpr blank]
    rfl

/-- Blanks open no string, and take nothing with them. -/
theorem hangs_of_blank (blank : ∀ c ∈ text, isBlank c = true) : hangs quote text = false := by
  induction text generalizing quote with
  | nil => rfl
  | cons c rest ih =>
    obtain ⟨here, later⟩ := List.forall_mem_cons.mp blank
    have noBackslash : c ≠ '\\' := by
      rintro rfl
      rw [not_isBlank_backslash] at here
      cases here
    rw [hangs_char fun h => noBackslash h.2]
    exact ih later

theorem isSilent_of_blank (blank : ∀ c ∈ text, isBlank c = true) : isSilent text = true := by
  simp [isSilent, trimEnd_eq_nil_iff.mpr blank]

/-! ### One physical line -/

theorem exists_line (text : List Char) :
    ∃ line tail, text = line ++ tail ∧ '\n' ∉ line ∧ EndsLine tail := by
  refine ⟨text.takeWhile (· ≠ '\n'), text.dropWhile (· ≠ '\n'),
    List.takeWhile_append_dropWhile.symm, fun member => ?_, fun c member => ?_⟩
  · simpa using List.mem_takeWhile_imp member
  · simpa using bars_dropWhile (· ≠ '\n') text c member

/-! ### The first physical line -/

theorem takeWhile_append_contentOf (line : List Char) :
    line.takeWhile isIndent ++ contentOf line = line :=
  List.takeWhile_append_dropWhile

theorem length_contentOf (line : List Char) :
    (line.takeWhile isIndent).length + (contentOf line).length = line.length := by
  rw [← List.length_append, takeWhile_append_contentOf]

theorem not_mem_contentOf (single : '\n' ∉ line) : '\n' ∉ contentOf line :=
  fun member => single ((List.dropWhile_suffix isIndent).mem member)

theorem not_infix_contentOf (noBlock : ¬['<', '<'] <:+: line ++ tail) :
    ¬['<', '<'] <:+: contentOf line :=
  fun inside => noBlock <|
    inside.trans ((List.dropWhile_suffix isIndent).isInfix.trans (List.prefix_append line tail).isInfix)

/-- What follows the indentation does not go on with it. -/
theorem bars_contentOf (ends : EndsLine tail) : Bars isIndent (contentOf line ++ tail) := by
  cases empty : contentOf line with
  | nil =>
    intro c member
    rw [ends c member]
    decide
  | cons c more =>
    rw [← empty]
    exact bars_append (by simp [empty]) (bars_dropWhile isIndent line)

theorem logicalLines_physical (single : '\n' ∉ line) (ends : EndsLine tail) (start : Nat)
    (nonempty : line ++ tail ≠ []) : logicalLines ⟨start, line ++ tail⟩ =
      if isSilent (contentOf line) then logicalLines ⟨start + line.length + 1, tail.drop 1⟩
      else do
        let begins := start + (line.takeWhile isIndent).length
        let length ← lineLength .code begins (contentOf line ++ tail)
        let more ← logicalLines ⟨begins + (length + 1), (contentOf line ++ tail).drop (length + 1)⟩
        return ⟨indentWidth (line.takeWhile isIndent),
          ⟨begins, trimEnd ((contentOf line ++ tail).take length)⟩⟩ :: more := by
  have split : line.takeWhile isIndent ++ (contentOf line ++ tail) = line ++ tail := by
    rw [← List.append_assoc, takeWhile_append_contentOf]
  have behind : (contentOf line ++ tail).drop ((contentOf line).length + 1) = tail.drop 1 := by
    rw [← List.drop_drop, List.drop_left]
  have place : start + (line.takeWhile isIndent).length + ((contentOf line).length + 1) =
      start + line.length + 1 := by
    have := length_contentOf line
    omega
  rw [← split] at nonempty ⊢
  rw [logicalLines_indented start (fun c member => List.mem_takeWhile_imp member)
    (bars_contentOf ends) nonempty, takeWhile_line (not_mem_contentOf single) ends, behind, place]

/-- A line that is blank or a comment is left out. -/
theorem logicalLines_silent (single : '\n' ∉ line) (ends : EndsLine tail)
    (silent : isSilent (contentOf line) = true) (start : Nat) :
    logicalLines ⟨start, line ++ tail⟩ = logicalLines ⟨start + line.length + 1, tail.drop 1⟩ := by
  cases empty : (line ++ tail).isEmpty with
  | true =>
    obtain ⟨rfl, rfl⟩ := List.append_eq_nil_iff.mp (List.isEmpty_iff.mp empty)
    exact (logicalLines_nil start).trans (logicalLines_nil _).symm
  | false => rw [logicalLines_physical single ends start (by simpa using empty), if_pos silent]

/-- Any other line starts a logical line, which takes up the line and `n` characters more. -/
theorem logicalLines_audible (single : '\n' ∉ line) (ends : EndsLine tail)
    (audible : isSilent (contentOf line) = false) (start : Nat)
    (length : lineLength .code (start + (line.takeWhile isIndent).length) (contentOf line ++ tail) =
      .ok ((contentOf line).length + n)) :
    logicalLines ⟨start, line ++ tail⟩ =
      (logicalLines ⟨start + line.length + (n + 1), tail.drop (n + 1)⟩).map
        (⟨indentWidth (line.takeWhile isIndent), ⟨start + (line.takeWhile isIndent).length,
          trimEnd (contentOf line ++ tail.take n)⟩⟩ :: ·) := by
  have nonempty : line ++ tail ≠ [] := by
    intro empty
    obtain ⟨rfl, rfl⟩ := List.append_eq_nil_iff.mp empty
    cases audible
  have place : start + (line.takeWhile isIndent).length + ((contentOf line).length + n + 1) =
      start + line.length + (n + 1) := by
    have := length_contentOf line
    omega
  have behind : (contentOf line ++ tail).drop ((contentOf line).length + n + 1) =
      tail.drop (n + 1) := by
    rw [Nat.add_assoc, ← List.drop_drop, List.drop_left]
  have taken : (contentOf line ++ tail).take ((contentOf line).length + n) =
      contentOf line ++ tail.take n := by
    rw [List.take_append, List.take_of_length_le (Nat.le_add_right _ _), Nat.add_sub_cancel_left]
  rw [logicalLines_physical single ends start nonempty, audible]
  simp only [Bool.false_eq_true, if_false, length, bind, Except.bind, behind, place, taken]
  rfl

/-! ### Logical lines -/

/-- The last physical line is a logical line of its own, if it says anything. -/
theorem logicalLines_last (single : '\n' ∉ line) (start : Nat)
    (length : isSilent (contentOf line) = false →
      ∀ offset, lineLength .code offset (contentOf line) = .ok (contentOf line).length) :
    logicalLines ⟨start, line⟩ = .ok (LogicalLine.ofLine? ⟨start, line⟩).toList := by
  rw [LogicalLine.ofLine?]
  cases silent : isSilent (contentOf line) with
  | true =>
    have nothing := logicalLines_silent single .nil silent start
    rw [List.append_nil] at nothing
    rw [nothing, List.drop_nil, logicalLines_nil]
    rfl
  | false =>
    have one := logicalLines_audible (n := 0) single .nil silent start
      (by rw [List.append_nil]; exact length silent _)
    rw [List.append_nil] at one
    rw [one, List.drop_nil, logicalLines_nil, List.take_nil, List.append_nil]
    rfl

/-- A line at whose end no string takes the newline with it is a logical line of its own. -/
theorem logicalLines_closed {rest : List Char} (single : '\n' ∉ line) (start : Nat)
    (audible : isSilent (contentOf line) = false) (length : ∀ offset,
      lineLength .code offset (contentOf line ++ '\n' :: rest) = .ok (contentOf line).length) :
    logicalLines ⟨start, line ++ '\n' :: rest⟩ =
      (logicalLines ⟨start + line.length + 1, rest⟩).map
        ((LogicalLine.ofLine? ⟨start, line⟩).toList ++ ·) := by
  rw [logicalLines_audible (n := 0) single (.newline rest) audible start (length _), List.take_zero,
    List.append_nil, LogicalLine.ofLine?, audible]
  rfl

/-- A string that takes the newline with it is still open on a blank line, at whose end the logical line
ends. -/
theorem lineLength_onto_blank {next : List Char}
    (noBlock : ¬['<', '<'] <:+: line ++ '\n' :: (next ++ tail)) (single : '\n' ∉ line)
    (hanging : hangs none (contentOf line) = true) (single' : '\n' ∉ next) (ends : EndsLine tail)
    (blank : ∀ c ∈ next, isBlank c = true) (offset : Nat) :
    lineLength .code offset (contentOf line ++ '\n' :: (next ++ tail)) =
      .ok ((contentOf line).length + (next.length + 1)) := by
  have noBlock' : ¬['<', '<'] <:+: next :=
    fun opens => noBlock (opens.trans ⟨line ++ ['\n'], tail, by simp⟩)
  obtain ⟨q, goes⟩ :=
    lineLength_of_hangs (not_infix_contentOf noBlock) (not_mem_contentOf single) hanging offset
  have later (offset : Nat) : lineLength (.quoted q) offset (next ++ tail) = .ok next.length :=
    lineLength_of_not_hangs noBlock' single' ends
      (fun (h : hangs (some q) next = true) => by rw [hangs_of_blank blank] at h; cases h) offset
  rw [show lineLength .code offset _ = _ from goes, later]
  exact congrArg Except.ok
    (show next.length + ((contentOf line).length + 1) = _ from Nat.add_left_comm _ _ _)

/-- A line that runs on onto a blank line is a logical line of its own too: the blank line adds nothing to
it, and would be left out anyway. -/
theorem logicalLines_onto_blank {next : List Char} (single : '\n' ∉ line) (start : Nat)
    (audible : isSilent (contentOf line) = false) (single' : '\n' ∉ next) (ends : EndsLine tail)
    (blank : ∀ c ∈ next, isBlank c = true) (length : ∀ offset,
      lineLength .code offset (contentOf line ++ '\n' :: (next ++ tail)) =
        .ok ((contentOf line).length + (next.length + 1))) :
    logicalLines ⟨start, line ++ '\n' :: (next ++ tail)⟩ =
      (logicalLines ⟨start + line.length + 1, next ++ tail⟩).map
        ((LogicalLine.ofLine? ⟨start, line⟩).toList ++ ·) := by
  have same : logicalLines ⟨start + line.length + 1, next ++ tail⟩ =
      logicalLines ⟨start + line.length + 1 + next.length + 1, tail.drop 1⟩ :=
    logicalLines_silent single' ends (isSilent_of_blank fun c member => blank c
      ((List.dropWhile_suffix isIndent).mem member)) _
  have behind : ('\n' :: (next ++ tail)).drop (next.length + 1 + 1) = tail.drop 1 := by
    rw [List.drop_succ_cons, ← List.drop_drop, List.drop_left]
  have shown : trimEnd (contentOf line ++ ('\n' :: (next ++ tail)).take (next.length + 1)) =
      trimEnd (contentOf line) := by
    have none : trimEnd ('\n' :: next) = [] :=
      trimEnd_eq_nil_iff.mpr (List.forall_mem_cons.mpr ⟨by decide, blank⟩)
    rw [List.take_succ_cons, List.take_left, trimEnd_append, none]
    rfl
  have place : start + line.length + (next.length + 1 + 1) =
      start + line.length + 1 + next.length + 1 := by omega
  rw [logicalLines_audible single (.newline _) audible start (length _), same, behind, shown, place,
    LogicalLine.ofLine?, audible]
  rfl

theorem logicalLines_skipped {rest : List Char} (single : '\n' ∉ line) (start : Nat)
    (silent : isSilent (contentOf line) = true) :
    logicalLines ⟨start, line ++ '\n' :: rest⟩ =
      (logicalLines ⟨start + line.length + 1, rest⟩).map
        ((LogicalLine.ofLine? ⟨start, line⟩).toList ++ ·) := by
  rw [logicalLines_silent single (.newline rest) silent start, List.drop_one, List.tail_cons,
    LogicalLine.ofLine?, silent]
  cases logicalLines ⟨start + line.length + 1, rest⟩ <;> rfl

/-- A physical line that does not run on, or only onto a blank line, is a logical line of its own, if it
says anything. -/
theorem logicalLines_separate {rest : List Char} (noBlock : ¬['<', '<'] <:+: line ++ '\n' :: rest)
    (single : '\n' ∉ line) (start : Nat)
    (apart : runsOn ⟨start, line⟩ = true → ∃ next tail, rest = next ++ tail ∧ '\n' ∉ next ∧
      EndsLine tail ∧ ∀ c ∈ next, isBlank c = true) :
    logicalLines ⟨start, line ++ '\n' :: rest⟩ =
      (logicalLines ⟨start + line.length + 1, rest⟩).map
        ((LogicalLine.ofLine? ⟨start, line⟩).toList ++ ·) := by
  cases silent : isSilent (contentOf line) with
  | true => exact logicalLines_skipped single start silent
  | false =>
    cases hanging : hangs none (contentOf line) with
    | false =>
      refine logicalLines_closed single start silent ?_
      exact lineLength_code (not_infix_contentOf noBlock) (not_mem_contentOf single) (.newline rest)
        (by rw [hanging]; nofun)
    | true =>
      obtain ⟨next, tail, rfl, single', ends, blank⟩ := apart (by simp [runsOn, silent, hanging])
      exact logicalLines_onto_blank single start silent single' ends blank
        (lineLength_onto_blank noBlock single hanging single' ends blank)

/-- A physical line that runs on onto a line that is not blank takes that line into its own. -/
theorem logicalLines_running {next rest : List Char} {lines : List LogicalLine}
    (noBlock : ¬['<', '<'] <:+: line ++ '\n' :: (next ++ rest)) (single : '\n' ∉ line) {start : Nat}
    (runs : runsOn ⟨start, line⟩ = true) (single' : '\n' ∉ next)
    (visible : ¬∀ c ∈ next, isBlank c = true)
    (h : logicalLines ⟨start, line ++ '\n' :: (next ++ rest)⟩ = .ok lines) :
    ∃ first more, lines = first :: more ∧ (contentOf line).length < first.span.text.length := by
  simp only [runsOn, Bool.and_eq_true, Bool.not_eq_true'] at runs
  obtain ⟨audible, hanging⟩ := runs
  have inside := not_mem_contentOf single
  obtain ⟨q, goes⟩ := lineLength_of_hangs (not_infix_contentOf noBlock) inside hanging
    (start + (line.takeWhile isIndent).length)
  have nonempty : line ++ '\n' :: (next ++ rest) ≠ [] := by simp
  have whole := h
  rw [logicalLines_physical single (.newline _) start nonempty, audible] at whole
  obtain ⟨n, length, -⟩ := Computation.except_bind_ok_iff.mp whole
  obtain ⟨m, later, rfl⟩ := Computation.except_map_ok_iff.mp (goes.symm.trans length)
  have reaches := le_of_lineLength single' later
  have length' : lineLength .code (start + (line.takeWhile isIndent).length)
      (contentOf line ++ '\n' :: (next ++ rest)) = .ok ((contentOf line).length + (m + 1)) := by
    rw [length, Nat.add_left_comm]
  rw [logicalLines_audible single (.newline _) audible start length'] at h
  obtain ⟨more, -, rfl⟩ := Computation.except_map_ok_iff.mp h
  refine ⟨_, more, rfl, ?_⟩
  -- The next line belongs to the logical line, with the character that is no blank.
  have shown : trimEnd (('\n' :: (next ++ rest)).take (m + 1)) ≠ [] := by
    intro none
    refine visible fun c member => trimEnd_eq_nil_iff.mp none c ?_
    rw [List.take_succ_cons, List.take_append, List.take_of_length_le reaches]
    exact List.mem_cons_of_mem _ (List.mem_append_left _ member)
  have nonempty : (trimEnd (('\n' :: (next ++ rest)).take (m + 1))).isEmpty = false := by
    simpa using shown
  simp only [trimEnd_append, nonempty, Bool.false_eq_true, if_false, List.length_append]
  have := List.length_pos_iff.mpr shown
  omega

theorem length_trimEnd_le (text : List Char) : (trimEnd text).length ≤ text.length := by
  rw [trimEnd, trimEndOf, List.length_reverse]
  exact (List.dropWhile_suffix isBlank).length_le.trans (List.length_reverse ..).le

theorem filterMap_cons_toList {α β : Type} (f : α → Option β) (a : α) (others : List α) :
    (a :: others).filterMap f = (f a).toList ++ others.filterMap f := by
  rw [List.filterMap_cons]
  cases f a <;> rfl

/-- A logical line of a source without text blocks is a physical line, exactly if no line runs on over a
newline, except onto a blank line. -/
theorem logicalLines_eq_physicalLines_iff {source : List Char} (noBlock : ¬['<', '<'] <:+: source) :
    logicalLines ⟨0, source⟩ = .ok ((physicalLines source).filterMap LogicalLine.ofLine?) ↔
      (physicalLines source).IsChain fun line next => runsOn line = true → isBlankLine next = true := by
  suffices general : ∀ start, logicalLines ⟨start, source⟩ =
      .ok ((physicalLinesFrom start source).filterMap LogicalLine.ofLine?) ↔
        (physicalLinesFrom start source).IsChain
          fun line next => runsOn line = true → isBlankLine next = true from general 0
  induction size : source.length using Nat.strongRecOn generalizing source with
  | ind n ih =>
    intro start
    obtain ⟨line, tail, rfl, single, ends⟩ := exists_line source
    cases tail with
    | nil =>
      rw [List.append_nil] at noBlock ⊢
      have length (offset : Nat) : lineLength .code offset (contentOf line) =
          .ok (contentOf line).length := by
        have noBlock' : ¬['<', '<'] <:+: contentOf line :=
          fun inside => noBlock (inside.trans (List.dropWhile_suffix isIndent).isInfix)
        have whole := lineLength_code noBlock' (not_mem_contentOf single) .nil (fun _ => rfl) offset
        rwa [List.append_nil] at whole
      rw [logicalLines_last single start fun _ => length, physicalLinesFrom_single single, filterMap_cons_toList,
        List.filterMap_nil, List.append_nil]
      exact ⟨fun _ => .singleton _, fun _ => rfl⟩
    | cons c rest =>
      obtain rfl := ends c rfl
      have shorter : rest.length < n := by
        simp only [List.length_append, List.length_cons] at size
        omega
      have noBlock' : ¬['<', '<'] <:+: rest :=
        fun opens => noBlock (opens.trans ⟨line ++ ['\n'], [], by simp⟩)
      have later := ih _ shorter noBlock' rfl (start + line.length + 1)
      obtain ⟨next, behind, rfl, single', ends'⟩ := exists_line rest
      obtain ⟨others, below⟩ := physicalLinesFrom_cons single' ends' (start + line.length + 1)
      rw [physicalLinesFrom_newline single, filterMap_cons_toList, below, List.isChain_cons_cons, ← below,
        ← later]
      by_cases apart : runsOn ⟨start, line⟩ = true →
        isBlankLine ⟨start + line.length + 1, next⟩ = true
      · have separate := logicalLines_separate noBlock single start fun runs =>
          ⟨next, behind, rfl, single', ends', isBlankLine_iff.mp (apart runs)⟩
        rw [separate, Computation.except_map_ok_iff]
        refine ⟨fun ⟨lines, read, same⟩ => ⟨apart, ?_⟩, fun ⟨_, read⟩ => ⟨_, read, rfl⟩⟩
        rw [read, List.append_cancel_left same]
      · -- The line takes the next one in, so that it is longer than the physical line.
        refine ⟨fun h => ?_, fun h => absurd h.1 apart⟩
        obtain ⟨runs, visible⟩ := Classical.not_imp.mp apart
        obtain ⟨first, more, same, longer⟩ :=
          logicalLines_running noBlock single runs single' (mt isBlankLine_iff.mpr visible) h
        have audible : isSilent (contentOf line) = false := by
          simp only [runsOn, Bool.and_eq_true, Bool.not_eq_true'] at runs
          exact runs.1
        rw [LogicalLine.ofLine?, audible] at same
        obtain ⟨rfl, -⟩ := List.cons.inj same
        exact absurd longer (Nat.not_lt.mpr (length_trimEnd_le _))

/-- An apostrophe alone does not make a line run on. -/
theorem logicalLines_of_apostrophe :
    ¬['<', '<'] <:+: ['\'', '\n', ' ', 'x'] ∧ logicalLines ⟨0, ['\'', '\n', ' ', 'x']⟩ =
      .ok [⟨0, ⟨0, ['\'']⟩⟩, ⟨1, ⟨3, ['x']⟩⟩] := by
  have noBlock : ¬['<', '<'] <:+: ['\'', '\n', ' ', 'x'] := by decide
  refine ⟨noBlock, (logicalLines_eq_physicalLines_iff noBlock).mpr ?_⟩
  have lines : physicalLines ['\'', '\n', ' ', 'x'] = [⟨0, ['\'']⟩, ⟨2, [' ', 'x']⟩] := by decide
  rw [lines]
  decide +kernel

theorem readTemplate_of_backslash : readTemplate "it's \\\n@effect run".toList = .ok ⟨.empty, []⟩ := by
  have preamble : readPreamble "it's \\\n@effect run".toList = .ok (.empty, 0) := by decide +kernel
  have lines : logicalLines ⟨0, "it's \\\n@effect run".toList⟩ =
      .ok [⟨0, ⟨0, "it's \\\n@effect run".toList⟩⟩] := by decide +kernel
  have read : readLayout 0 none (Layout.ofLines [⟨0, ⟨0, "it's \\\n@effect run".toList⟩⟩]) = .ok [] := by
    with_unfolding_all rfl
  simp only [readTemplate, preamble, bind, Except.bind, List.drop_zero, lines, List.map_cons, List.map_nil,
    List.min?_singleton, Option.getD_some, read]
  rfl

/-- Behind an apostrophe a backslash at the end of a line takes the next line in, so that its statement is
none. -/
theorem logicalLines_of_backslash :
    let source := "it's \\\n@effect run".toList
    ¬['<', '<'] <:+: source ∧
      logicalLines ⟨0, source⟩ ≠ .ok ((physicalLines source).filterMap LogicalLine.ofLine?) ∧
      readTemplate source = .ok ⟨.empty, []⟩ := by
  exact ⟨by decide, by decide +kernel, readTemplate_of_backslash⟩

end PromptScript.Source
