import PromptScript.Proofs.Source.Alike.Layout
import PromptScript.Proofs.Source.PhysicalLine

/-!
Logical lines of a source whose line breaks are written another way. They end at the same newlines, and
every line is indented further by the margin.
-/
namespace PromptScript.Source

open Text

variable {R : Nat → Nat → Prop} {b : Break} {s s' : Span} {mode mode' : Mode}
  {text front rest tail : List Char} {n m : Nat} {c : Char}

/-! ### Parts of spans -/

theorem Moved.of_append {start start' : Nat} (front : List Char)
    (h : Moved R b ⟨start, front ++ rest⟩ ⟨start', b.write (front ++ rest)⟩) :
    Moved R b ⟨start + front.length, rest⟩ ⟨start' + (b.write front).length, b.write rest⟩ := by
  have behind := h.drop (.of_append b front rest)
  rw [Span.drop, Span.drop, Break.write_append, List.drop_left, List.drop_left] at behind
  exact behind

theorem Moved.behind {start start' : Nat} (written : b.write front = front)
    (h : Moved R b ⟨start, front ++ rest⟩ ⟨start', b.write (front ++ rest)⟩) :
    Moved R b ⟨start + front.length, rest⟩ ⟨start' + front.length, b.write rest⟩ := by
  have behind := h.of_append front
  rwa [written] at behind

theorem Moved.of_prefix (h : Moved R b s s') (inside : front <+: s.text) :
    Moved R b ⟨s.start, front⟩ ⟨s'.start, b.write front⟩ := by
  obtain ⟨rest, same⟩ := inside
  have measures := Break.Measures.of_append b front rest
  rw [same] at measures
  have here := h.take measures
  rw [Span.take, Span.take, h.text, ← same, Break.write_append, List.take_left, List.take_left] at here
  exact here

/-! ### The end of a line -/

/-- What is written in front of the newline at which a line ends, if it ends at one. -/
def beforeEnd (b : Break) (tail : List Char) : List Char :=
  if tail.isEmpty then [] else b.before

/-- The same part of a text up to the end of a line, with what is written in front of the newline there. -/
def EndsAlike (b : Break) (text : List Char) (n n' : Nat) : Prop :=
  ∃ front tail, text = front ++ tail ∧ EndsLine tail ∧ n = front.length ∧
    n' = (b.write front).length + (beforeEnd b tail).length

theorem EndsAlike.append (piece : List Char) (h : EndsAlike b text n m) {n' m' : Nat}
    (length : n' = piece.length) (written : m' = (b.write piece).length) :
    EndsAlike b (piece ++ text) (n + n') (m + m') := by
  obtain ⟨front, tail, rfl, ends, rfl, rfl⟩ := h
  refine ⟨piece ++ front, tail, (List.append_assoc _ _ _).symm, ends, ?_, ?_⟩
  · rw [List.length_append, length, Nat.add_comm]
  · rw [Break.write_append, List.length_append, written]
    omega

/-- In front of a newline a carriage return is one more character of the line. -/
theorem lineLength_before (noText : ∀ opening, mode ≠ .text opening) (offset : Nat) (rest : List Char) :
    lineLength mode offset (b.before ++ '\n' :: rest) = .ok b.before.length := by
  have ended (mode : Mode) (noText : ∀ opening, mode ≠ .text opening) (offset : Nat) :
      lineLength mode offset ('\n' :: rest) = .ok 0 := lineLength_ended noText (.newline rest) offset
  unfold Break.before
  split
  · cases mode with
    | text opening => exact absurd rfl (noText opening)
    | code =>
      rw [List.singleton_append, lineLength_plain (by decide) (by decide) (by simp [Apart]),
        ended .code nofun]
      rfl
    | quoted quote =>
      rw [List.singleton_append, lineLength_quoted (by decide) (by decide), ended]
      · rfl
      · split <;> nofun
  · exact ended mode noText offset

/-- A text without angles keeps a text block open. -/
theorem lineLength_open (opening : Nat) (noAngle : '>' ∉ front) (offset : Nat) :
    lineLength (.text opening) offset (front ++ rest) =
      (lineLength (.text opening) (offset + front.length) rest).map (· + front.length) := by
  induction front generalizing offset with
  | nil =>
    rw [List.nil_append, List.length_nil, Nat.add_zero]
    cases lineLength (.text opening) offset rest <;> rfl
  | cons c more ih =>
    rw [List.mem_cons, not_or] at noAngle
    rw [List.cons_append, lineLength_text opening (fun _ _ h => noAngle.1 h.1.symm), ih noAngle.2,
      except_map_add, List.length_cons]
    congr 2
    omega

/-- Only a newline in a text block that is open is written another way. -/
theorem LineStep.written (h : LineStep n mode front rest mode') (untaken : b.Untaken (front ++ rest)) :
    b.write front = front ∨ front = ['\n'] ∧ ∃ opening, mode = .text opening ∧ mode' = .text opening := by
  have single {c : Char} (noNewline : c ≠ '\n') : b.write [c] = [c] :=
    b.write_of_single (by simpa using noNewline.symm)
  cases h with
  | opening opens => exact .inl (single (ne_of_isQuote opens).1)
  | block | backslash | blockEnd => exact .inl (b.write_of_single (by decide))
  | plain noNewline => exact .inl (single noNewline)
  | escape => exact .inl (Break.write_taken (untaken.of_infix (List.prefix_append _ rest).isInfix))
  | quoted noNewline => exact .inl (single noNewline)
  | @text opening c =>
    by_cases newline : c = '\n'
    · exact .inr ⟨by rw [newline], opening, rfl, rfl⟩
    · exact .inl (single newline)

theorem LineStep.write (h : LineStep n mode front rest mode') :
    LineStep n mode front (b.write rest) mode' := by
  refine h.congr (fun d member angle => ?_) fun _ _ _ none => by rw [none, Break.write_nil]
  have visible : isBlank d = false := by
    rcases angle with rfl | rfl <;> decide
  exact (Break.head?_write_iff visible).mp member

theorem lineLength_alike (h : Moved R b s s') (modes : ModeAlike R mode mode') :
    Alike R (EndsAlike b s.text) (lineLength mode s.start s.text) (lineLength mode' s'.start s'.text) := by
  obtain ⟨offset, text⟩ := s
  obtain ⟨offset', text'⟩ := s'
  obtain rfl : text' = b.write text := h.text
  simp only at *
  induction mode, offset, text using lineLength_induction generalizing mode' offset' with
  | opened opening offset =>
    cases modes with
    | text place => exact .error ⟨rfl, place⟩
  | ended mode offset text noText ends =>
    have noText' (opening : Nat) : mode' ≠ .text opening := by
      cases modes with
      | text => exact absurd rfl (noText _)
      | code | quoted => nofun
    rw [lineLength_ended noText ends]
    cases text with
    | nil =>
      rw [Break.write_nil, lineLength_ended noText' .nil]
      exact .ok ⟨[], [], rfl, .nil, rfl, rfl⟩
    | cons c rest =>
      obtain rfl := ends c rfl
      rw [Break.write_newline, Break.text, List.append_assoc, List.cons_append,
        lineLength_before noText']
      exact .ok ⟨[], _, rfl, .newline rest, rfl, by simp [beforeEnd]⟩
  | step mode offset piece rest further next ih =>
    rw [next.length]
    rcases next.written h.untaken with written | ⟨rfl, opening, rfl, rfl⟩
    · obtain ⟨further', modes', next'⟩ := next.alike h.start modes
      have later := ih modes' _ (h.behind written)
      rw [Break.write_append, written, next'.write.length]
      exact later.map fun _ _ ends => ends.append piece rfl (congrArg List.length written.symm)
    · cases modes with
      | text place =>
        have noAngle : '>' ∉ b.text := by
          intro member
          rcases Break.mem_text member with same | same | same <;> cases same
        have written : b.write ['\n'] = b.text := List.append_nil _
        have later := ih (.text place) _ (written ▸ h.of_append ['\n'])
        rw [Break.write_append, written, lineLength_open _ noAngle]
        exact later.map fun _ _ ends => ends.append ['\n'] rfl (congrArg List.length written.symm)

/-! ### Blanks behind a line -/

/-- A text block that is open ends behind two angles, which are no blanks. -/
theorem exists_visible_of_lineLength {opening offset : Nat}
    (h : lineLength (.text opening) offset text = .ok n) :
    ∃ c ∈ (text.take n).tail, isBlank c = false := by
  induction text generalizing offset n with
  | nil => cases h
  | cons c rest ih =>
    by_cases closes : c = '>' ∧ rest.head? = some '>'
    · obtain ⟨rfl, next⟩ := closes
      obtain ⟨more, rfl⟩ := List.head?_eq_some_iff.mp next
      rw [lineLength_blockEnd] at h
      obtain ⟨m, -, rfl⟩ := Computation.except_map_ok_iff.mp h
      exact ⟨'>', List.mem_cons_self, by decide⟩
    · rw [lineLength_text opening fun d member same => closes ⟨same.1, same.2 ▸ member⟩] at h
      obtain ⟨m, later, rfl⟩ := Computation.except_map_ok_iff.mp h
      obtain ⟨d, inside, visible⟩ := ih later
      exact ⟨d, List.mem_of_mem_tail inside, visible⟩

/-- Where a text block is open behind a text, the line goes on behind it up to the angles that close it. -/
theorem LineStep.exists_visible {offset : Nat} (h : LineStep offset mode front [] mode')
    (read : lineLength mode offset (front ++ rest) = .ok n) :
    (∀ opening, mode' ≠ .text opening) ∨ ∃ c ∈ rest.take (n - front.length), isBlank c = false := by
  cases h with
  | block =>
    rw [List.cons_append, List.singleton_append, lineLength_block] at read
    obtain ⟨m, later, rfl⟩ := Computation.except_map_ok_iff.mp read
    obtain ⟨c, inside, visible⟩ := exists_visible_of_lineLength later
    exact .inr ⟨c, List.mem_of_mem_tail inside, visible⟩
  | text =>
    obtain ⟨c, inside, visible⟩ := exists_visible_of_lineLength read
    refine .inr ⟨c, ?_, visible⟩
    rwa [List.tail_take_eq_take_tail, List.singleton_append, List.tail_cons] at inside
  | quoted | backslash =>
    left
    split <;> nofun
  | opening | plain | escape | blockEnd => exact .inl nofun

/-- The blanks at the end of a line do nothing for it. -/
theorem lineLength_front {offset : Nat} (h : lineLength mode offset (front ++ rest) = .ok n)
    (reaches : front.length ≤ n) (blank : ∀ c ∈ rest.take (n - front.length), isBlank c = true) :
    lineLength mode offset front = .ok front.length := by
  have closed {n : Nat} {front : List Char} (blank : ∀ c ∈ rest.take (n - front.length), isBlank c = true) :
      ¬∃ c ∈ rest.take (n - front.length), isBlank c = false := by
    rintro ⟨c, inside, visible⟩
    rw [blank c inside] at visible
    cases visible
  induction mode, offset, front using lineLength_induction generalizing n with
  | opened opening offset =>
    obtain ⟨c, inside, visible⟩ := exists_visible_of_lineLength h
    exact absurd ⟨c, List.mem_of_mem_tail inside, visible⟩ (closed blank)
  | ended mode offset front noText ends =>
    cases front with
    | nil => exact lineLength_ended noText .nil offset
    | cons c more =>
      obtain rfl := ends c rfl
      rw [List.cons_append, lineLength_ended noText (.newline _)] at h
      cases h
      cases reaches
  | step mode offset piece more mode' next ih =>
    rw [next.length, List.length_append]
    cases more with
    | nil =>
      rw [List.append_nil] at h reaches blank
      have noText := (next.exists_visible h).resolve_right (closed blank)
      rw [lineLength_ended noText .nil, List.length_nil, Nat.add_comm]
      rfl
    | cons d more =>
      have next' : LineStep offset mode piece (d :: more ++ rest) mode' :=
        next.congr (fun _ member _ => member) nofun
      rw [List.append_assoc, next'.length] at h
      obtain ⟨m, later, rfl⟩ := Computation.except_map_ok_iff.mp h
      rw [List.length_append, Nat.add_comm piece.length] at reaches blank
      rw [Nat.add_sub_add_right] at blank
      rw [ih later (Nat.le_of_add_le_add_right reaches) blank, Nat.add_comm piece.length]
      rfl

/-- What a line says ends where the line does. -/
theorem lineLength_trimEnd {offset : Nat} (h : lineLength mode offset text = .ok n) :
    lineLength mode offset (trimEnd (text.take n)) = .ok (trimEnd (text.take n)).length := by
  obtain ⟨blanks, same, blank⟩ := exists_blanks (text.take n)
  have length := congrArg List.length same
  rw [List.length_take_of_le (le_and_endsLine_of_lineLength h).1, List.length_append] at length
  have whole : trimEnd (text.take n) ++ (blanks ++ text.drop n) = text := by
    rw [← List.append_assoc, ← same, List.take_append_drop]
  refine lineLength_front (whole.symm ▸ h) (by omega) ?_
  rwa [show n - (trimEnd (text.take n)).length = blanks.length by omega, List.take_left]

/-! ### Logical lines -/

/-- A line that is moved, and is indented further by the margin. -/
structure LineMoved (R : Nat → Nat → Prop) (b : Break) (line line' : LogicalLine) : Prop where
  indent : line'.indent = line.indent + b.margin
  span : Moved R b line.span line'.span
  ends : ∃ offset, lineLength .code offset line.span.text = .ok line.span.text.length

theorem indentWidth_append (front rest : List Char) :
    indentWidth (front ++ rest) = indentWidth front + indentWidth rest := by
  induction front with
  | nil => rw [List.nil_append, indentWidth, Nat.zero_add]
  | cons c more ih => rw [List.cons_append, indentWidth, indentWidth, ih, Nat.add_assoc]

theorem indentWidth_replicate (n : Nat) : indentWidth (List.replicate n ' ') = n := by
  induction n with
  | zero => rfl
  | succ n ih =>
    rw [List.replicate_succ, indentWidth, ih]
    exact Nat.add_comm 1 n

theorem blank_of_mem_beforeEnd (member : c ∈ beforeEnd b tail) : isBlank c = true := by
  unfold beforeEnd at member
  split at member
  · cases member
  · exact Break.isBlank_of_mem_text (List.mem_append_left _ member)

theorem isSilent_append_beforeEnd (text : List Char) :
    isSilent (text ++ beforeEnd b tail) = isSilent text := by
  have none : trimEnd (beforeEnd b tail) = [] :=
    trimEnd_eq_nil_iff.mpr fun c member => blank_of_mem_beforeEnd member
  have comment : ['/', '/'].isPrefixOf (text ++ beforeEnd b tail) = ['/', '/'].isPrefixOf text := by
    have apart : '/' ∉ beforeEnd b tail := by
      intro member
      exact absurd (blank_of_mem_beforeEnd member) (by decide)
    generalize beforeEnd b tail = back at apart
    match text, back with
    | c :: d :: more, back => rfl
    | text, [] => rw [List.append_nil]
    | [], d :: more | [c], d :: more =>
      rw [List.mem_cons, not_or] at apart
      simp [List.isPrefixOf, apart.1]
  rw [isSilent, isSilent, trimEnd_append, none, comment]
  rfl

theorem takeWhile_write_line (text : List Char) :
    ∃ tail, EndsLine tail ∧ text = text.takeWhile (· ≠ '\n') ++ tail ∧
      (b.write text).takeWhile (· ≠ '\n') = text.takeWhile (· ≠ '\n') ++ beforeEnd b tail := by
  obtain ⟨line, tail, rfl, single, ends⟩ := exists_line text
  refine ⟨tail, ends, by rw [takeWhile_line single ends], ?_⟩
  rw [takeWhile_line single ends, Break.write_append, Break.write_of_single single]
  cases tail with
  | nil => simpa [beforeEnd] using takeWhile_line single .nil
  | cons c rest =>
    obtain rfl := ends c rfl
    have single' : '\n' ∉ line ++ b.before := by
      rw [List.mem_append, not_or]
      refine ⟨single, ?_⟩
      unfold Break.before
      split <;> decide
    rw [Break.write_newline, Break.text, List.append_assoc, ← List.append_assoc line, List.cons_append,
      takeWhile_line single' (.newline _)]
    rfl

theorem logicalLines_spaces (start n : Nat) : logicalLines ⟨start, List.replicate n ' '⟩ = .ok [] := by
  cases n with
  | zero => exact logicalLines_nil start
  | succ n =>
    have indents : ∀ c ∈ List.replicate (n + 1) ' ', isIndent c = true := by
      intro c member
      rw [List.eq_of_mem_replicate member]
      rfl
    have blank := logicalLines_indented start indents bars_nil (by simp)
    rw [List.append_nil] at blank
    rw [blank]
    exact logicalLines_nil _

/-- What a line says is moved with the text it starts. -/
theorem Moved.line {n' : Nat} (h : Moved R b s s') (ends : EndsAlike b s.text n n') :
    Moved R b ⟨s.start, trimEnd (s.text.take n)⟩ ⟨s'.start, trimEnd (s'.text.take n')⟩ := by
  obtain ⟨front, tail, same, ends, rfl, rfl⟩ := ends
  have taken : trimEnd (s'.text.take ((b.write front).length + (beforeEnd b tail).length)) =
      b.write (trimEnd front) := by
    have blank : ∀ c ∈ (b.write tail).take (beforeEnd b tail).length, isBlank c = true := by
      cases tail with
      | nil => nofun
      | cons c rest =>
        obtain rfl := ends c rfl
        have short : b.before.length ≤ b.text.length := by simp [Break.text]
        intro c member
        rw [show beforeEnd b ('\n' :: rest) = b.before from rfl, Break.write_newline,
          List.take_append_of_le_length short] at member
        exact Break.isBlank_of_mem_text (List.mem_of_mem_take member)
    rw [h.text, same, Break.write_append, List.take_length_add_append, trimEnd_append,
      trimEnd_eq_nil_iff.mpr blank, Break.trimEnd_write]
    rfl
  rw [taken, same, List.take_left]
  refine h.of_prefix ?_
  rw [same]
  exact (isPrefix_trimEndOf isBlank front).trans (List.prefix_append front tail)

/-- Behind the end of a line there are the same lines. -/
theorem logicalLines_behind {start start' n' size : Nat}
    (later : ∀ {t : Span} {p : Nat}, t.text.length < size →
      Moved R b t ⟨p + b.margin, b.write t.text⟩ → Alike R (List.Forall₂ (LineMoved R b))
        (logicalLines t) (logicalLines ⟨p, List.replicate b.margin ' ' ++ b.write t.text⟩))
    (h : Moved R b ⟨start, text⟩ ⟨start', b.write text⟩) (fits : text.length ≤ size)
    (ends : EndsAlike b text n n') : Alike R (List.Forall₂ (LineMoved R b))
      (logicalLines ⟨start + (n + 1), text.drop (n + 1)⟩)
      (logicalLines ⟨start' + (n' + 1), (b.write text).drop (n' + 1)⟩) := by
  obtain ⟨front, tail, rfl, ends, rfl, rfl⟩ := ends
  have behind := h.of_append front
  rw [Break.write_append, Nat.add_assoc (List.length _), ← List.drop_drop, ← List.drop_drop,
    List.drop_left, List.drop_left]
  cases tail with
  | nil =>
    rw [Break.write_nil, List.drop_nil, List.drop_nil, logicalLines_nil, logicalLines_nil]
    exact .ok .nil
  | cons c rest =>
    obtain rfl := ends c rfl
    have shorter : rest.length < size := by
      simp only [List.length_append, List.length_cons] at fits
      omega
    have before : beforeEnd b ('\n' :: rest) = b.before := rfl
    have next : (b.write ('\n' :: rest)).drop (b.before.length + 1) =
        List.replicate b.margin ' ' ++ b.write rest := by
      rw [Break.write_newline, Break.text, List.append_assoc, ← List.drop_drop, List.drop_left]
      rfl
    rw [before, next]
    refine later shorter ?_
    have inner := Moved.of_append ['\n'] behind
    have breaks : (b.write ['\n']).length = b.before.length + 1 + b.margin := by
      simp [Break.write_newline, Break.text, Nat.add_assoc, Nat.add_comm]
    have place : start' + ((b.write front).length + (b.before.length + 1)) + b.margin =
        start' + (b.write front).length + (b.before.length + 1 + b.margin) := by omega
    rw [breaks] at inner
    rw [place]
    exact inner

/-- The lines of a source are those of the source with other breaks, indented by the margin. -/
theorem logicalLines_alike {start' : Nat}
    (h : Moved R b s ⟨start' + b.margin, b.write s.text⟩) :
    Alike R (List.Forall₂ (LineMoved R b)) (logicalLines s)
      (logicalLines ⟨start', List.replicate b.margin ' ' ++ b.write s.text⟩) := by
  induction size : s.text.length using Nat.strongRecOn generalizing s start' with
  | ind size ih =>
    obtain ⟨start, text⟩ := s
    subst size
    simp only at *
    by_cases empty : text = []
    · subst empty
      rw [logicalLines_nil, Break.write_nil, List.append_nil, logicalLines_spaces]
      exact .ok .nil
    obtain ⟨blanks, body, rfl, indents, bars⟩ : ∃ blanks body, text = blanks ++ body ∧
        (∀ c ∈ blanks, isIndent c = true) ∧ Bars isIndent body :=
      ⟨_, _, List.takeWhile_append_dropWhile.symm, fun _ => List.mem_takeWhile_imp,
        bars_dropWhile isIndent text⟩
    have single : '\n' ∉ blanks := fun member => absurd (indents '\n' member) (by decide)
    have written : b.write blanks = blanks := Break.write_of_single single
    have inner : Moved R b ⟨start + blanks.length, body⟩
        ⟨start' + (List.replicate b.margin ' ' ++ blanks).length, b.write body⟩ := by
      have inner := h.behind written
      rw [Nat.add_assoc] at inner
      simpa using inner
    have indents' : ∀ c ∈ List.replicate b.margin ' ' ++ blanks, isIndent c = true := by
      intro c member
      rcases List.mem_append.mp member with space | indent
      · rw [List.eq_of_mem_replicate space]
        rfl
      · exact indents c indent
    have nonempty : List.replicate b.margin ' ' ++ blanks ++ b.write body ≠ [] := by
      have visible : b.write (blanks ++ body) ≠ [] := mt b.write_eq_nil_iff.mp empty
      rw [Break.write_append, written] at visible
      rw [List.append_assoc]
      exact fun none => visible (List.append_eq_nil_iff.mp none).2
    have later {n n' : Nat} (ends : EndsAlike b body n n') :=
      logicalLines_behind (fun shorter moved => ih _ shorter moved rfl) inner
        (by simp : body.length ≤ (blanks ++ body).length) ends
    obtain ⟨tail, ends, whole, physical⟩ := takeWhile_write_line (b := b) body
    have silent : isSilent ((b.write body).takeWhile (· ≠ '\n')) =
        isSilent (body.takeWhile (· ≠ '\n')) := by
      rw [physical, isSilent_append_beforeEnd]
    have width : indentWidth (List.replicate b.margin ' ' ++ blanks) = indentWidth blanks + b.margin := by
      rw [indentWidth_append, indentWidth_replicate, Nat.add_comm]
    rw [logicalLines_indented start indents bars empty, Break.write_append, written, ← List.append_assoc,
      logicalLines_indented start' indents' (Break.bars_write rfl bars) nonempty, silent, width]
    split
    · refine later ⟨_, tail, whole, ends, rfl, ?_⟩
      rw [physical, List.length_append, Break.write_of_single]
      exact fun member => by simpa using List.mem_takeWhile_imp member
    · refine ((lineLength_alike inner .code).and_ok fun _ _ read _ => read).bind
        fun n n' ⟨ends, read⟩ => (later ends).bind fun _ _ others => ?_
      exact .ok (.cons ⟨rfl, inner.line ends, _, lineLength_trimEnd read⟩ others)

end PromptScript.Source
