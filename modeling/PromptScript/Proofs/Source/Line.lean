import Mathlib
import PromptScript.Proofs.Computation
import PromptScript.Proofs.Source.Outline
import PromptScript.Proofs.Text.Span
import PromptScript.Source.Template

/-!
Lines with indentation, and the logical lines that are read from them.
-/
namespace PromptScript.Source

open Text

variable {mode mode' : Mode} {offset n : Nat} {text piece rest rest' tail : List Char} {c : Char}

/-- The same mode, but for the place of a text block that is open. -/
def Mode.moved (opening : Nat) : Mode → Mode
  | .code => .code
  | .quoted quote => .quoted quote
  | .text _ => .text opening

/-- What may stand behind a line: nothing, or a newline and more lines. -/
def EndsLine (tail : List Char) : Prop :=
  ∀ c ∈ tail.head?, c = '\n'

theorem EndsLine.nil : EndsLine [] :=
  nofun

theorem EndsLine.newline (rest : List Char) : EndsLine ('\n' :: rest) := by
  rintro _ ⟨⟩
  rfl

theorem lineLength_text (opening : Nat) (other : ∀ d ∈ rest.head?, ¬(c = '>' ∧ d = '>')) :
    lineLength (.text opening) offset (c :: rest) =
      (lineLength (.text opening) (offset + 1) rest).map (· + 1) := by
  rw [lineLength]
  rintro more rfl rfl
  exact other '>' rfl ⟨rfl, rfl⟩

theorem not_doubled {mark : Char} (other : ∀ more, c = mark → text = mark :: more → False) :
    ∀ d ∈ text.head?, ¬(c = mark ∧ d = mark) := by
  rintro d member ⟨rfl, rfl⟩
  obtain ⟨more, rfl⟩ := List.head?_eq_some_iff.mp member
  exact other more rfl rfl

theorem lineLength_block (offset : Nat) (rest : List Char) :
    lineLength .code offset ('<' :: '<' :: rest) =
      (lineLength (.text offset) (offset + 2) rest).map (· + 2) := by
  simp [lineLength]

theorem lineLength_blockEnd (opening offset : Nat) (rest : List Char) :
    lineLength (.text opening) offset ('>' :: '>' :: rest) =
      (lineLength .code (offset + 2) rest).map (· + 2) := by
  simp [lineLength]

theorem lineLength_escape (quote : Char) (offset : Nat) (c : Char) (rest : List Char) :
    lineLength (.quoted quote) offset ('\\' :: c :: rest) =
      (lineLength (.quoted quote) (offset + 2) rest).map (· + 2) := by
  simp [lineLength]

theorem lineLength_ended (noText : ∀ opening, mode ≠ .text opening) (ends : EndsLine text) (offset : Nat) :
    lineLength mode offset text = .ok 0 := by
  cases mode with
  | text opening => exact absurd rfl (noText opening)
  | code | quoted =>
    cases text with
    | nil => rfl
    | cons c more =>
      obtain rfl := ends c rfl
      simp [lineLength]

/-! ### One step along a line -/

/-- The same mode, where a text block that is open may have been opened elsewhere. -/
inductive ModeAlike (R : Nat → Nat → Prop) : Mode → Mode → Prop
  | code : ModeAlike R .code .code
  | quoted (quote : Char) : ModeAlike R (.quoted quote) (.quoted quote)
  | text {opening opening' : Nat} : R opening opening' → ModeAlike R (.text opening) (.text opening')

theorem ModeAlike.moved (opening : Nat) : ModeAlike (fun _ _ => True) mode (mode.moved opening) := by
  cases mode with
  | code => exact .code
  | quoted quote => exact .quoted quote
  | text => exact .text trivial

theorem ModeAlike.exists_moved {R : Nat → Nat → Prop} (h : ModeAlike R mode mode') :
    ∃ opening, mode' = mode.moved opening := by
  cases h with
  | code | quoted => exact ⟨0, rfl⟩
  | @text _ opening _ => exact ⟨opening, rfl⟩

/-- The characters that a line takes up at once where it starts in a mode, the text behind them, and the
mode in which it goes on there. -/
inductive LineStep (offset : Nat) : Mode → List Char → List Char → Mode → Prop
  | opening {c : Char} {rest : List Char} : isQuote c = true → LineStep offset .code [c] rest (.quoted c)
  | block {rest : List Char} : LineStep offset .code ['<', '<'] rest (.text offset)
  | plain {c : Char} {rest : List Char} : c ≠ '\n' → isQuote c = false → (∀ d ∈ rest.head?, Apart c d) →
    LineStep offset .code [c] rest .code
  | escape {quote c : Char} {rest : List Char} : LineStep offset (.quoted quote) ['\\', c] rest (.quoted quote)
  | quoted {quote c : Char} {rest : List Char} : c ≠ '\n' → c ≠ '\\' →
    LineStep offset (.quoted quote) [c] rest (if c = quote then .code else .quoted quote)
  /-- A backslash at the end of a text takes nothing with it. -/
  | backslash {quote : Char} :
    LineStep offset (.quoted quote) ['\\'] [] (if '\\' = quote then .code else .quoted quote)
  | blockEnd {opening : Nat} {rest : List Char} : LineStep offset (.text opening) ['>', '>'] rest .code
  | text {opening : Nat} {c : Char} {rest : List Char} : (∀ d ∈ rest.head?, ¬(c = '>' ∧ d = '>')) →
    LineStep offset (.text opening) [c] rest (.text opening)

namespace LineStep

theorem length (h : LineStep offset mode piece rest mode') : lineLength mode offset (piece ++ rest) =
    (lineLength mode' (offset + piece.length) rest).map (· + piece.length) := by
  cases h with
  | opening opens => exact lineLength_opening opens offset rest
  | block => exact lineLength_block offset rest
  | plain noNewline plain apart => exact lineLength_plain noNewline plain apart offset
  | escape => exact lineLength_escape _ offset _ rest
  | quoted noNewline noBackslash => exact lineLength_quoted noNewline noBackslash _ offset rest
  | backslash =>
    simp only [List.append_nil, lineLength, Char.reduceEq, if_false, List.length_singleton]
  | blockEnd => exact lineLength_blockEnd _ offset rest
  | text other => exact lineLength_text _ other

/-- The same is taken up in front of another text, as far as the same angle stands first in it. -/
theorem congr (h : LineStep offset mode piece rest mode')
    (angles : ∀ d ∈ rest'.head?, d = '<' ∨ d = '>' → d ∈ rest.head?)
    (last : ∀ quote, mode = .quoted quote → piece = ['\\'] → rest = [] → rest' = []) :
    LineStep offset mode piece rest' mode' := by
  cases h with
  | opening opens => exact .opening opens
  | block => exact .block
  | plain noNewline plain apart =>
    exact .plain noNewline plain fun d member doubled =>
      apart d (angles d member (.inl doubled.2)) doubled
  | escape => exact .escape
  | quoted noNewline noBackslash => exact .quoted noNewline noBackslash
  | backslash =>
    obtain rfl := last _ rfl rfl rfl
    exact .backslash
  | blockEnd => exact .blockEnd
  | text other => exact .text fun d member doubled => other d (angles d member (.inr doubled.2)) doubled

/-- The same is taken up elsewhere. -/
theorem alike {R : Nat → Nat → Prop} {offset' : Nat} {elsewhere : Mode} (h : LineStep offset mode piece rest mode')
    (place : R offset offset') (modes : ModeAlike R mode elsewhere) :
    ∃ further, ModeAlike R mode' further ∧ LineStep offset' elsewhere piece rest further := by
  have same (quote c : Char) : ModeAlike R (if c = quote then .code else .quoted quote)
      (if c = quote then .code else .quoted quote) := by
    split
    · exact .code
    · exact .quoted quote
  cases h with
  | opening opens =>
    cases modes
    exact ⟨_, .quoted _, .opening opens⟩
  | block =>
    cases modes
    exact ⟨_, .text place, .block⟩
  | plain noNewline plain apart =>
    cases modes
    exact ⟨_, .code, .plain noNewline plain apart⟩
  | escape =>
    cases modes
    exact ⟨_, .quoted _, .escape⟩
  | quoted noNewline noBackslash =>
    cases modes
    exact ⟨_, same _ _, .quoted noNewline noBackslash⟩
  | backslash =>
    cases modes
    exact ⟨_, same _ _, .backslash⟩
  | blockEnd =>
    cases modes
    exact ⟨_, .code, .blockEnd⟩
  | text other =>
    cases modes with
    | text opened => exact ⟨_, .text opened, .text other⟩

end LineStep

/-- What holds at the end of a line, and in front of every step along it, holds wherever a line starts. -/
@[elab_as_elim]
theorem lineLength_induction {motive : Mode → Nat → List Char → Prop}
    (opened : ∀ opening offset, motive (.text opening) offset [])
    (ended : ∀ mode offset text, (∀ opening, mode ≠ .text opening) → EndsLine text → motive mode offset text)
    (step : ∀ mode offset piece rest mode', LineStep offset mode piece rest mode' →
      motive mode' (offset + piece.length) rest → motive mode offset (piece ++ rest))
    (mode : Mode) (offset : Nat) (text : List Char) : motive mode offset text := by
  induction mode, offset, text using lineLength.induct with
  | case1 offset opening => exact opened opening offset
  | case2 mode offset noText => exact ended mode offset [] (fun opening => noText opening) .nil
  | case3 offset rest => exact ended _ _ _ nofun (.newline rest)
  | case7 offset rest quote => exact ended _ _ _ nofun (.newline rest)
  | case4 offset c rest _ opens ih => exact step _ _ [c] rest _ (.opening opens) ih
  | case5 offset rest _ _ ih => exact step _ _ ['<', '<'] rest _ .block ih
  | case6 offset c noNewline noQuote rest other ih =>
    have plain : isQuote c = false := by simpa [isQuote] using noQuote
    exact step _ _ [c] rest _ (.plain noNewline plain (not_doubled other)) ih
  | case8 offset quote c rest _ ih => exact step _ _ ['\\', c] rest _ .escape ih
  | case9 offset quote c rest other =>
    rename_i noNewline ih
    by_cases backslash : c = '\\'
    · subst backslash
      obtain rfl : rest = [] := by
        cases rest with
        | nil => rfl
        | cons d more => exact absurd rfl (other d more rfl)
      exact step _ _ ['\\'] [] _ .backslash ih
    · exact step _ _ [c] rest _ (.quoted noNewline backslash) ih
  | case10 offset opening rest ih => exact step _ _ ['>', '>'] rest _ .blockEnd ih
  | case11 offset c opening rest other ih => exact step _ _ [c] rest _ (.text (not_doubled other)) ih

/-! ### Where a line ends -/

/-- A line that starts with a text in some mode ends where the text does, wherever the text stands. -/
def ReachesEnd (mode : Mode) (text : List Char) : Prop :=
  ∀ opening offset tail, EndsLine tail →
    lineLength (mode.moved opening) offset (text ++ tail) = .ok text.length

/-- A line that starts with a text in some mode ends behind `n` characters, wherever the text stands. -/
def EndsAt (mode : Mode) (text : List Char) (n : Nat) : Prop :=
  ∀ opening offset tail, EndsLine tail →
    lineLength (mode.moved opening) offset (text ++ tail) = .ok n

/-- A text ends with a backslash in a string, which takes the next character with it. -/
def TakesNext (mode : Mode) (text : List Char) : Prop :=
  ∃ front quote, text = front ++ ['\\'] ∧ ∀ opening offset tail, ∃ offset',
    lineLength (mode.moved opening) offset (text ++ tail) =
      (lineLength (.quoted quote) offset' ('\\' :: tail)).map (· + front.length)

/-- A line that starts with a text in some mode ends behind `n` characters, or goes on with what follows
the text. -/
def EndsOrTakes (mode : Mode) (text : List Char) (n : Nat) : Prop :=
  EndsAt mode text n ∨ TakesNext mode text

/-- A logical line ends at a newline, or where the text ends. -/
theorem le_and_endsLine_of_lineLength (h : lineLength mode offset text = .ok n) :
    n ≤ text.length ∧ EndsLine (text.drop n) := by
  induction mode, offset, text using lineLength_induction generalizing n with
  | opened => cases h
  | ended mode offset text noText ends =>
    rw [lineLength_ended noText ends] at h
    cases h
    exact ⟨Nat.zero_le _, ends⟩
  | step mode offset piece rest mode' next ih =>
    rw [next.length] at h
    obtain ⟨m, later, rfl⟩ := Computation.except_map_ok_iff.mp h
    obtain ⟨le, ends⟩ := ih later
    rw [Nat.add_comm, List.length_append, ← List.drop_drop, List.drop_left]
    exact ⟨Nat.add_le_add_left le _, ends⟩

/-- A text without a newline reaches no further than the logical line it stands in. -/
theorem le_of_lineLength (single : '\n' ∉ text) (h : lineLength mode offset (text ++ tail) = .ok n) :
    text.length ≤ n := by
  by_contra short
  have ends := (le_and_endsLine_of_lineLength h).2
  obtain ⟨c, more, found⟩ := List.exists_cons_of_ne_nil
    (mt List.drop_eq_nil_iff.mp short : text.drop n ≠ [])
  rw [List.drop_append_of_le_length (by omega), found] at ends
  obtain rfl := ends c rfl
  exact single (List.mem_of_mem_drop (found ▸ List.mem_cons_self))

/-- A line ends at the same place whatever lines stand behind the text, unless a backslash takes the newline
in front of them with it. -/
theorem endsOrTakes_of_ok (h : lineLength mode offset text = .ok n) : EndsOrTakes mode text n := by
  induction mode, offset, text using lineLength_induction generalizing n with
  | opened => cases h
  | ended mode offset text noText ends =>
    rw [lineLength_ended noText ends] at h
    cases h
    refine .inl fun opening offset tail behind => lineLength_ended (fun _ => ?_) ?_ offset
    · cases mode with
      | text opening => exact absurd rfl (noText opening)
      | code | quoted => nofun
    · cases text with
      | nil => exact behind
      | cons c more => exact ends
  | step mode offset piece rest mode' next ih =>
    rw [next.length] at h
    obtain ⟨m, later, rfl⟩ := Computation.except_map_ok_iff.mp h
    by_cases last : piece = ['\\'] ∧ rest = [] ∧ ∃ quote, mode = .quoted quote
    · obtain ⟨rfl, rfl, quote, rfl⟩ := last
      refine .inr ⟨[], quote, rfl, fun opening offset' tail => ⟨offset', ?_⟩⟩
      change lineLength (.quoted quote) offset' ('\\' :: tail) = _
      cases lineLength (.quoted quote) offset' ('\\' :: tail) <;> rfl
    -- Wherever the text stands, the same is taken up, whatever lines stand behind it.
    have elsewhere (opening offset' : Nat) (tail : List Char) (ends : rest = [] → EndsLine tail) :
        ∃ opening', lineLength (mode.moved opening) offset' (piece ++ (rest ++ tail)) =
          (lineLength (mode'.moved opening') (offset' + piece.length) (rest ++ tail)).map
            (· + piece.length) := by
      have next' : LineStep offset mode piece (rest ++ tail) mode' := by
        refine next.congr (fun d member angle => ?_) fun quote same taken none =>
          absurd ⟨taken, none, quote, same⟩ last
        cases rest with
        | nil =>
          obtain rfl := ends rfl d member
          rcases angle with same | same <;> cases same
        | cons => exact member
      obtain ⟨_, modes, moved⟩ := next'.alike (R := fun _ _ => True) trivial (.moved opening)
      obtain ⟨opening', rfl⟩ := modes.exists_moved
      exact ⟨opening', moved.length⟩
    rcases ih later with ends | ⟨front, quote, rfl, takes⟩
    · refine .inl fun opening offset tail behind => ?_
      obtain ⟨opening', here⟩ := elsewhere opening offset tail fun _ => behind
      rw [List.append_assoc, here, ends opening' _ tail behind]
      rfl
    · refine .inr ⟨piece ++ front, quote, (List.append_assoc ..).symm, fun opening offset tail => ?_⟩
      obtain ⟨opening', here⟩ := elsewhere opening offset tail fun none => by simp at none
      obtain ⟨offset', later⟩ := takes opening' (offset + piece.length) tail
      refine ⟨offset', ?_⟩
      rw [List.append_assoc, here, later, except_map_add, List.length_append, Nat.add_comm piece.length]

theorem endsAt_of_ok (h : lineLength mode offset text = .ok n) (last : EndsPlainly text) :
    EndsAt mode text n := by
  rcases endsOrTakes_of_ok h with ends | ⟨front, quote, rfl, -⟩
  · exact ends
  · exact absurd List.getLast?_concat last

/-- A line that takes up a text ends with it wherever the text stands, unless a backslash would take the
newline with it. -/
theorem reachesEnd_of_ok (h : lineLength mode offset text = .ok n) (single : '\n' ∉ text) :
    n = text.length ∧ (EndsPlainly text → ReachesEnd mode text) := by
  have whole : lineLength mode offset (text ++ []) = .ok n := by rwa [List.append_nil]
  obtain rfl := (le_and_endsLine_of_lineLength h).1.antisymm (le_of_lineLength single whole)
  exact ⟨rfl, endsAt_of_ok h⟩

/-! ### Texts that a line goes on over -/

/-- A character that neither ends a line nor opens anything on it. -/
def isInert (c : Char) : Bool :=
  c ≠ '\n' && !isQuote c && c ≠ '<'

/-- Behind such a text a line goes on as it would without it. -/
def GoesOn (text : List Char) : Prop :=
  ∀ offset rest, lineLength .code offset (text ++ rest) =
    (lineLength .code (offset + text.length) rest).map (· + text.length)

namespace GoesOn

variable {text' : List Char}

theorem append (h : GoesOn text) (h' : GoesOn text') : GoesOn (text ++ text') := by
  intro offset rest
  rw [List.append_assoc, h, h', except_map_add, List.length_append, Nat.add_assoc,
    Nat.add_comm text'.length]

theorem nil : GoesOn [] := by
  intro offset rest
  rw [List.nil_append, List.length_nil, Nat.add_zero]
  cases lineLength .code offset rest <;> rfl

theorem char (inert : isInert c = true) : GoesOn [c] := by
  simp only [isInert, Bool.and_eq_true, decide_eq_true_eq, Bool.not_eq_true'] at inert
  obtain ⟨⟨noNewline, plain⟩, noAngle⟩ := inert
  exact fun offset _ => lineLength_plain noNewline plain (fun _ _ h => noAngle h.1) offset

theorem of_forall (inert : ∀ c ∈ text, isInert c = true) : GoesOn text := by
  induction text with
  | nil => exact nil
  | cons c more ih =>
    obtain ⟨here, others⟩ := List.forall_mem_cons.mp inert
    exact (char here).append (ih others)

theorem length (h : GoesOn text) (offset : Nat) : lineLength .code offset text = .ok text.length := by
  have whole := h offset []
  have done : lineLength .code (offset + text.length) [] = .ok 0 := rfl
  rw [List.append_nil, done] at whole
  rw [whole, Except.map, Nat.zero_add]

end GoesOn

/-! ### Logical lines -/

/-- A text that stands on a line of its own as a whole: it is neither blank nor a comment, and nothing in
it is left open at its end. -/
structure IsLine (content : List Char) : Prop where
  single : '\n' ∉ content
  start : Bars isBlank content
  audible : isSilent content = false
  ends : ReachesEnd .code content

/-- A line as it is written: how far it is indented, and what it says. -/
structure Row where
  indent : Nat
  content : List Char

/-- Rows as a text, each behind spaces and tabs that take up its indentation. A newline may stand behind
the last one. -/
inductive Written : List Row → List Char → Prop
  | nil : Written [] []
  | last {row : Row} {blanks : List Char} :
    (∀ c ∈ blanks, isIndent c = true) → indentWidth blanks = row.indent →
    Written [row] (blanks ++ row.content)
  | cons {row : Row} {blanks text : List Char} {rows : List Row} :
    (∀ c ∈ blanks, isIndent c = true) → indentWidth blanks = row.indent → Written rows text →
    Written (row :: rows) (blanks ++ (row.content ++ '\n' :: text))

/-- What a row is read as. -/
structure Stands (row : Row) (line : LogicalLine) : Prop where
  indent : line.indent = row.indent
  text : line.span.text = trimEnd row.content

variable {content blanks : List Char} {row : Row} {rows : List Row}

/-- A text that is not blank and starts like no comment. -/
theorem isSilent_of_head (visible : Bars isBlank content) (nonempty : content ≠ [])
    (noSlash : content.head? ≠ some '/') : isSilent content = false := by
  obtain ⟨c, more, rfl⟩ := List.exists_cons_of_ne_nil nonempty
  have other : '/' ≠ c := fun same => noSlash (congrArg some same.symm)
  have kept : trimEnd (c :: more) ≠ [] := by
    rw [ne_eq, trimEnd_eq_nil_iff]
    intro blank
    exact absurd (blank c List.mem_cons_self) (by simp [visible c rfl])
  simp [isSilent, kept, List.isPrefixOf, other]

theorem not_mem_of_inert (inert : ∀ c ∈ text, isInert c = true) : '\n' ∉ text :=
  fun member => absurd (inert '\n' member) (by decide)

theorem GoesOn.isLine (goesOn : GoesOn content) (single : '\n' ∉ content)
    (visible : Bars isBlank content) (nonempty : content ≠ []) (noSlash : content.head? ≠ some '/')
    (last : EndsPlainly content) : IsLine content :=
  ⟨single, visible, isSilent_of_head visible nonempty noSlash,
    (reachesEnd_of_ok (goesOn.length 0) single).2 last⟩

theorem isBlank_of_isIndent (h : isIndent c = true) : isBlank c = true := by
  simp only [isIndent, Bool.or_eq_true, decide_eq_true_eq] at h
  rcases h with rfl | rfl <;> decide

theorem IsLine.ne_nil (h : IsLine content) : content ≠ [] := by
  rintro rfl
  cases h.audible

theorem bars_newline (ends : EndsLine tail) : Bars (fun c => decide (c ≠ '\n')) tail := by
  intro c member
  simp [ends c member]

theorem logicalLines_nil (start : Nat) : logicalLines ⟨start, []⟩ = .ok [] := by
  rw [logicalLines]
  rfl

/-- The first physical line decides whether the text starts with a logical line. -/
theorem logicalLines_indented {body : List Char} (start : Nat)
    (indents : ∀ c ∈ blanks, isIndent c = true) (bars : Bars isIndent body)
    (some : blanks ++ body ≠ []) : logicalLines ⟨start, blanks ++ body⟩ =
      if isSilent (body.takeWhile (· ≠ '\n')) then
        logicalLines ⟨start + blanks.length + ((body.takeWhile (· ≠ '\n')).length + 1),
          body.drop ((body.takeWhile (· ≠ '\n')).length + 1)⟩
      else do
        let length ← lineLength .code (start + blanks.length) body
        let more ← logicalLines ⟨start + blanks.length + (length + 1), body.drop (length + 1)⟩
        return ⟨indentWidth blanks, ⟨start + blanks.length, trimEnd (body.take length)⟩⟩ :: more := by
  have nonempty : (blanks ++ body).isEmpty = false := by simpa using some
  have indentation : (blanks ++ body).takeWhile isIndent = blanks :=
    takeWhile_append_of_bars indents bars
  rw [logicalLines]
  simp only [nonempty, Bool.false_eq_true, if_false, indentation, Span.drop, List.drop_left,
    Span.take, Span.trimEnd]

theorem logicalLines_newline (start : Nat) (rest : List Char) :
    logicalLines ⟨start, '\n' :: rest⟩ = logicalLines ⟨start + 1, rest⟩ := by
  rw [logicalLines]
  rfl

theorem takeWhile_line {line : List Char} (single : '\n' ∉ line) (ends : EndsLine tail) :
    (line ++ tail).takeWhile (fun c => decide (c ≠ '\n')) = line :=
  takeWhile_append_of_bars (fun _ member => decide_eq_true fun same => single (same ▸ member))
    (bars_newline ends)

theorem endsLine_takeWhile (text : List Char) :
    EndsLine (text.drop (text.takeWhile fun c => decide (c ≠ '\n')).length) := by
  have behind := bars_dropWhile (fun c => decide (c ≠ '\n')) text
  nth_rewrite 2 [← List.takeWhile_append_dropWhile (p := fun c => decide (c ≠ '\n')) (l := text)]
  rw [List.drop_left]
  intro c member
  simpa using behind c member

theorem EndsPlainly.of_drop (n : Nat) (last : EndsPlainly text) : EndsPlainly (text.drop n) := by
  rw [EndsPlainly, List.getLast?_drop]
  split
  · nofun
  · exact last

/-- The first line of a text ends somewhere in it, and gives a logical line or none. Neither changes with
what stands on the lines behind the text, unless a backslash would take the newline between them. -/
theorem exists_first_line {lines : List LogicalLine} {start : Nat} (last : EndsPlainly text)
    (nonempty : text ≠ []) (h : logicalLines ⟨start, text⟩ = .ok lines) : ∃ (k : Nat) (first more : _),
      k ≤ text.length ∧ EndsLine (text.drop k) ∧
      logicalLines ⟨start + (k + 1), text.drop (k + 1)⟩ = .ok more ∧ lines = first ++ more ∧
      ∀ rest, logicalLines ⟨start, text ++ '\n' :: rest⟩ =
        (logicalLines ⟨start + (k + 1), (text ++ '\n' :: rest).drop (k + 1)⟩).map (first ++ ·) := by
  obtain ⟨blanks, body, rfl, indents, bars⟩ : ∃ blanks body, text = blanks ++ body ∧
      (∀ c ∈ blanks, isIndent c = true) ∧ Bars isIndent body :=
    ⟨_, _, List.takeWhile_append_dropWhile.symm, fun _ => List.mem_takeWhile_imp,
      bars_dropWhile isIndent text⟩
  have behind (k : Nat) (more : List Char) :
      (⟨start + (blanks.length + k + 1), (blanks ++ more).drop (blanks.length + k + 1)⟩ : Span) =
        ⟨start + blanks.length + (k + 1), more.drop (k + 1)⟩ := by
    rw [Nat.add_assoc blanks.length, ← List.drop_drop, List.drop_left, Nat.add_assoc start]
  have within {k : Nat} (le : k ≤ body.length) (ends : EndsLine (body.drop k)) :
      blanks.length + k ≤ (blanks ++ body).length ∧
        EndsLine ((blanks ++ body).drop (blanks.length + k)) := by
    rw [List.length_append, ← List.drop_drop, List.drop_left]
    exact ⟨Nat.add_le_add_left le _, ends⟩
  have whole (rest : List Char) := logicalLines_indented start indents
    (show Bars isIndent (body ++ '\n' :: rest) from by
      cases body with
      | nil => exact bars_cons (by decide)
      | cons c more => exact bars_append (List.cons_ne_nil c more) bars) (by simp)
  rw [logicalLines_indented start indents bars nonempty] at h
  split at h
  · next silent =>
    -- The physical line is passed over.
    obtain ⟨le, ends⟩ := within (List.takeWhile_prefix _).length_le (endsLine_takeWhile body)
    refine ⟨_, [], lines, le, ends, by rw [behind]; exact h, rfl, fun rest => ?_⟩
    rw [List.append_assoc, behind, whole, takeWhile_append_cons (by decide), if_pos silent]
    generalize logicalLines _ = read
    cases read <;> rfl
  · next audible =>
    obtain ⟨length, ends, h⟩ := Computation.except_bind_ok_iff.mp h
    obtain ⟨more, later, same⟩ := Computation.except_bind_ok_iff.mp h
    cases same
    obtain ⟨fits, newline⟩ := le_and_endsLine_of_lineLength ends
    obtain ⟨le, ends'⟩ := within fits newline
    have last' : EndsPlainly body := by
      have := last.of_drop blanks.length
      rwa [List.drop_left] at this
    refine ⟨_, [_], more, le, ends', by rw [behind]; exact later, rfl, fun rest => ?_⟩
    have here : lineLength .code (start + blanks.length) (body ++ '\n' :: rest) = .ok length :=
      endsAt_of_ok ends last' 0 _ _ (.newline rest)
    rw [List.append_assoc, behind, whole, takeWhile_append_cons (by decide), if_neg audible, here]
    simp only [bind, Except.bind, List.take_append_of_le_length fits]
    generalize logicalLines _ = read
    cases read <;> rfl

/-- The lines of a text are followed by those of what stands behind it, unless a backslash would take the
newline between them. -/
theorem logicalLines_append {lines : List LogicalLine} {start : Nat} (last : EndsPlainly text)
    (h : logicalLines ⟨start, text⟩ = .ok lines) (rest : List Char) :
    logicalLines ⟨start, text ++ '\n' :: rest⟩ =
      (logicalLines ⟨start + (text.length + 1), rest⟩).map (lines ++ ·) := by
  -- By induction on the text: behind its first line, there is less of it.
  induction length : text.length using Nat.strongRecOn generalizing text start lines with
  | ind size ih =>
    subst length
    by_cases empty : text = []
    · subst empty
      rw [logicalLines_nil] at h
      cases h
      rw [List.nil_append, logicalLines_newline, List.length_nil]
      generalize logicalLines _ = others
      cases others <;> rfl
    obtain ⟨k, first, more, le, ends, later, rfl, whole⟩ := exists_first_line last empty h
    rw [whole]
    cases found : text.drop k with
    | nil =>
      obtain rfl : k = text.length := le.antisymm (List.drop_eq_nil_iff.mp found)
      rw [List.drop_eq_nil_of_le (Nat.le_succ _), logicalLines_nil] at later
      cases later
      rw [← List.drop_drop, List.drop_left, List.append_nil]
      rfl
    | cons c behind =>
      obtain rfl := ends c (by rw [found]; rfl)
      have next : text.drop (k + 1) = behind := by rw [← List.drop_drop, found]; rfl
      have taken : text.length = k + (behind.length + 1) := by
        have := congrArg List.length found
        rw [List.length_drop, List.length_cons] at this
        omega
      have last' : EndsPlainly behind := next ▸ last.of_drop (k + 1)
      rw [next] at later
      have read := ih behind.length (by omega) last' later rfl
      have place : start + (k + 1) + (behind.length + 1) = start + (text.length + 1) := by omega
      rw [List.drop_append_of_le_length (by omega), next, read, place]
      generalize logicalLines _ = others
      cases others with
      | error fault => rfl
      | ok others => simp only [Except.map, List.append_assoc]

/-- A text is read as some rows wherever it stands. -/
def ReadsAs (text : List Char) (rows : List Row) : Prop :=
  ∀ start, ∃ lines, logicalLines ⟨start, text⟩ = .ok lines ∧ List.Forall₂ Stands rows lines

theorem ReadsAs.nil : ReadsAs [] [] :=
  fun start => ⟨[], logicalLines_nil start, .nil⟩

/-- The first logical line is the first row, and the others are read behind its newline. -/
theorem logicalLines_row (isLine : IsLine content) (indents : ∀ c ∈ blanks, isIndent c = true)
    (ends : EndsLine tail) (start : Nat) : logicalLines ⟨start, blanks ++ (content ++ tail)⟩ =
      (logicalLines ⟨start + blanks.length + (content.length + 1), tail.drop 1⟩).map
        (⟨indentWidth blanks, ⟨start + blanks.length, trimEnd content⟩⟩ :: ·) := by
  -- The indentation ends where the content starts, and the content where its newline is.
  have bars : Bars isIndent (content ++ tail) := by
    refine bars_append isLine.ne_nil fun c member => Bool.eq_false_iff.mpr fun indent => ?_
    have visible := isLine.start c member
    rw [isBlank_of_isIndent indent] at visible
    cases visible
  have behind : (content ++ tail).drop (content.length + 1) = tail.drop 1 := by
    rw [← List.drop_drop, List.drop_left]
  have length (offset : Nat) : lineLength .code offset (content ++ tail) = .ok content.length :=
    isLine.ends 0 offset tail ends
  rw [logicalLines_indented start indents bars (by simp [isLine.ne_nil])]
  simp only [takeWhile_line isLine.single ends, isLine.audible, Bool.false_eq_true, if_false, length,
    bind, Except.bind, behind, List.take_left]
  rfl

theorem ReadsAs.cons (isLine : IsLine row.content) (indents : ∀ c ∈ blanks, isIndent c = true)
    (width : indentWidth blanks = row.indent) (ends : EndsLine tail)
    (others : ReadsAs (tail.drop 1) rows) :
    ReadsAs (blanks ++ (row.content ++ tail)) (row :: rows) := by
  intro start
  obtain ⟨lines, read, stand⟩ := others (start + blanks.length + (row.content.length + 1))
  refine ⟨⟨indentWidth blanks, ⟨start + blanks.length, trimEnd row.content⟩⟩ :: lines, ?_,
    .cons ⟨width, rfl⟩ stand⟩
  rw [logicalLines_row isLine indents ends, read]
  rfl

theorem Written.readsAs (written : Written rows text) (lines : ∀ row ∈ rows, IsLine row.content) :
    ReadsAs text rows := by
  induction written with
  | nil => exact .nil
  | @last row blanks indents width =>
    have isLine := lines row List.mem_cons_self
    have read : ReadsAs (blanks ++ (row.content ++ [])) [row] :=
      .cons isLine indents width nofun .nil
    rwa [List.append_nil] at read
  | @cons row blanks text rows indents width _ ih =>
    have isLine := lines row List.mem_cons_self
    have others := ih fun other member => lines other (List.mem_cons_of_mem row member)
    exact .cons isLine indents width (.newline text) others

/-! ### No metadata -/

/-- A line that neither opens a block of metadata nor starts like an entry. -/
structure IsBody (line : List Char) : Prop where
  fence : isFence (trimEnd line) = false
  entry : markedEntry? (trimEndOf (· = '\r') line) = none
  marked : looksMarked (trimEndOf (· = '\r') line) = false

variable {line : List Char}

theorem mem_head?_of_trimEndOf {drops : Char → Bool} (member : c ∈ (trimEndOf drops line).head?) :
    c ∈ line.head? := by
  obtain ⟨behind, same⟩ := isPrefix_trimEndOf drops line
  obtain ⟨more, trimmed⟩ := List.head?_eq_some_iff.mp member
  rw [← same, trimmed]
  rfl

theorem IsBody.of_head (other : ∀ c ∈ line.head?, c ≠ '@' ∧ c ≠ '-') : IsBody line := by
  -- Every kind of metadata shows in the first character.
  have noAt : ∀ more, trimEndOf (fun c => decide (c = '\r')) line ≠ '@' :: more := by
    intro more same
    have member : '@' ∈ (trimEndOf (fun c => decide (c = '\r')) line).head? := by rw [same]; rfl
    exact (other '@' (mem_head?_of_trimEndOf member)).1 rfl
  refine ⟨decide_eq_false fun fence => ?_, ?_, ?_⟩
  · have member : '-' ∈ (trimEnd line).head? := by rw [fence]; rfl
    exact (other '-' (mem_head?_of_trimEndOf member)).2 rfl
  · unfold markedEntry?
    split
    · next same => exact absurd same (noAt _)
    · rfl
  · unfold looksMarked
    split
    · next same => exact absurd same (noAt _)
    · rfl

/-- Behind spaces and tabs nothing is taken for metadata that is not at the start of a line either. -/
theorem IsBody.indented (body : IsBody line) (indents : ∀ c ∈ blanks, isIndent c = true) :
    IsBody (blanks ++ line) := by
  cases blanks with
  | nil => exact body
  | cons c more =>
    refine .of_head ?_
    rintro _ ⟨⟩
    have indent := indents c List.mem_cons_self
    constructor <;> rintro rfl <;> exact absurd indent (by decide)

/-- The physical lines of a text that starts at an offset. -/
def physicalLinesFrom (start : Nat) (text : List Char) : List Span :=
  lineSpans start (pieces (· = '\n') text)

theorem ne_newline_of_mem (single : '\n' ∉ line) : ∀ c ∈ line, decide (c = '\n') = false :=
  fun _ member => decide_eq_false fun same => single (same ▸ member)

theorem physicalLinesFrom_single (single : '\n' ∉ line) (start : Nat) :
    physicalLinesFrom start line = [⟨start, line⟩] := by
  rw [physicalLinesFrom, pieces_of_forall (ne_newline_of_mem single)]
  rfl

theorem physicalLinesFrom_newline (single : '\n' ∉ line) (start : Nat) (rest : List Char) :
    physicalLinesFrom start (line ++ '\n' :: rest) =
      ⟨start, line⟩ :: physicalLinesFrom (start + line.length + 1) rest := by
  rw [physicalLinesFrom, pieces_append_cons (ne_newline_of_mem single) (by decide)]
  rfl

theorem physicalLinesFrom_cons (single : '\n' ∉ line) (ends : EndsLine tail) (start : Nat) :
    ∃ others, physicalLinesFrom start (line ++ tail) = ⟨start, line⟩ :: others := by
  cases tail with
  | nil =>
    rw [List.append_nil]
    exact ⟨[], physicalLinesFrom_single single start⟩
  | cons c rest =>
    obtain rfl := ends c rfl
    exact ⟨_, physicalLinesFrom_newline single start rest⟩

/-- The first line of a source is the first of its lines. -/
theorem physicalLines_append (single : '\n' ∉ line) (ends : EndsLine tail) :
    ∃ more, physicalLines (line ++ tail) = ⟨0, line⟩ :: more :=
  physicalLinesFrom_cons single ends 0

theorem readPreamble_append (single : '\n' ∉ line) (ends : EndsLine tail)
    (visible : isBlankLine ⟨0, line⟩ = false) (body : IsBody line) :
    readPreamble (line ++ tail) = .ok (.empty, 0) := by
  obtain ⟨more, lines⟩ := physicalLines_append single ends
  rw [readPreamble, lines, List.dropWhile_cons_of_neg (by simp [visible])]
  simp only [body.fence, Bool.false_eq_true, if_false, readMarked, body.entry, body.marked]

end PromptScript.Source
