import PromptScript.Proofs.Source.BlockText
import PromptScript.Proofs.Source.Body
import PromptScript.Proofs.Source.Directive
import PromptScript.Proofs.Source.Printing
import PromptScript.Render.Output

/-!
Prose that is written as a text block. Whatever its texts are, they come out as they went in, if the start
of an interpolation in them takes another dollar in front.
-/
namespace PromptScript

/-- A path that can be written: an identifier, then segments. -/
def VarPath.isValid (path : VarPath) : Bool :=
  isIdentifier path.root.toList && path.rest.all (isSegment ·.toList)

namespace Source

open Text

/-- A part of prose: a text as it is, or the value of a variable. -/
inductive ProseSegment
  | text (content : List Char)
  | interpolation (path : VarPath)
deriving DecidableEq, Repr

/-- A text as it is written in a block: the start of an interpolation takes another dollar in front. -/
def escape : List Char → List Char
  | [] => []
  | '$' :: '\x7b' :: rest => '$' :: '$' :: '\x7b' :: escape rest
  | c :: rest => c :: escape rest

namespace ProseSegment

/-- A segment as it is written in a block. -/
def source : ProseSegment → List Char
  | .text content => escape content
  | .interpolation path => '$' :: '\x7b' :: (path.text.toList ++ ['\x7d'])

def node : ProseSegment → Node
  | .text content => .text (.ofList content)
  | .interpolation path => .interpolation path

/-- What a segment shows in a context. A variable without a value shows nothing. -/
def shown (ctx : Context) : ProseSegment → String
  | .text content => .ofList content
  | .interpolation path => ((ctx.resolve? path).map Value.display).getD ""

def isValid : ProseSegment → Bool
  | .text content => !content.isEmpty
  | .interpolation path => path.isValid

/-- Whether a segment may stand right in front of another. Two texts would be one, and a dollar in front of
an interpolation would escape it. -/
def mayPrecede : ProseSegment → ProseSegment → Bool
  | .text _, .text _ => false
  | .text content, .interpolation _ => content.getLast? ≠ some '$'
  | .interpolation _, _ => true

end ProseSegment

/-- Segments that can be told from each other where they are written. -/
structure IsProse (segments : List ProseSegment) : Prop where
  valid : ∀ segment ∈ segments, segment.isValid = true
  chain : segments.IsChain (ProseSegment.mayPrecede · ·)

def writeSegments (segments : List ProseSegment) : List Char :=
  segments.flatMap ProseSegment.source

/-- Segments with a newline behind them. A text at the end takes it in. -/
def endLine : List ProseSegment → List ProseSegment
  | [] => [.text ['\n']]
  | [.text content] => [.text (content ++ ['\n'])]
  | segment :: rest => segment :: endLine rest

/-- Segments as a block that stands as a statement has them: it ends with a newline. -/
def blockSegments (segments : List ProseSegment) : List ProseSegment :=
  if (writeSegments segments).getLast? = some '\n' then segments else endLine segments

/-- A text that keeps all its characters between the marks of a block that is not indented. -/
structure Stays (text : List Char) : Prop where
  noEnd : ¬['>', '>'] <:+: text
  noReturn : ¬['\r', '\n'] <:+: text
  last : text.getLast? ≠ some '>'
  first : text.head? ≠ some '\n'
  /-- The line behind the last newline, if there is one, is no indentation of the closing mark. -/
  lastLine : ∀ line ∈ (text.splitOn '\n').tail.getLast?, line.all isIndent = true → line = []

variable {text rest tail more : List Char} {located behind : List LocatedChar} {path : VarPath}
  {segments : List ProseSegment} {segment : ProseSegment}

/-! ### Paths -/

theorem ne_of_isNameChar {c d : Char} (name : isNameChar c = true) (ascii : d.toNat < 128)
    (other : (d.isAlphanum || d = '_') = false) : c ≠ d := by
  rintro rfl
  rw [isNameChar_of_lt ascii, other] at name
  cases name

/-- A path that can be written is read from its text. -/
theorem ofText?_text (valid : path.isValid = true) : VarPath.ofText? path.text.toList = some path := by
  obtain ⟨root, others⟩ := path
  rw [VarPath.isValid, Bool.and_eq_true] at valid
  obtain ⟨identifier, segments⟩ := valid
  have names : ∀ part ∈ root.toList :: others.map String.toList, ∀ c ∈ part, isNameChar c = true := by
    refine List.forall_mem_cons.mpr ⟨?_, List.forall_mem_map.mpr fun part member => ?_⟩
    · exact fun c member => isNameChar_of_isIdentifier identifier member
    · have segment := List.all_eq_true.mp segments part member
      rw [VarPath.isSegment, Bool.and_eq_true, List.all_eq_true] at segment
      exact segment.2
  have text : (VarPath.text ⟨root, others⟩).toList =
      ['.'].intercalate (root.toList :: others.map String.toList) := by
    rw [VarPath.text, VarPath.segments, String.toList_intercalate, List.map_cons]
    rfl
  have parts : pieces (· = '.') (VarPath.text ⟨root, others⟩).toList =
      root.toList :: others.map String.toList := by
    rw [text]
    exact pieces_intercalate (List.cons_ne_nil _ _) (by decide) fun part member c inside =>
      decide_eq_false (ne_of_isNameChar (names part member c inside) (by decide) rfl)
  have again : (others.map String.toList).all VarPath.isSegment = true := by
    rw [List.all_map]
    exact segments
  rw [VarPath.ofText?, parts]
  simp [identifier, again]

/-- The characters of a path belong to names, but for the points. -/
theorem isNameChar_or_point (valid : path.isValid = true) :
    ∀ c ∈ path.text.toList, (isNameChar c || decide (c = '.')) = true := by
  obtain ⟨first, more, same, start, others⟩ := exists_of_ofText? (ofText?_text valid)
  rw [same]
  refine List.forall_mem_cons.mpr ⟨?_, others⟩
  rw [isNameChar_of_isNameStart start]
  rfl

/-! ### Texts between interpolations -/

theorem escape_cons {c : Char} (h : ∀ more, c = '$' → text = '\x7b' :: more → False) :
    escape (c :: text) = c :: escape text := by
  rw [escape]
  exact h

theorem head?_escape (text : List Char) : (escape text).head? = text.head? := by
  cases text using escape.fun_cases with
  | case1 | case2 => rfl
  | case3 c rest other => rw [escape_cons other]; rfl

theorem escape_concat {c : Char} (other : c ≠ '\x7b') (text : List Char) :
    escape (text ++ [c]) = escape text ++ [c] := by
  induction text using escape.induct with
  | case1 => exact escape_cons nofun
  | case2 rest ih => rw [List.cons_append, List.cons_append, escape, ih]; rfl
  | case3 d rest start ih =>
    rw [escape_cons start, List.cons_append, escape_cons, ih]
    · rfl
    · intro more dollar same
      cases rest with
      | nil => exact other (List.cons.inj same).1
      | cons e others => exact start others dollar (by rw [(List.cons.inj same).1])

theorem head?_escape_append (start : text.head? ≠ some '\x7b') (ends : text = [] → tail = []) :
    (escape text ++ tail).head? ≠ some '\x7b' := by
  cases text with
  | nil =>
    obtain rfl := ends rfl
    nofun
  | cons c rest =>
    have head : (escape (c :: rest)).head? = some c := head?_escape (c :: rest)
    rwa [List.head?_append, head]

/-- Where a text is written, its dollars do not start an interpolation, unless the last of them does with
what stands behind it. -/
theorem escape_append_ne (nonempty : text = [] → tail = [])
    (ends : text.getLast? = some '$' → tail = []) (rest : List Char) :
    escape text ++ tail ≠ '$' :: '\x7b' :: rest := by
  cases text using escape.fun_cases with
  | case1 =>
    obtain rfl := nonempty rfl
    nofun
  | case2 => simp [escape]
  | case3 c more start =>
    rw [escape_cons start, List.cons_append]
    intro same
    obtain ⟨rfl, later⟩ := List.cons.inj same
    have noBrace : (escape more ++ tail).head? ≠ some '\x7b' := by
      refine head?_escape_append (fun brace => ?_) fun none => ?_
      · obtain ⟨others, rfl⟩ := List.head?_eq_some_iff.mp brace
        exact start others rfl rfl
      · subst none
        exact ends rfl
    exact noBrace (later ▸ rfl)

theorem exists_cons_of_located {c : Char} (same : located.map (·.2) = c :: text) :
    ∃ place more, located = (place, c) :: more ∧ more.map (·.2) = text := by
  obtain ⟨⟨place, _⟩, more, whole, rfl, later⟩ := List.map_eq_cons_iff.mp same
  exact ⟨place, more, whole, later⟩

/-- A text is read as it was before it was written, where it does not end with a dollar in front of more. -/
theorem interpolate_escape (same : located.map (·.2) = escape text)
    (ends : text.getLast? = some '$' → behind = []) (pending : List Char) :
    interpolate pending (located ++ behind) = interpolate (text.reverse ++ pending) behind := by
  induction text using escape.induct generalizing located pending with
  | case1 =>
    obtain rfl := List.map_eq_nil_iff.mp same
    rfl
  | case2 rest ih =>
    obtain ⟨_, _, rfl, same'⟩ := exists_cons_of_located same
    obtain ⟨_, _, rfl, same''⟩ := exists_cons_of_located same'
    obtain ⟨_, _, rfl, inner⟩ := exists_cons_of_located same''
    have later : rest.getLast? = some '$' → behind = [] := fun last =>
      ends (by simp [List.getLast?_cons, last])
    simp only [List.cons_append]
    rw [interpolate, ih inner later]
    simp
  | case3 c rest start ih =>
    rw [escape_cons start] at same
    obtain ⟨place, more, rfl, inner⟩ := exists_cons_of_located same
    have later : rest.getLast? = some '$' → behind = [] := fun last =>
      ends (by simp [List.getLast?_cons, last])
    rw [List.reverse_cons, List.append_assoc, List.singleton_append, ← ih inner later, List.cons_append]
    by_cases dollar : c = '$'
    · subst dollar
      have nonempty : rest = [] → behind.map (·.2) = [] := by
        rintro rfl
        rw [ends rfl, List.map_nil]
      have last : rest.getLast? = some '$' → behind.map (·.2) = [] := fun dollar => by
        rw [later dollar, List.map_nil]
      have written : (more ++ behind).map (·.2) = escape rest ++ behind.map (·.2) := by
        rw [List.map_append, inner]
      have noBrace : (escape rest ++ behind.map (·.2)).head? ≠ some '\x7b' := by
        refine head?_escape_append (fun brace => ?_) nonempty
        obtain ⟨others, same⟩ := List.head?_eq_some_iff.mp brace
        exact start others rfl same
      refine interpolate_dollar (fun first second others found => ?_) fun first others found => ?_
      · rw [found] at written
        exact escape_append_ne nonempty last _ written.symm
      · rw [found] at written
        exact noBrace (written ▸ rfl)
    · exact interpolate_plain dollar

/-! ### Interpolations -/

/-- The characters of a path may stand in an interpolation, and none of them is a blank. -/
theorem isInterpolated_of_path {c : LocatedChar} (valid : path.isValid = true)
    (member : c.2 ∈ path.text.toList) : isInterpolated c = true ∧ isBlank c.2 = false := by
  have letter := isNameChar_or_point valid c.2 member
  rw [Bool.or_eq_true, decide_eq_true_eq] at letter
  rcases letter with name | point
  · have newline : c.2 ≠ '\n' := ne_of_isNameChar name (by decide) rfl
    have brace : c.2 ≠ '\x7d' := ne_of_isNameChar name (by decide) rfl
    exact ⟨by simp [isInterpolated, newline, brace], not_isBlank_of_isNameChar name⟩
  · rw [isInterpolated, point]
    exact ⟨rfl, by decide⟩

/-- An interpolation is read as the node of its path. -/
theorem interpolate_path (valid : path.isValid = true)
    (same : located.map (·.2) = (ProseSegment.interpolation path).source) (pending : List Char) :
    interpolate pending (located ++ behind) =
      (interpolate [] behind).map (flush pending ++ .interpolation path :: ·) := by
  obtain ⟨_, _, rfl, same'⟩ := exists_cons_of_located same
  obtain ⟨_, _, rfl, inner⟩ := exists_cons_of_located same'
  obtain ⟨name, closing, rfl, text, brace⟩ := List.map_eq_append_iff.mp inner
  obtain ⟨close, _, rfl, none⟩ := exists_cons_of_located brace
  obtain rfl := List.map_eq_nil_iff.mp none
  have letters : ∀ c ∈ name, isInterpolated c = true ∧ isBlank c.2 = false := fun c member =>
    isInterpolated_of_path valid (text ▸ List.mem_map_of_mem member)
  have visible : ∀ c ∈ name.map (·.2), isBlank c = false :=
    List.forall_mem_map.mpr fun c member => (letters c member).2
  have inside : ∀ c ∈ name, isInterpolated c = true := fun c member => (letters c member).1
  have closes : isInterpolated (close, '\x7d') = false := rfl
  have before : (name ++ (close, '\x7d') :: behind).takeWhile isInterpolated = name := by
    rw [List.takeWhile_append_of_pos inside, List.takeWhile_cons_of_neg (by simp [closes]),
      List.append_nil]
  have after : (name ++ (close, '\x7d') :: behind).dropWhile isInterpolated =
      (close, '\x7d') :: behind := by
    rw [List.dropWhile_append_of_pos inside, List.dropWhile_cons_of_neg (by simp [closes])]
  rw [List.cons_append, List.cons_append, List.append_assoc, List.singleton_append, interpolate_braces,
    before, after, trim_of_visible visible, text, ofText?_text valid]
  simp only [List.head?_cons, Option.any_some, decide_true, if_true, List.drop_one, List.tail_cons]
  cases interpolate [] behind <;> rfl

/-- Segments are read as their nodes. A text that is pending is not joined with the first of them. -/
theorem interpolate_segments (prose : IsProse segments)
    (same : located.map (·.2) = writeSegments segments) (pending : List Char)
    (apart : pending ≠ [] → ∀ content rest, segments ≠ .text content :: rest) :
    interpolate pending located = .ok (flush pending ++ segments.map ProseSegment.node) := by
  induction segments generalizing located pending with
  | nil =>
    obtain rfl := List.map_eq_nil_iff.mp same
    rw [interpolate, List.map_nil, List.append_nil]
  | cons segment rest ih =>
    obtain ⟨here, others⟩ := List.forall_mem_cons.mp prose.valid
    have prose' : IsProse rest := ⟨others, prose.chain.tail⟩
    obtain ⟨front, behind, rfl, written, later⟩ := List.map_eq_append_iff.mp same
    cases segment with
    | text content =>
      obtain rfl : pending = [] := by
        by_contra open'
        exact apart open' content rest rfl
      -- No text comes next, and no interpolation behind a dollar.
      have single : ∀ next more, rest ≠ .text next :: more := by
        rintro next more rfl
        cases (List.isChain_cons_cons.mp prose.chain).1
      have ends : content.getLast? = some '$' → behind = [] := by
        intro dollar
        cases rest with
        | nil => exact List.map_eq_nil_iff.mp later
        | cons next more =>
          have follows := (List.isChain_cons_cons.mp prose.chain).1
          cases next with
          | text other => exact absurd rfl (single other more)
          | interpolation => simp [ProseSegment.mayPrecede, dollar] at follows
      have nonempty : content ≠ [] := by simpa [ProseSegment.isValid] using here
      rw [interpolate_escape written ends, ih prose' later _ fun _ => single]
      simp [flush, nonempty, ProseSegment.node]
    | interpolation path =>
      rw [interpolate_path here written, ih prose' later [] (absurd rfl)]
      rfl

/-! ### The newline at the end -/

theorem writeSegments_endLine (segments : List ProseSegment) :
    writeSegments (endLine segments) = writeSegments segments ++ ['\n'] := by
  induction segments using endLine.induct with
  | case1 => rfl
  | case2 content =>
    simp only [endLine, writeSegments, List.flatMap_singleton, ProseSegment.source]
    exact escape_concat (by decide) content
  | case3 segment rest other ih =>
    rw [endLine]
    · simp only [writeSegments, List.flatMap_cons] at ih ⊢
      rw [ih, List.append_assoc]
    · exact other

theorem IsProse.endLine (prose : IsProse segments) : IsProse (Source.endLine segments) := by
  induction segments using Source.endLine.induct with
  | case1 => exact ⟨by simp [Source.endLine, ProseSegment.isValid], .singleton _⟩
  | case2 content => exact ⟨by simp [Source.endLine, ProseSegment.isValid], .singleton _⟩
  | case3 segment rest other ih =>
    obtain ⟨here, others⟩ := List.forall_mem_cons.mp prose.valid
    obtain ⟨first, chain⟩ := List.isChain_cons.mp prose.chain
    have inner := ih ⟨others, chain⟩
    rw [Source.endLine]
    · refine ⟨List.forall_mem_cons.mpr ⟨here, inner.valid⟩, List.isChain_cons.mpr ⟨?_, inner.chain⟩⟩
      intro next member
      cases segment with
      | interpolation => rfl
      | text content =>
        -- Behind a text there is an interpolation, which stays in front of the newline.
        obtain ⟨path, more, rfl⟩ : ∃ path more, rest = .interpolation path :: more := by
          match rest with
          | [] => exact absurd rfl (other content rfl)
          | .text _ :: _ => cases first _ rfl
          | .interpolation path :: more => exact ⟨path, more, rfl⟩
        cases member
        exact first _ rfl
    · exact other

theorem IsProse.blockSegments (prose : IsProse segments) : IsProse (Source.blockSegments segments) := by
  rw [Source.blockSegments]
  split
  · exact prose
  · exact prose.endLine

theorem writeSegments_blockSegments (nonempty : writeSegments segments ≠ []) :
    writeSegments (blockSegments segments) = ended (writeSegments segments) := by
  rw [blockSegments, ended]
  split
  · next newline => rw [if_pos (.inr newline)]
  · next other => rw [if_neg (by simpa [nonempty] using other), writeSegments_endLine]

/-! ### Lines -/

theorem plainNewlines_of_noReturn (noReturn : ¬['\r', '\n'] <:+: text) : plainNewlines text = text := by
  induction text using plainNewlines.induct with
  | case1 => rfl
  | case2 rest => exact absurd (List.prefix_append ['\r', '\n'] rest).isInfix noReturn
  | case3 c rest other ih =>
    rw [plainNewlines, ih fun inside => noReturn (List.infix_cons inside)]
    exact other

theorem unindent_zero (line : List Char) : unindent 0 line = line := by
  cases line with
  | nil => rfl
  | cons c rest =>
    rw [unindent, indentLength_stop, List.drop_zero]
    rintro ⟨blank, fits⟩
    rcases (by simpa [isIndent] using blank : c = ' ' ∨ c = '\t') with rfl | rfl <;>
      exact absurd fits (by decide)

/-- Lines without indentation to lose stay, if the last one is not blank or is empty. -/
theorem laterLines_zero {lines : List (List Char)}
    (last : ∀ line ∈ lines.getLast?, line.all isIndent = true → line = []) :
    laterLines 0 lines = ['\n'].intercalate lines := by
  induction lines using laterLines.induct with
  | case1 => rfl
  | case2 only blank =>
    rw [laterLines, if_pos blank, List.intercalate_singleton, last only rfl blank]
  | case3 only other => rw [laterLines, if_neg other, List.intercalate_singleton, unindent_zero]
  | case4 line rest several ih =>
    obtain ⟨next, more, rfl⟩ := List.exists_cons_of_ne_nil several
    rw [List.getLast?_cons_cons] at last
    rw [laterLines, ih last, unindent_zero, List.intercalate_cons_cons, List.append_assoc]
    · rfl
    · exact several

theorem Stays.blockContent_eq (stays : Stays text) : blockContent 0 text = text := by
  have joined : ['\n'].intercalate (text.splitOn '\n') = text := List.intercalate_splitOn '\n'
  have last := stays.lastLine
  rw [blockContent, plainNewlines_of_noReturn stays.noReturn]
  generalize text.splitOn '\n' = lines at joined last
  cases lines with
  | nil => exact joined
  | cons first others =>
    cases others with
    | nil => exact (List.intercalate_singleton ..).symm.trans joined
    | cons next more =>
      rw [List.intercalate_cons_cons] at joined
      have nonempty : first ≠ [] := by
        rintro rfl
        exact stays.first (joined ▸ rfl)
      simp only [List.isEmpty_eq_false_iff.mpr nonempty, Bool.false_eq_true, if_false]
      have later : laterLines 0 (next :: more) = ['\n'].intercalate (next :: more) := laterLines_zero last
      rw [later, joined]

/-- The characters between the marks are all there, and the last of them is a newline. -/
theorem Stays.map_blockChars (stays : Stays text) (start : Nat) :
    (blockChars 0 false ⟨start, text⟩).map (·.2) = ended text := by
  have none : ¬LeavesBlanks 0 text := by
    rintro ⟨blanks, same, -, -⟩
    rw [plainNewlines_of_noReturn stays.noReturn] at same
    exact stays.first (same ▸ rfl)
  have passes := (map_blockChars_eq_iff 0 false ⟨start, text⟩).mpr none
  rwa [blockText, if_neg Bool.false_ne_true, stays.blockContent_eq] at passes

/-! ### The source of a block -/

theorem Stays.not_infix (stays : Stays text) : ¬['>', '>'] <:+: text ++ ['>'] := by
  rw [List.infix_concat_iff]
  rintro (⟨front, ends⟩ | inside)
  · obtain rfl : front ++ ['>'] = text := by
      have same : front ++ ['>'] ++ ['>'] = text ++ ['>'] := by rw [← ends, List.append_assoc]; rfl
      exact List.append_cancel_right same
    exact stays.last List.getLast?_concat
  · exact stays.noEnd inside

/-- A text between the marks of a block. -/
def blockSource (text : List Char) : List Char :=
  '<' :: '<' :: (text ++ ['>', '>'])

theorem readBlockMark_blockSource (first : ¬['>', '>'] <:+: text ++ ['>']) (indent : Nat) (isInline : Bool)
    (start : Nat) : readBlockMark indent isInline ⟨start, blockSource text⟩ =
      (readTextBlock indent isInline ⟨start + 2, text⟩).map (·, text.length + 4) := by
  have closes : Text.find? ['>', '>'] (text ++ ['>', '>']) = some text.length := find?_blockEnd first []
  have content : ((⟨start, blockSource text⟩ : Span).drop 2).take text.length = ⟨start + 2, text⟩ := by
    simp only [blockSource, Span.take, Span.drop, List.drop_succ_cons, List.drop_zero, List.take_left]
  rw [readBlockMark, ← content]
  simp only [blockSource, List.drop_succ_cons, List.drop_zero, closes]
  rfl

theorem bars_blockSource (text : List Char) : Bars isBlank (blockSource text) :=
  bars_cons (by decide)

theorem trimEnd_blockSource (text : List Char) : trimEnd (blockSource text) = blockSource text := by
  have split : blockSource text = ('<' :: '<' :: (text ++ ['>'])) ++ ['>'] := by simp [blockSource]
  rw [split]
  exact Text.trimEndOf_append_cons (by decide) _ []

/-- A block is one logical line, whatever lines its text has. -/
theorem logicalLines_blockSource (first : ¬['>', '>'] <:+: text ++ ['>']) (start : Nat) :
    logicalLines ⟨start, blockSource text⟩ = .ok [⟨0, ⟨start, blockSource text⟩⟩] := by
  have goesOn : GoesOn (blockSource text) := by
    have closes : Text.find? ['>', '>'] (text ++ ['>', '>']) = some text.length := find?_blockEnd first []
    have whole := GoesOn.block closes
    rwa [List.take_of_length_le (by simp)] at whole
  have audible : isSilent ((blockSource text).takeWhile (· ≠ '\n')) = false := by
    have bars : Bars isBlank ((blockSource text).takeWhile (· ≠ '\n')) := by
      rintro _ ⟨⟩
      decide
    refine isSilent_of_head bars ?_ ?_ <;> simp [blockSource]
  have bars : Bars isIndent (blockSource text) := bars_cons (by decide)
  have read : logicalLines ⟨start, [] ++ blockSource text⟩ = _ :=
    logicalLines_indented start nofun bars (List.cons_ne_nil _ _)
  rw [List.nil_append, if_neg (Bool.eq_false_iff.mp audible), goesOn.length, List.length_nil,
    Nat.add_zero] at read
  simp only [bind, Except.bind, List.take_length, trimEnd_blockSource,
    List.drop_eq_nil_of_le (Nat.le_succ (blockSource text).length), logicalLines_nil] at read
  exact read

theorem startsPlainly_blockSource (text : List Char) : StartsPlainly (blockSource text) := by
  obtain ⟨more, others, -, lines⟩ := pieces_cons_of_not (p := (· = '\n')) (c := '<') (by decide)
    ('<' :: (text ++ ['>', '>']))
  have whole : physicalLines (blockSource text) = ⟨0, '<' :: more⟩ :: lineSpans _ others :=
    congrArg (lineSpans 0) lines
  have visible : isBlankLine ⟨0, '<' :: more⟩ = false := by
    refine Bool.eq_false_iff.mpr fun blank => ?_
    exact absurd (isBlankLine_iff.mp blank '<' List.mem_cons_self) (by decide)
  have body : IsBody ('<' :: more) := .of_head (by rintro _ ⟨⟩; decide)
  rw [StartsPlainly, whole, List.dropWhile_cons_of_neg (by simp [visible])]
  rintro _ ⟨⟩
  exact isBody_iff.mp body

/-- A block that is a source of its own is read as its text says, without metadata. -/
theorem readTemplate_blockSource {nodes : List Node} (first : ¬['>', '>'] <:+: text ++ ['>'])
    (read : readTextBlock 0 false ⟨2, text⟩ = .ok (some (.block nodes))) :
    readTemplate (blockSource text) = .ok ⟨.empty, [.block nodes]⟩ := by
  have statement : readStatement ⟨0, ⟨0, blockSource text⟩⟩ = .ok (.node (.block nodes)) := by
    have mark := readBlockMark_blockSource first 0 false 0
    rw [Nat.zero_add, read] at mark
    have rest : ((⟨0, blockSource text⟩ : Span).drop (text.length + 4)).text = [] := by
      simp [blockSource, Span.drop]
    have lead : Lead.ofText (blockSource text) = .block := rfl
    simp only [readStatement, Span.trimStart_of_bars (bars_blockSource text), lead, mark, bind,
      Except.bind, Except.map]
    exact expectEnd_ok_iff.mpr ⟨by rw [rest]; rfl, rfl⟩
  have starts := continuesChain_of_readStatement statement (bars_blockSource text)
  have done : readLayout 0 none [] = .ok [] := by rw [readLayout]; rfl
  have layout : readLines [⟨0, ⟨0, blockSource text⟩⟩] = .ok [.block nodes] := by
    rw [readLines, Layout.ofLines, List.takeWhile_nil, List.dropWhile_nil, Layout.ofLines]
    exact readLayout_leaf rfl starts statement done
  rw [readTemplate_of_plain (startsPlainly_blockSource text), readBody, logicalLines_blockSource first]
  change (readLines _).map _ = _
  rw [layout]
  rfl

/-! ### Segments as a block -/

theorem ProseSegment.source_ne_nil (valid : segment.isValid = true) : segment.source ≠ [] := by
  cases segment with
  | interpolation path => exact List.cons_ne_nil _ _
  | text content =>
    intro none
    have head := head?_escape content
    rw [show escape content = [] from none] at head
    obtain rfl := List.head?_eq_none_iff.mp head.symm
    cases valid

theorem writeSegments_ne_nil (valid : ∀ segment ∈ segments, segment.isValid = true)
    (nonempty : segments ≠ []) : writeSegments segments ≠ [] := by
  obtain ⟨segment, rest, rfl⟩ := List.exists_cons_of_ne_nil nonempty
  exact List.append_ne_nil_of_left_ne_nil (ProseSegment.source_ne_nil (valid segment List.mem_cons_self)) _

/-- The node of a block that is written as segments has the nodes of those. -/
theorem readTextBlock_segments (prose : IsProse segments) (nonempty : segments ≠ [])
    (stays : Stays (writeSegments segments)) (start : Nat) :
    readTextBlock 0 false ⟨start, writeSegments segments⟩ =
      .ok (some (.block ((blockSegments segments).map ProseSegment.node))) := by
  have written := writeSegments_ne_nil prose.valid nonempty
  have chars := stays.map_blockChars start
  have some : blockChars 0 false ⟨start, writeSegments segments⟩ ≠ [] := by
    intro none
    rw [none] at chars
    exact written (ended_eq_nil_iff.mp chars.symm)
  rw [← writeSegments_blockSegments written] at chars
  rw [readTextBlock_eq, if_neg (by simpa using some),
    interpolate_segments prose.blockSegments chars [] (absurd rfl)]
  rfl

/-! ### What segments render to -/

section

variable {strict : Bool} {expand : Include → Context → Loading String} {ctx : Context}

theorem ProseSegment.render_node
    (present : strict = true → ∀ path, segment = .interpolation path → (ctx.resolve? path).isSome)
    (cache : TemplateCache) :
    segment.node.render strict expand ctx cache = (.ok (segment.shown ctx), cache) := by
  cases segment with
  | text content => rw [node, Node.render]; rfl
  | interpolation path =>
    have value : PromptScript.interpolate strict ctx path = .ok ((interpolation path).shown ctx) := by
      rw [PromptScript.interpolate, shown]
      cases found : ctx.resolve? path with
      | some value => rfl
      | none =>
        cases strict with
        | false => rfl
        | true => cases found ▸ present rfl path rfl
    rw [node, Node.render, value]
    rfl

/-- Segments render to what they show, one after the other, and load nothing. -/
theorem renderNodes_segments
    (present : strict = true → ∀ path, .interpolation path ∈ segments → (ctx.resolve? path).isSome)
    (cache : TemplateCache) :
    renderNodes strict expand ctx (segments.map ProseSegment.node) cache =
      (.ok (String.join (segments.map (ProseSegment.shown ctx))), cache) := by
  induction segments with
  | nil => rw [List.map_nil, renderNodes]; rfl
  | cons segment rest ih =>
    have here : segment.node.render strict expand ctx cache = (.ok (segment.shown ctx), cache) :=
      ProseSegment.render_node
        (fun isStrict path same => present isStrict path (same ▸ List.mem_cons_self)) cache
    have later := ih fun isStrict path member =>
      present isStrict path (List.mem_cons_of_mem segment member)
    rw [List.map_cons, renderNodes, Computation.bind_of_ok here, Computation.bind_of_ok later,
      List.map_cons, String.join_cons]
    rfl

end

theorem mem_blockSegments :
    .interpolation path ∈ blockSegments segments ↔ .interpolation path ∈ segments := by
  have inside : .interpolation path ∈ endLine segments ↔ .interpolation path ∈ segments := by
    induction segments using endLine.induct with
    | case1 => simp [endLine]
    | case2 => simp [endLine]
    | case3 segment rest other ih =>
      rw [endLine]
      · rw [List.mem_cons, List.mem_cons, ih]
      · exact other
  rw [blockSegments]
  split
  · rfl
  · exact inside

end Source

open Source

/-- Prose that is written as a block is read as the segments that it was, with a newline at its end. It
renders to its texts as they were, with the values of its variables between them. -/
theorem Template.parse_segments {segments : List ProseSegment} (prose : IsProse segments)
    (nonempty : segments ≠ []) (stays : Stays (writeSegments segments)) :
    let nodes : List Node := [.block ((blockSegments segments).map ProseSegment.node)]
    Template.parse (.ofList (blockSource (writeSegments segments))) = .ok ⟨.empty, nodes⟩ ∧
      ∀ (fs : FileSystem) (options : RenderOptions) (dir : String) (ctx : Context) (cache : TemplateCache),
        (options.strict = true → ∀ path, .interpolation path ∈ segments → (ctx.resolve? path).isSome) →
        render fs options dir nodes ctx cache =
          (.ok (String.join ((blockSegments segments).map (ProseSegment.shown ctx))), cache) := by
  intro nodes
  constructor
  · refine Computation.mapError_ok_iff.mpr ?_
    rw [String.toList_ofList]
    exact readTemplate_blockSource stays.not_infix (readTextBlock_segments prose nonempty stays 2)
  · intro fs options dir ctx cache present
    have block : (Node.block ((blockSegments segments).map ProseSegment.node)).render options.strict
        (expandInclude fs options [] dir) ctx cache =
          (.ok (String.join ((blockSegments segments).map (ProseSegment.shown ctx))), cache) := by
      rw [Node.render]
      exact renderNodes_segments
        (fun isStrict path member => present isStrict path (mem_blockSegments.mp member)) cache
    rw [render, renderNodes, Computation.bind_of_ok block, renderNodes]
    change (Except.ok (_ ++ ""), cache) = _
    rw [String.append_empty]

/-- A text in which every dollar stands where another place would give it a meaning, and a variable between
braces that belong to the texts. -/
theorem Template.parse_segments_of_dollars :
    let path : VarPath := ⟨"user", ["name"]⟩
    let segments := [.text "$$\x7bx\x7d\x7b".toList, .interpolation path, .text "\x7b$\n$".toList]
    let nodes : List Node := [.block [.text "$$\x7bx\x7d\x7b", .interpolation path, .text "\x7b$\n$\n"]]
    let ctx : Context := .ofMapping [("user", .map [("name", .str "Ada")])]
    IsProse segments ∧ segments ≠ [] ∧ Stays (writeSegments segments) ∧
      Template.parse "<<$$$\x7bx\x7d\x7b$\x7buser.name\x7d\x7b$\n$>>" = .ok ⟨.empty, nodes⟩ ∧
      (ctx.resolve? path).isSome = true ∧
      render ⟨[], []⟩ ⟨true, ""⟩ "" nodes ctx .empty = (.ok "$$\x7bx\x7d\x7bAda\x7b$\n$\n", .empty) := by
  intro path segments nodes ctx
  have prose : IsProse segments := ⟨by decide +kernel, by decide +kernel⟩
  have stays : Stays (writeSegments segments) :=
    ⟨by decide +kernel, by decide +kernel, by decide +kernel, by decide +kernel, by decide +kernel⟩
  have value : (ctx.resolve? path).isSome = true := by decide +kernel
  have source : String.ofList (blockSource (writeSegments segments)) =
      "<<$$$\x7bx\x7d\x7b$\x7buser.name\x7d\x7b$\n$>>" := by decide +kernel
  have ends : blockSegments segments =
      [.text "$$\x7bx\x7d\x7b".toList, .interpolation path, .text "\x7b$\n$\n".toList] := by decide +kernel
  have read : [.block ((blockSegments segments).map ProseSegment.node)] = nodes := by
    simp only [ends, List.map_cons, List.map_nil, ProseSegment.node, String.ofList_toList, nodes]
  have shown : String.join ((blockSegments segments).map (ProseSegment.shown ctx)) =
      "$$\x7bx\x7d\x7bAda\x7b$\n$\n" := by decide +kernel
  have whole := Template.parse_segments prose (List.cons_ne_nil _ _) stays
  simp only [source, read] at whole
  have present : ∀ other, .interpolation other ∈ segments → (ctx.resolve? other).isSome := by
    intro other member
    obtain rfl : other = path := by simpa [segments] using member
    exact value
  have rendered := whole.2 ⟨[], []⟩ ⟨true, ""⟩ "" ctx .empty fun _ => present
  rw [shown] at rendered
  exact ⟨prose, List.cons_ne_nil _ _, stays, whole.1, value, rendered⟩

end PromptScript
