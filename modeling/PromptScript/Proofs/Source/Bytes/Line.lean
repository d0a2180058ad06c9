import PromptScript.Proofs.Source.PhysicalLine
import PromptScript.Proofs.Source.Bytes.Statement

/-!
Logical lines read by bytes. A line is looked for in all that follows in the source, and a text block in it is
stepped over up to the offset behind the mark that closes it.
-/
namespace PromptScript.Source.Bytes

open Text
open Command (byteLength)

/-- The offset at which a logical line ends, of which the given characters start at an offset. A string may
be open in front of them. -/
def lineEnd (source : List Char) (quote : Option Char) (offset : Nat) : List Char → Checked Nat
  | [] => pure (byteLength source)
  | c :: rest =>
    let behind := offset + c.utf8Size
    if c = '\n' then pure offset
    else match quote with
      | some q =>
        -- A backslash takes the next character with it, a newline too.
        if c = '\\' then
          match rest with
          | [] => pure (byteLength source)
          | d :: rest => lineEnd source quote (behind + d.utf8Size) rest
        else lineEnd source (if c = q then none else quote) behind rest
      | none =>
        if isQuote c then lineEnd source (some c) behind rest
        else if c = '<' then do
          let text ← require (slice source offset (byteLength source))
          if ['<', '<'].isPrefixOf text then
            let text ← require (slice source (offset + 2) (byteLength source))
            match find? ['>', '>'] text with
            | none => fault offset .unterminatedText
            | some length =>
              let close := offset + 2 + byteOffset text length
              -- The scan goes on with the first character that is not in front of the end of the mark.
              let taken := countBefore behind (close + 2) rest
              lineEnd source none (behind + byteLength (rest.take taken)) (rest.drop taken)
          else lineEnd source none behind rest
        else lineEnd source none behind rest
termination_by text => text.length

/-- The offset of the first newline in what follows an offset, or the end of the source. -/
def newlineOffset (source : List Char) (offset : Nat) (behind : List Char) : Nat :=
  match find? ['\n'] behind with
  | some length => offset + byteOffset behind length
  | none => byteLength source

/-- The offset behind the end of a line that is at or behind an offset. -/
def beyond (offset stop : Nat) : Checked {next : Nat // offset < next} :=
  require (if h : offset < stop + 1 then some ⟨stop + 1, h⟩ else none)

/-- The logical lines from an offset on. -/
def logicalLines (source : List Char) (offset : Nat) : Checked (List Line) :=
  if _inside : offset < byteLength source then do
    let rest ← require (slice source offset (byteLength source))
    let indentation := rest.takeWhile isIndent
    let start := offset + byteLength indentation
    let body ← require (slice source start (byteLength source))
    let newline := newlineOffset source start body
    let physical ← require (slice source start newline)
    if isSilent physical then do
      let ⟨next, _⟩ ← beyond offset newline
      logicalLines source next
    else do
      let stop ← lineEnd source none start body
      let line ← require (slice source start stop)
      let ⟨next, _⟩ ← beyond offset stop
      let more ← logicalLines source next
      return ⟨indentWidth indentation, ⟨start, start + byteLength (trimEnd line)⟩⟩ :: more
  else pure []
termination_by byteLength source - offset

variable {source front text rest : List Char} {r : ByteSpan} {s : Span} {quote : Option Char} {c : Char}
  {offset stop n m : Nat}

/-! ### The end of a line -/

theorem lineLength_unclosed {opening : Nat} (unclosed : find? ['>', '>'] text = none) (offset : Nat) :
    lineLength (.text opening) offset text = .error ⟨.unterminatedText, opening⟩ := by
  induction text generalizing offset with
  | nil => rfl
  | cons c rest ih =>
    rw [find?] at unclosed
    split at unclosed
    · cases unclosed
    next noMark =>
    have other : ∀ d ∈ rest.head?, ¬(c = '>' ∧ d = '>') := by
      rintro d member ⟨rfl, rfl⟩
      obtain ⟨more, rfl⟩ := List.head?_eq_some_iff.mp member
      exact noMark rfl
    rw [lineLength_text opening other, ih (Option.map_eq_none_iff.mp unclosed)]
    rfl

/-- A part of a line that is taken up at once, by bytes as by characters. A string may be open in front of
it, and one behind it. -/
structure EndStep (front piece rest : List Char) (quote quote' : Option Char) : Prop where
  moves : piece ≠ []
  bytes : lineEnd (front ++ (piece ++ rest)) quote (byteLength front) (piece ++ rest) =
    lineEnd (front ++ (piece ++ rest)) quote' (byteLength (front ++ piece)) rest
  chars : lineLength (.ofQuote quote) front.length (piece ++ rest) =
    (lineLength (.ofQuote quote') (front.length + piece.length) rest).map (· + piece.length)

theorem ofQuote_ite (closes : Prop) [Decidable closes] (q : Char) :
    Mode.ofQuote (if closes then none else some q) = if closes then .code else .quoted q := by
  split <;> rfl

theorem slice_block (front text : List Char) :
    slice (front ++ '<' :: '<' :: text) (byteLength front + 2)
      (byteLength (front ++ '<' :: '<' :: text)) = some text := by
  have behind := slice_behind (front ++ ['<', '<']) text
  rwa [byteLength_append, List.append_assoc] at behind

namespace EndStep

variable {q : Char}

theorem quoted (noNewline : c ≠ '\n') (noEscape : c ≠ '\\') :
    EndStep front [c] rest (some q) (if c = q then none else some q) where
  moves := List.cons_ne_nil c []
  bytes := by
    rw [byteLength_concat, List.singleton_append, lineEnd.eq_def]
    simp only [if_neg noNewline, if_neg noEscape]
  chars := by
    rw [ofQuote_ite]
    exact lineLength_quoted noNewline noEscape q front.length rest

theorem escape : EndStep front ['\\', c] rest (some q) (some q) where
  moves := List.cons_ne_nil _ _
  bytes := by
    have behind : byteLength (front ++ ['\\', c]) = byteLength front + 1 + c.utf8Size := by
      rw [byteLength_append, byteLength_cons, byteLength_cons, byteLength_nil, Nat.add_assoc]
      rfl
    rw [behind, List.cons_append, List.singleton_append, lineEnd.eq_def]
    rfl
  chars := lineLength_escape q front.length c rest

theorem backslash : EndStep front ['\\'] [] (some q) (if '\\' = q then none else some q) where
  moves := List.cons_ne_nil _ _
  bytes := by
    rw [List.append_nil, lineEnd.eq_def, lineEnd]
    rfl
  chars := by
    rw [ofQuote_ite]
    exact LineStep.backslash.length

theorem opening (opens : isQuote c = true) : EndStep front [c] rest none (some c) where
  moves := List.cons_ne_nil c []
  bytes := by
    rw [byteLength_concat, List.singleton_append, lineEnd.eq_def]
    simp only [if_neg (ne_of_isQuote opens).1, if_pos opens]
  chars := lineLength_opening opens front.length rest

theorem plain (noNewline : c ≠ '\n') (plain : isQuote c = false) (apart : ∀ d ∈ rest.head?, Apart c d) :
    EndStep front [c] rest none none where
  moves := List.cons_ne_nil c []
  bytes := by
    have noMark : ¬['<', '<'].isPrefixOf (c :: rest) = true := by
      intro mark
      obtain ⟨more, same⟩ := List.isPrefixOf_iff_prefix.mp mark
      cases same
      exact apart '<' rfl ⟨rfl, rfl⟩
    rw [byteLength_concat, List.singleton_append, lineEnd.eq_def]
    simp only [if_neg noNewline, plain, Bool.false_eq_true, if_false, slice_behind, require_some, pure_bind,
      if_neg noMark, ite_self]
  chars := lineLength_plain noNewline plain apart front.length

/-- A text block is stepped over: as many characters are skipped as stand in front of what follows its
closing mark. -/
theorem block (found : find? ['>', '>'] text = some n) :
    EndStep front ('<' :: '<' :: text.take (n + 2)) (text.drop (n + 2)) none none where
  moves := List.cons_ne_nil _ _
  bytes := by
    obtain ⟨more, closes⟩ := prefix_of_find? found
    have within : n + 3 ≤ ('<' :: text).length := by
      have := congrArg List.length closes
      simp only [List.length_append, List.length_drop, List.length_cons, List.length_nil] at this ⊢
      omega
    have close : byteLength front + 2 + byteOffset text n + 2 =
        byteLength front + '<'.utf8Size + byteOffset ('<' :: text) (n + 3) := by
      have mark : byteOffset (['>', '>'] ++ more) 2 = 2 := rfl
      rw [byteOffset_cons, byteOffset_add, ← closes, mark, show '<'.utf8Size = 1 from rfl]
      omega
    have behind : byteLength (front ++ '<' :: '<' :: text.take (n + 2)) =
        byteLength front + '<'.utf8Size + byteLength ('<' :: text.take (n + 2)) := by
      rw [byteLength_append, byteLength_cons, Nat.add_assoc]
    rw [List.cons_append, List.cons_append, List.take_append_drop, lineEnd.eq_def, behind]
    simp [slice_behind, slice_block, require_some, found, isQuote, close, countBefore_byteOffset within]
  chars := GoesOn.block found front.length (text.drop (n + 2))

end EndStep

/-- A text block that is not closed ends the reading. -/
theorem lineEnd_unclosed (unclosed : find? ['>', '>'] text = none) (front : List Char) :
    lineEnd (front ++ '<' :: '<' :: text) none (byteLength front) ('<' :: '<' :: text) =
      fault (byteLength front) .unterminatedText := by
  rw [lineEnd.eq_def]
  simp [slice_behind, slice_block, require_some, unclosed, isQuote]

/-- A line goes on with a part that is taken up at once, or with a text block that is not closed. -/
theorem exists_endStep (noNewline : c ≠ '\n') (front rest : List Char) (quote : Option Char) :
    (∃ piece rest' quote', c :: rest = piece ++ rest' ∧ EndStep front piece rest' quote quote') ∨
      quote = none ∧ ∃ more, c :: rest = '<' :: '<' :: more ∧ find? ['>', '>'] more = none := by
  cases quote with
  | some q =>
    left
    by_cases escape : c = '\\'
    · subst escape
      cases rest with
      | nil => exact ⟨_, _, _, rfl, .backslash⟩
      | cons d more => exact ⟨['\\', d], more, _, rfl, .escape⟩
    · exact ⟨[c], rest, _, rfl, .quoted noNewline escape⟩
  | none =>
    by_cases opens : isQuote c = true
    · exact .inl ⟨[c], rest, _, rfl, .opening opens⟩
    have plain := Bool.eq_false_iff.mpr opens
    by_cases apart : ∀ d ∈ rest.head?, Apart c d
    · exact .inl ⟨[c], rest, _, rfl, .plain noNewline plain apart⟩
    obtain ⟨d, some⟩ := not_forall.mp apart
    obtain ⟨here, doubled⟩ := Classical.not_imp.mp some
    rw [Apart, not_not] at doubled
    obtain ⟨more, rfl⟩ := List.head?_eq_some_iff.mp here
    obtain ⟨rfl, rfl⟩ := doubled
    cases found : find? ['>', '>'] more with
    | none => exact .inr ⟨rfl, more, rfl, found⟩
    | some n =>
      have whole : '<' :: '<' :: more = '<' :: '<' :: more.take (n + 2) ++ more.drop (n + 2) := by
        rw [List.cons_append, List.cons_append, List.take_append_drop]
      exact .inl ⟨_, _, _, whole, .block found⟩

/-- A line that is read by bytes ends where it does by characters. -/
theorem lineEnd_follows (quote : Option Char) (front text : List Char) :
    Follows (front ++ text) (fun stop length => SamePlace (front ++ text) stop (front.length + length))
      (lineEnd (front ++ text) quote (byteLength front) text)
      (lineLength (.ofQuote quote) front.length text) := by
  -- By induction on the characters that are left; those that were taken up are in front of them.
  induction size : text.length using Nat.strongRecOn generalizing front text quote with
  | ind size ih =>
    subst size
    cases text with
    | nil =>
      rw [lineEnd, lineLength_nil quote _ .nil]
      exact .ok (byteOffset_of_length_le (by simp)).symm
    | cons c rest =>
      by_cases newline : c = '\n'
      · subst newline
        rw [lineEnd.eq_def, lineLength_nil quote _ (.newline rest)]
        exact .ok (byteOffset_append front _).symm
      rcases exists_endStep newline front rest quote with
        ⟨piece, behind, further, whole, step⟩ | ⟨rfl, more, whole, unclosed⟩
      · have shorter : behind.length < (c :: rest).length := by
          have := List.length_pos_iff.mpr step.moves
          rw [whole, List.length_append]
          omega
        have later := ih _ shorter further (front ++ piece) behind rfl
        rw [List.append_assoc, List.length_append] at later
        rw [whole, step.bytes, step.chars]
        refine later.map_right fun stop length place => ?_
        rwa [Nat.add_assoc, Nat.add_comm piece.length] at place
      · rw [whole, lineEnd_unclosed unclosed, Mode.ofQuote, lineLength_block, lineLength_unclosed unclosed]
        exact .fault _ (byteOffset_append front _).symm

theorem lineEnd_at (quote : Option Char) (within : n ≤ source.length) :
    Follows source (fun stop length => SamePlace source stop (n + length))
      (lineEnd source quote (byteOffset source n) (source.drop n))
      (lineLength (.ofQuote quote) n (source.drop n)) := by
  have follows := lineEnd_follows quote (source.take n) (source.drop n)
  rwa [List.take_append_drop, List.length_take_of_le within] at follows

/-! ### Lines -/

/-- An offset in bytes and one in characters, which are at one place or both behind the source. -/
def At (source : List Char) (offset n : Nat) : Prop :=
  SamePlace source offset n ∨ byteLength source ≤ offset ∧ source.length ≤ n

/-- Behind the end of a line the source goes on with the next one, if it does. -/
theorem At.of_endsLine (ends : EndsLine (source.drop n)) : At source (byteOffset source n + 1) (n + 1) := by
  cases behind : source.drop n with
  | nil =>
    have reached := List.drop_eq_nil_iff.mp behind
    rw [byteOffset_of_length_le reached]
    exact .inr ⟨Nat.le_succ _, Nat.le_succ_of_le reached⟩
  | cons c rest =>
    have newline : source[n]? = some '\n' := by
      rw [← Nat.add_zero n, ← List.getElem?_drop, behind, ends c (by rw [behind]; rfl)]
      rfl
    exact .inl (byteOffset_succ newline).symm

theorem find?_newline (text : List Char) : find? ['\n'] text =
    if '\n' ∈ text then some (text.takeWhile (· ≠ '\n')).length else none := by
  induction text with
  | nil => rfl
  | cons c rest ih =>
    by_cases newline : c = '\n'
    · subst newline
      simp [find?]
    · have noMark : ['\n'].isPrefixOf (c :: rest) = false := by
        simp [List.isPrefixOf, Ne.symm newline]
      rw [find?, noMark, ih, List.takeWhile_cons_of_pos (by simpa using newline)]
      simp only [Bool.false_eq_true, if_false, List.mem_cons, Ne.symm newline, false_or]
      split <;> rfl

theorem newlineOffset_eq (source : List Char) (n : Nat) :
    newlineOffset source (byteOffset source n) (source.drop n) =
      byteOffset source (n + ((source.drop n).takeWhile (· ≠ '\n')).length) := by
  rw [newlineOffset, find?_newline, byteOffset_add]
  split
  · next newline =>
    split at newline
    · cases newline
      rfl
    · cases newline
  · next none =>
    split at none
    · cases none
    next single =>
    have whole : (source.drop n).takeWhile (· ≠ '\n') = source.drop n :=
      List.takeWhile_eq_self_iff.mpr fun c member => by
        simpa using ne_of_mem_of_not_mem member single
    rw [whole, byteOffset_of_length_le (Nat.le_refl _), byteOffset, ← byteLength_append,
      List.take_append_drop]

theorem beyond_of_le (h : offset ≤ stop) : ∃ less, beyond offset stop = pure ⟨stop + 1, less⟩ :=
  ⟨Nat.lt_succ_of_le h, by rw [beyond, dif_pos (Nat.lt_succ_of_le h), require_some]⟩

theorem Stands.of_isPrefix (h : text <+: source.drop n) :
    Stands source ⟨byteOffset source n, byteOffset source n + byteLength text⟩ ⟨n, text⟩ where
  text := h
  start := rfl
  stop := by rw [Span.finish, byteOffset_add, byteOffset, byteOffset, ← List.prefix_iff_eq_take.mp h]

/-- What a line says is read by bytes where it is read by characters. -/
theorem SameLine.of_endsLine (indent : Nat) (ends : EndsLine (source.drop (n + m))) :
    let text := trimEnd ((source.drop n).take m)
    SameLine source ⟨indent, byteOffset source n, byteOffset source n + byteLength text⟩
      ⟨indent, n, text⟩ := by
  intro text
  obtain ⟨blanks, whole, blank⟩ := exists_blanks ((source.drop n).take m)
  have inside : text <+: source.drop n :=
    (isPrefix_trimEndOf isBlank _).trans (List.take_prefix m _)
  have split : source = source.take n ++ text ++ (blanks ++ source.drop (n + m)) := by
    rw [List.append_assoc, ← List.append_assoc text, ← whole, ← List.drop_drop, List.take_append_drop,
      List.take_append_drop]
  refine ⟨rfl, Stands.of_isPrefix inside, _, _, split, (byteLength_append _ _).symm, fun c member => ?_⟩
  cases blanks with
  | nil =>
    rw [ends c member]
    decide
  | cons d more =>
    obtain rfl := Option.mem_some.mp member
    exact blank d List.mem_cons_self

theorem logicalLines_drop (within : n < source.length) : Source.logicalLines ⟨n, source.drop n⟩ =
    let indentation := (source.drop n).takeWhile isIndent
    let k := n + indentation.length
    let physical := (source.drop k).takeWhile (· ≠ '\n')
    if isSilent physical then
      Source.logicalLines ⟨k + (physical.length + 1), source.drop (k + (physical.length + 1))⟩
    else do
      let length ← lineLength .code k (source.drop k)
      let more ← Source.logicalLines ⟨k + (length + 1), source.drop (k + (length + 1))⟩
      return ⟨indentWidth indentation, ⟨k, trimEnd ((source.drop k).take length)⟩⟩ :: more := by
  have nonempty : (source.drop n).isEmpty = false :=
    List.isEmpty_eq_false_iff.mpr (mt List.drop_eq_nil_iff.mp (by omega))
  rw [Source.logicalLines]
  simp only [nonempty, Bool.false_eq_true, if_false, Span.drop, Span.take, Span.trimEnd, List.drop_drop]

theorem logicalLines_byteOffset (within : n < source.length) : logicalLines source (byteOffset source n) =
    let indentation := (source.drop n).takeWhile isIndent
    let k := n + indentation.length
    let physical := (source.drop k).takeWhile (· ≠ '\n')
    if isSilent physical then logicalLines source (byteOffset source (k + physical.length) + 1)
    else do
      let stop ← lineEnd source none (byteOffset source k) (source.drop k)
      let line ← require (slice source (byteOffset source k) stop)
      let ⟨next, _⟩ ← beyond (byteOffset source n) stop
      let more ← logicalLines source next
      let span := ⟨byteOffset source k, byteOffset source k + byteLength (trimEnd line)⟩
      return ⟨indentWidth indentation, span⟩ :: more := by
  have inside : byteOffset source n < byteLength source := by
    rw [← byteOffset_of_length_le (Nat.le_refl source.length)]
    exact byteOffset_lt within within
  have start : byteOffset source n + byteLength ((source.drop n).takeWhile isIndent) =
      byteOffset source (n + ((source.drop n).takeWhile isIndent).length) := by
    rw [byteOffset_add, byteLength_takeWhile]
  have rest (n : Nat) : slice source (byteOffset source n) (byteLength source) = some (source.drop n) :=
    (Stands.behind source n).slice_text
  have further := Nat.le_add_right n ((source.drop n).takeWhile isIndent).length
  rw [logicalLines, dif_pos inside]
  simp only [rest, require_some, pure_bind, start]
  generalize n + ((source.drop n).takeWhile isIndent).length = k at further ⊢
  have physical : slice source (byteOffset source k)
      (byteOffset source (k + ((source.drop k).takeWhile (· ≠ '\n')).length)) =
        some ((source.drop k).takeWhile (· ≠ '\n')) := by
    rw [slice_byteOffset source (Nat.le_add_right _ _), Nat.add_sub_cancel_left,
      ← List.prefix_iff_eq_take.mp (List.takeWhile_prefix _)]
  obtain ⟨less, next⟩ := beyond_of_le (byteOffset_mono source
    (Nat.le_add_right_of_le (k := ((source.drop k).takeWhile (· ≠ '\n')).length) further))
  simp only [newlineOffset_eq, physical, require_some, pure_bind, next]

theorem endsLine_dropWhile (text : List Char) : EndsLine (text.dropWhile (· ≠ '\n')) :=
  fun c member => by simpa using bars_dropWhile (· ≠ '\n') text c member

/-- The lines that are read by bytes are the lines that are read by characters. -/
theorem logicalLines_follows (h : At source offset n) :
    Follows source (List.Forall₂ (SameLine source)) (logicalLines source offset)
      (Source.logicalLines ⟨n, source.drop n⟩) := by
  induction left : source.length - n using Nat.strongRecOn generalizing offset n with
  | ind size ih =>
    subst left
    by_cases within : n < source.length
    · obtain rfl : offset = byteOffset source n := h.resolve_right fun behind => by omega
      -- A silent line and a logical line both end in front of a newline, or with the source.
      have later {m : Nat} (further : n ≤ m) (ends : EndsLine (source.drop m)) :=
        ih _ (by omega) (At.of_endsLine ends) rfl
      rw [logicalLines_byteOffset within, logicalLines_drop within]
      have further := Nat.le_add_right n ((source.drop n).takeWhile isIndent).length
      have fits : n + ((source.drop n).takeWhile isIndent).length ≤ source.length := by
        have := (List.takeWhile_prefix isIndent (l := source.drop n)).length_le
        rw [List.length_drop] at this
        omega
      generalize (source.drop n).takeWhile isIndent = indentation at fits further ⊢
      simp only
      generalize n + indentation.length = k at fits further ⊢
      split
      · refine later (Nat.le_add_right_of_le further) ?_
        rw [← List.drop_drop, drop_length_takeWhile]
        exact endsLine_dropWhile _
      · have stops := (lineEnd_at none fits).and_ok
          fun length read => (le_and_endsLine_of_lineLength read).2
        refine stops.bind ?_
        rintro _ length ⟨rfl, ends⟩
        rw [List.drop_drop] at ends
        obtain ⟨less, next⟩ := beyond_of_le (byteOffset_mono source
          (Nat.le_add_right_of_le (k := length) further))
        rw [slice_byteOffset source (Nat.le_add_right _ _), Nat.add_sub_cancel_left, require_some,
          pure_bind, next, pure_bind]
        refine (later (Nat.le_add_right_of_le further) ends).bind fun lines lines' same => ?_
        exact .ok (.cons (.of_endsLine _ ends) same)
    · have reached := Nat.le_of_not_lt within
      have outside : byteLength source ≤ offset := by
        rcases h with place | behind
        · rw [place, byteOffset_of_length_le reached]
        · exact behind.1
      rw [logicalLines, dif_neg (Nat.not_lt.mpr outside), List.drop_eq_nil_of_le reached, logicalLines_nil]
      exact .ok .nil

end PromptScript.Source.Bytes
