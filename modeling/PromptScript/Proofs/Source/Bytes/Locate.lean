import PromptScript.Proofs.Source.Bytes.Basic
import PromptScript.Proofs.Text.Span

/-!
The line and the column of an offset in bytes, found by the offsets at which the lines start.
-/
namespace PromptScript.Source.Bytes

open Text
open Command (byteLength)

/-- The offsets behind the newlines of a text that starts at an offset. -/
def newlineEnds (offset : Nat) : List Char → List Nat
  | [] => []
  | c :: rest =>
    if c = '\n' then (offset + 1) :: newlineEnds (offset + 1) rest
    else newlineEnds (offset + c.utf8Size) rest

/-- The offsets at which the lines of a source start. -/
def lineStarts (source : List Char) : List Nat :=
  0 :: newlineEnds 0 source

/-- The index of the last line that starts at an offset or before it: the search in the sorted starts
finds either the offset or the place where it would have to be put in. -/
def lineIndex (starts : List Nat) (offset : Nat) : Option Nat :=
  let place := starts.countP (· < offset)
  if starts[place]? = some offset then some place
  else if 1 ≤ place then some (place - 1) else none

/-- The line and the column of an offset. An offset behind the source counts as its end. -/
def locate (source : List Char) (offset : Nat) : Option (Nat × Nat) := do
  let offset := min offset (byteLength source)
  let starts := lineStarts source
  let index ← lineIndex starts offset
  let start ← starts[index]?
  let line ← slice source start offset
  return (index + 1, line.length + 1)

variable {source head line rest : List Char} {offset n : Nat}

/-! ### The starts of lines -/

theorem newlineEnds_append (offset : Nat) (text rest : List Char) :
    newlineEnds offset (text ++ rest) =
      newlineEnds offset text ++ newlineEnds (offset + byteLength text) rest := by
  induction text generalizing offset with
  | nil => simp [newlineEnds]
  | cons c more ih =>
    rw [List.cons_append, newlineEnds, newlineEnds, ih, ih, byteLength_cons]
    split
    · next newline =>
      subst newline
      rw [List.cons_append, Nat.add_assoc]
      rfl
    · rw [Nat.add_assoc]

theorem newlineEnds_of_single (single : '\n' ∉ line) (offset : Nat) : newlineEnds offset line = [] := by
  induction line generalizing offset with
  | nil => rfl
  | cons c more ih =>
    rw [List.mem_cons, not_or] at single
    rw [newlineEnds, if_neg (Ne.symm single.1), ih single.2]

theorem length_newlineEnds (offset : Nat) (text : List Char) :
    (newlineEnds offset text).length = text.count '\n' := by
  induction text generalizing offset with
  | nil => rfl
  | cons c more ih =>
    rw [newlineEnds, List.count_cons]
    split
    · next newline => simp [newline, ih]
    · next other => simp [other, ih]

theorem bounds_of_mem_newlineEnds {start : Nat} (member : start ∈ newlineEnds offset source) :
    offset < start ∧ start ≤ offset + byteLength source := by
  induction source generalizing offset with
  | nil => cases member
  | cons c more ih =>
    have positive := c.utf8Size_pos
    rw [newlineEnds] at member
    rw [byteLength_cons]
    split at member
    · rcases List.mem_cons.mp member with rfl | later
      · omega
      · have := ih later
        omega
    · have := ih member
      omega

/-- The text in front of the line that an offset is on, and that line up to the offset. -/
theorem exists_lastLine (before : List Char) : ∃ head line, before = head ++ line ∧ '\n' ∉ line ∧
    (head = [] ∨ ∃ more, head = more ++ ['\n']) ∧
    line.length = (before.reverse.takeWhile (· ≠ '\n')).length := by
  refine ⟨(before.reverse.dropWhile (· ≠ '\n')).reverse, (before.reverse.takeWhile (· ≠ '\n')).reverse,
    ?_, ?_, ?_, List.length_reverse⟩
  · rw [← List.reverse_append, List.takeWhile_append_dropWhile, List.reverse_reverse]
  · intro member
    have other := List.mem_takeWhile_imp (List.mem_reverse.mp member)
    simp at other
  · cases found : before.reverse.dropWhile (· ≠ '\n') with
    | nil => exact .inl rfl
    | cons c more =>
      have bars := bars_dropWhile (fun c => decide (c ≠ '\n')) before.reverse c (by rw [found]; rfl)
      obtain rfl : c = '\n' := by simpa using bars
      exact .inr ⟨more.reverse, List.reverse_cons⟩

/-- The lines of a text that ends behind a newline, or is empty, start before its end, but for one. -/
theorem exists_lineStarts (ends : head = [] ∨ ∃ more, head = more ++ ['\n']) :
    ∃ starts, lineStarts head = starts ++ [byteLength head] ∧ starts.length = head.count '\n' ∧
      ∀ start ∈ starts, start < byteLength head := by
  rcases ends with rfl | ⟨more, rfl⟩
  · exact ⟨[], by simp [lineStarts, newlineEnds], rfl, nofun⟩
  · have size : byteLength (more ++ ['\n']) = byteLength more + 1 := by
      rw [byteLength_append]
      rfl
    refine ⟨0 :: newlineEnds 0 more, ?_, ?_, ?_⟩
    · rw [lineStarts, newlineEnds_append, size, Nat.zero_add]
      rfl
    · rw [List.length_cons, length_newlineEnds, List.count_append]
      rfl
    · intro start member
      rw [size]
      rcases List.mem_cons.mp member with rfl | later
      · omega
      · have := (bounds_of_mem_newlineEnds later).2
        omega

/-- What the search finds, when the starts in front of the offset are known. -/
theorem lineIndex_append {starts later : List Nat} {last : Nat} (less : ∀ start ∈ starts, start < last)
    (here : last ≤ offset) (more : ∀ start ∈ later, offset < start) :
    lineIndex (starts ++ last :: later) offset = some starts.length := by
  have before : starts.countP (· < offset) = starts.length :=
    List.countP_eq_length.mpr fun start member => by
      have := less start member
      exact decide_eq_true (by omega)
  have behind : later.countP (· < offset) = 0 := List.countP_eq_zero.mpr fun start member => by
    have := more start member
    simp only [decide_eq_true_eq]
    omega
  unfold lineIndex
  rw [List.countP_append, List.countP_cons, before, behind]
  rcases Nat.eq_or_lt_of_le here with rfl | inside
  · simp
  · have other : (starts ++ last :: later)[starts.length + 1]? ≠ some offset := by
      rw [List.getElem?_append_right (by omega), Nat.add_sub_cancel_left, List.getElem?_cons_succ]
      intro found
      exact absurd (more offset (List.mem_of_getElem? found)) (Nat.lt_irrefl offset)
    simp only [decide_eq_true inside, if_true, Nat.zero_add, if_neg other]
    simp

/-- An offset between two characters is found: one line for each newline in front of it and one more, and
one column for each character behind the last of them and one more. -/
theorem locate_append (before after : List Char) :
    locate (before ++ after) (byteLength before) =
      some (before.count '\n' + 1, (before.reverse.takeWhile (· ≠ '\n')).length + 1) := by
  obtain ⟨head, line, rfl, single, ends, length⟩ := exists_lastLine before
  obtain ⟨starts, first, count, less⟩ := exists_lineStarts ends
  have whole : lineStarts (head ++ line ++ after) =
      starts ++ byteLength head :: newlineEnds (byteLength (head ++ line)) after := by
    rw [lineStarts, newlineEnds_append, newlineEnds_append, newlineEnds_of_single single, List.append_nil,
      Nat.zero_add, ← List.cons_append, ← lineStarts, first, List.append_assoc, List.singleton_append]
  -- The line starts behind the last newline in front of the offset; all later ones start behind the offset.
  have clamp : min (byteLength (head ++ line)) (byteLength (head ++ line ++ after)) =
      byteLength (head ++ line) := by
    rw [byteLength_append (head ++ line)]
    omega
  have index : lineIndex (lineStarts (head ++ line ++ after)) (byteLength (head ++ line)) =
      some starts.length := by
    rw [whole]
    refine lineIndex_append less ?_ fun start member => (bounds_of_mem_newlineEnds member).1
    rw [byteLength_append]
    exact Nat.le_add_right _ _
  have start : (lineStarts (head ++ line ++ after))[starts.length]? = some (byteLength head) := by
    rw [whole, List.getElem?_append_right (Nat.le_refl _), Nat.sub_self]
    rfl
  have found : slice (head ++ line ++ after) (byteLength head) (byteLength (head ++ line)) = some line :=
    slice_eq_some_iff.mpr ⟨head, after, rfl, rfl, rfl⟩
  have none : line.count '\n' = 0 := List.count_eq_zero.mpr single
  simp only [locate, clamp, index, start, found, Option.bind_eq_bind, Option.bind_some]
  rw [List.count_append, none, count, ← length]
  rfl

theorem locate_byteOffset (source : List Char) (n : Nat) :
    locate source (byteOffset source n) = some (PromptScript.locate source n) := by
  have found := locate_append (source.take n) (source.drop n)
  rwa [List.take_append_drop] at found

/-! ### Places that exist -/

theorem exists_pieces_append (single : '\n' ∉ line) (rest : List Char) :
    ∃ more others, pieces (· = '\n') (line ++ rest) = (line ++ more) :: others := by
  induction line with
  | nil =>
    obtain ⟨first, others, parts⟩ := List.exists_cons_of_ne_nil (pieces_ne_nil (· = '\n') rest)
    exact ⟨first, others, parts⟩
  | cons c more ih =>
    rw [List.mem_cons, not_or] at single
    obtain ⟨behind, others, parts⟩ := ih single.2
    obtain ⟨first, later, same, whole⟩ := pieces_cons_of_not (p := (· = '\n')) (c := c)
      (decide_eq_false (Ne.symm single.1)) (more ++ rest)
    rw [parts] at same
    cases same
    exact ⟨behind, others, whole⟩

theorem length_pieces (source : List Char) :
    (pieces (· = '\n') source).length = source.count '\n' + 1 := by
  induction source with
  | nil => rfl
  | cons c rest ih =>
    cases separates : decide (c = '\n') with
    | true =>
      rw [pieces_cons_of_separates separates, List.length_cons, ih, of_decide_eq_true separates,
        List.count_cons_self]
    | false =>
      obtain ⟨first, others, parts, whole⟩ := pieces_cons_of_not (p := (· = '\n')) separates rest
      rw [parts] at ih
      rw [whole, List.count_cons_of_ne (of_decide_eq_false separates), ← ih]
      rfl

/-- Every offset is on a line of the source, or right behind one. -/
theorem exists_line_of_locate (source : List Char) (n : Nat) :
    ∃ line, (pieces (· = '\n') source)[(PromptScript.locate source n).1 - 1]? = some line ∧
      (PromptScript.locate source n).2 ≤ line.length + 1 := by
  obtain ⟨head, line, split, single, ends, length⟩ := exists_lastLine (source.take n)
  obtain ⟨more, others, parts⟩ := exists_pieces_append single (source.drop n)
  have whole : source = head ++ (line ++ source.drop n) := by
    rw [← List.append_assoc, ← split, List.take_append_drop]
  have count : (source.take n).count '\n' = head.count '\n' := by
    rw [split, List.count_append, List.count_eq_zero.mpr single, Nat.add_zero]
  refine ⟨line ++ more, ?_, ?_⟩
  · rw [PromptScript.locate, Nat.add_sub_cancel, count]
    rcases ends with rfl | ⟨front, rfl⟩
    · rw [whole, List.nil_append, parts]
      rfl
    · rw [whole, List.append_assoc, List.singleton_append,
        pieces_append_of_separates (p := (· = '\n')) (decide_eq_true rfl), parts]
      have index : (front ++ ['\n']).count '\n' = (pieces (· = '\n') front).length := by
        rw [length_pieces, List.count_append]
        rfl
      rw [index, List.getElem?_append_right (Nat.le_refl _), Nat.sub_self]
      rfl
  · rw [PromptScript.locate, ← length, List.length_append]
    exact Nat.succ_le_succ (Nat.le_add_right _ _)

end PromptScript.Source.Bytes
