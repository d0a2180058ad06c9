import Mathlib
import PromptScript.Proofs.Text.CharClass
import PromptScript.Proofs.Text.Span

/-!
Line breaks that are written another way: behind a carriage return, or with spaces in front of what stands
on the next line. As a break is made of blanks, it stands between the same parts of a text as the newline
does that it is written for.
-/
namespace PromptScript.Text

/-- How the newlines of a text are written: perhaps behind a carriage return, and with a margin of spaces
on the next line. -/
structure Break where
  carriageReturn : Bool
  margin : Nat
deriving DecidableEq, Repr

namespace Break

/-- A newline as it is. -/
def plain : Break :=
  ⟨false, 0⟩

/-- What stands in front of the newline. -/
def before (b : Break) : List Char :=
  if b.carriageReturn then ['\r'] else []

/-- What a newline is written as. -/
def text (b : Break) : List Char :=
  b.before ++ '\n' :: List.replicate b.margin ' '

/-- What a character of a text is written as. -/
def char (b : Break) (c : Char) : List Char :=
  if c = '\n' then b.text else [c]

/-- The text with each newline written as the break. -/
def write (b : Break) (text : List Char) : List Char :=
  text.flatMap b.char

variable {b : Break} {c : Char} {n : Nat} {text front rest written : List Char} {p : Char → Bool}

@[simp] theorem write_nil (b : Break) : b.write [] = [] := rfl

@[simp] theorem write_append (b : Break) (front rest : List Char) :
    b.write (front ++ rest) = b.write front ++ b.write rest :=
  List.flatMap_append

theorem write_cons (b : Break) (c : Char) (rest : List Char) :
    b.write (c :: rest) = b.char c ++ b.write rest :=
  List.flatMap_cons

theorem char_newline (b : Break) : b.char '\n' = b.text := rfl

theorem char_of_ne (other : c ≠ '\n') : b.char c = [c] :=
  if_neg other

theorem write_newline (b : Break) (rest : List Char) :
    b.write ('\n' :: rest) = b.text ++ b.write rest :=
  b.write_cons '\n' rest

theorem write_cons_of_ne (other : c ≠ '\n') (rest : List Char) :
    b.write (c :: rest) = c :: b.write rest := by
  rw [write_cons, char_of_ne other, List.singleton_append]

/-- On one line there is no break to write. -/
theorem write_of_single (single : '\n' ∉ text) : b.write text = text := by
  induction text with
  | nil => rfl
  | cons c rest ih =>
    rw [List.mem_cons, not_or] at single
    rw [write_cons_of_ne (Ne.symm single.1), ih single.2]

theorem plain_write (text : List Char) : plain.write text = text := by
  induction text with
  | nil => rfl
  | cons c rest ih =>
    by_cases newline : c = '\n'
    · subst newline
      rw [write_newline, ih]
      rfl
    · rw [write_cons_of_ne newline, ih]

theorem mem_text (member : c ∈ b.text) : c = '\r' ∨ c = '\n' ∨ c = ' ' := by
  simp only [text, before, List.mem_append, List.mem_cons, List.mem_replicate] at member
  rcases member with front | newline | ⟨-, space⟩
  · split at front
    · exact .inl (List.mem_singleton.mp front)
    · cases front
  · exact .inr (.inl newline)
  · exact .inr (.inr space)

/-- A break starts with a carriage return or a newline. -/
theorem exists_head (b : Break) : ∃ c more, b.text = c :: more ∧ (c = '\r' ∨ c = '\n') := by
  unfold text before
  split
  · exact ⟨_, _, rfl, .inl rfl⟩
  · exact ⟨_, _, rfl, .inr rfl⟩

theorem isBlank_of_mem_text (member : c ∈ b.text) : isBlank c = true := by
  rcases mem_text member with rfl | rfl | rfl <;> decide

theorem newline_mem_write_iff : '\n' ∈ b.write text ↔ '\n' ∈ text := by
  constructor
  · intro member
    by_contra single
    rw [write_of_single single] at member
    exact single member
  · intro member
    refine List.mem_flatMap.mpr ⟨'\n', member, ?_⟩
    simp [char_newline, Break.text]

theorem write_eq_nil_iff : b.write text = [] ↔ text = [] := by
  constructor
  · intro nothing
    cases text with
    | nil => rfl
    | cons c rest =>
      rw [write_cons, List.append_eq_nil_iff] at nothing
      by_cases newline : c = '\n'
      · subst newline
        obtain ⟨_, _, shown, -⟩ := b.exists_head
        rw [char_newline, shown] at nothing
        exact absurd nothing.1 (List.cons_ne_nil _ _)
      · rw [char_of_ne newline] at nothing
        exact absurd nothing.1 (List.cons_ne_nil _ _)
  · rintro rfl
    rfl

/-- What starts with a character that is in no break starts with it already before. -/
theorem write_eq_cons_iff (other : c ∉ b.text) :
    b.write text = c :: written ↔ ∃ rest, text = c :: rest ∧ b.write rest = written := by
  have noNewline : c ≠ '\n' := by
    rintro rfl
    exact other (by simp [Break.text])
  constructor
  · intro shown
    cases text with
    | nil => cases shown
    | cons d rest =>
      by_cases newline : d = '\n'
      · subst newline
        obtain ⟨first, more, head, -⟩ := b.exists_head
        rw [write_newline, head, List.cons_append, List.cons.injEq] at shown
        exact absurd (head ▸ shown.1 ▸ List.mem_cons_self) other
      · rw [write_cons_of_ne newline, List.cons.injEq] at shown
        exact ⟨rest, by rw [shown.1], shown.2⟩
  · rintro ⟨rest, rfl, rfl⟩
    exact write_cons_of_ne noNewline rest

theorem not_mem_text_of_visible (visible : isBlank c = false) : c ∉ b.text := by
  intro member
  rw [isBlank_of_mem_text member] at visible
  cases visible

/-- A visible character stands first in both texts or in neither. -/
theorem head?_write_iff (visible : isBlank c = false) :
    (b.write text).head? = some c ↔ text.head? = some c := by
  rw [List.head?_eq_some_iff, List.head?_eq_some_iff]
  constructor
  · rintro ⟨more, shown⟩
    obtain ⟨rest, same, -⟩ := (write_eq_cons_iff (not_mem_text_of_visible visible)).mp shown
    exact ⟨rest, same⟩
  · rintro ⟨rest, same⟩
    exact ⟨_, (write_eq_cons_iff (not_mem_text_of_visible visible)).mpr ⟨rest, same, rfl⟩⟩

/-- A visible word stands first in both texts or in neither. -/
theorem write_word (word : List Char) (visible : word.all (!isBlank ·) = true) :
    (∃ rest, b.write text = word ++ rest) ↔ ∃ rest, text = word ++ rest := by
  induction word generalizing text with
  | nil => exact ⟨fun _ => ⟨text, rfl⟩, fun _ => ⟨b.write text, rfl⟩⟩
  | cons c more ih =>
    rw [List.all_cons, Bool.and_eq_true, Bool.not_eq_true'] at visible
    obtain ⟨here, others⟩ := visible
    constructor
    · rintro ⟨rest, shown⟩
      obtain ⟨behind, rfl, later⟩ :=
        (write_eq_cons_iff (not_mem_text_of_visible here)).mp shown
      obtain ⟨rest, rfl⟩ := (ih others).mp ⟨rest, later⟩
      exact ⟨rest, rfl⟩
    · rintro ⟨rest, rfl⟩
      obtain ⟨behind, later⟩ := (ih others).mpr ⟨rest, rfl⟩
      refine ⟨behind, ?_⟩
      rw [List.cons_append, List.cons_append, ← later]
      exact (write_eq_cons_iff (not_mem_text_of_visible here)).mpr ⟨_, rfl, rfl⟩

theorem isPrefixOf_write (word : List Char) (visible : word.all (!isBlank ·) = true) :
    word.isPrefixOf (b.write text) = word.isPrefixOf text := by
  have found : (∃ rest, b.write text = word ++ rest) ↔ ∃ rest, text = word ++ rest :=
    write_word word visible
  simp only [@eq_comm _ _ (word ++ _)] at found
  rw [Bool.eq_iff_iff, List.isPrefixOf_iff_prefix, List.isPrefixOf_iff_prefix]
  exact found

/-- A text on one line is written only as itself. -/
theorem write_eq_iff (single : '\n' ∉ rest) : b.write text = rest ↔ text = rest := by
  constructor
  · rintro rfl
    rw [newline_mem_write_iff] at single
    exact (write_of_single single).symm
  · rintro rfl
    exact write_of_single single

/-- Before the first break both texts are the same. -/
theorem take_write (single : '\n' ∉ text.take n) : (b.write text).take n = text.take n := by
  conv_lhs => rw [← List.take_append_drop n text]
  rw [write_append, write_of_single single]
  by_cases short : text.length ≤ n
  · rw [List.drop_eq_nil_of_le short, write_nil, List.append_nil, List.take_of_length_le short,
      List.take_of_length_le short]
  · rw [List.take_append_of_le_length (by rw [List.length_take]; omega), List.take_take, min_self]

theorem drop_write (single : '\n' ∉ text.take n) : (b.write text).drop n = b.write (text.drop n) := by
  conv_lhs => rw [← List.take_append_drop n text]
  rw [write_append, write_of_single single]
  by_cases short : text.length ≤ n
  · rw [List.drop_eq_nil_of_le short, write_nil, List.append_nil, List.take_of_length_le short,
      List.drop_eq_nil_of_le short]
  · have length : (text.take n).length = n := by rw [List.length_take]; omega
    nth_rewrite 1 [← length]
    exact List.drop_left

/-- Behind as many characters as a front part is written with, the rest is written. -/
theorem drop_length_write (b : Break) (n : Nat) (text : List Char) :
    (b.write text).drop (b.write (text.take n)).length = b.write (text.drop n) := by
  conv_lhs => rw [← List.take_append_drop n text, write_append]
  rw [List.take_append_drop, List.drop_left]

theorem take_length_write (b : Break) (n : Nat) (text : List Char) :
    (b.write text).take (b.write (text.take n)).length = b.write (text.take n) := by
  conv_lhs => rw [← List.take_append_drop n text, write_append]
  rw [List.take_append_drop, List.take_left]

/-! ### Spans -/

/-- Where a span ends at a newline, it ends at the break as well. -/
theorem takeWhile_write (newline : p '\n' = false) (carriage : p '\r' = false) (text : List Char) :
    (b.write text).takeWhile p = text.takeWhile p := by
  induction text with
  | nil => rfl
  | cons c rest ih =>
    by_cases here : c = '\n'
    · subst here
      obtain ⟨first, more, head, which⟩ := b.exists_head
      have ends : p first = false := by rcases which with rfl | rfl <;> assumption
      rw [write_newline, head, List.cons_append, List.takeWhile_cons_of_neg (by simp [ends]),
        List.takeWhile_cons_of_neg (by simp [newline])]
    · rw [write_cons_of_ne here, List.takeWhile_cons, List.takeWhile_cons, ih]

theorem dropWhile_write (newline : p '\n' = false) (carriage : p '\r' = false) (text : List Char) :
    (b.write text).dropWhile p = b.write (text.dropWhile p) := by
  induction text with
  | nil => rfl
  | cons c rest ih =>
    by_cases here : c = '\n'
    · subst here
      obtain ⟨first, more, head, which⟩ := b.exists_head
      have ends : p first = false := by rcases which with rfl | rfl <;> assumption
      rw [List.dropWhile_cons_of_neg (by simp [newline]), write_newline, head, List.cons_append,
        List.dropWhile_cons_of_neg (by simp [ends])]
    · rw [write_cons_of_ne here, List.dropWhile_cons, List.dropWhile_cons]
      split
      · exact ih
      · exact (write_cons_of_ne here rest).symm

/-- Where a span goes on over a newline, it goes on over the break as well. -/
theorem dropWhile_write_of_blanks (newline : p '\n' = true) (carriage : p '\r' = true)
    (space : p ' ' = true) (text : List Char) :
    (b.write text).dropWhile p = b.write (text.dropWhile p) := by
  induction text with
  | nil => rfl
  | cons c rest ih =>
    by_cases here : c = '\n'
    · subst here
      have inside : ∀ d ∈ b.text, p d = true := by
        intro d member
        rcases mem_text member with rfl | rfl | rfl <;> assumption
      rw [write_newline, List.dropWhile_append_of_pos inside, List.dropWhile_cons_of_pos newline, ih]
    · rw [write_cons_of_ne here, List.dropWhile_cons, List.dropWhile_cons]
      split
      · exact ih
      · exact (write_cons_of_ne here rest).symm

theorem takeWhile_write_of_blanks (newline : p '\n' = true) (carriage : p '\r' = true)
    (space : p ' ' = true) (text : List Char) :
    (b.write text).takeWhile p = b.write (text.takeWhile p) := by
  -- Both parts of a text that is cut are written, and the second one is known.
  have whole := List.takeWhile_append_dropWhile (p := p) (l := b.write text)
  rw [dropWhile_write_of_blanks newline carriage space] at whole
  refine List.append_cancel_right (whole.trans ?_)
  rw [← write_append, List.takeWhile_append_dropWhile]

theorem trimStart_write (b : Break) (text : List Char) :
    trimStart (b.write text) = b.write (trimStart text) :=
  dropWhile_write_of_blanks (by decide) (by decide) (by decide) text

theorem any_head?_write (newline : p '\n' = p '\r') (text : List Char) :
    (b.write text).head?.any p = text.head?.any p := by
  cases text with
  | nil => rfl
  | cons c rest =>
    by_cases here : c = '\n'
    · subst here
      obtain ⟨first, more, head, which⟩ := b.exists_head
      rw [write_newline, head]
      rcases which with rfl | rfl <;> simp [newline]
    · rw [write_cons_of_ne here]
      rfl

theorem bars_write (newline : p '\n' = p '\r') (bars : Bars p text) : Bars p (b.write text) := by
  have none : ∀ text : List Char, Bars p text ↔ text.head?.any p = false := by
    intro text
    cases text <;> simp [Bars]
  rw [none] at bars ⊢
  rw [any_head?_write newline, bars]

theorem trimEnd_cons (c : Char) (rest : List Char) : trimEnd (c :: rest) =
    if (trimEnd rest).isEmpty then (if isBlank c then [] else [c]) else c :: trimEnd rest := by
  have whole := trimEnd_append [c] rest
  have one : trimEnd [c] = if isBlank c then [] else [c] := by
    cases blank : isBlank c <;> simp [trimEnd, trimEndOf, blank]
  rw [one] at whole
  exact whole

theorem trimEnd_text (b : Break) : trimEnd b.text = [] :=
  trimEnd_eq_nil_iff.mpr fun _ member => isBlank_of_mem_text member

theorem trimEnd_write (b : Break) (text : List Char) :
    trimEnd (b.write text) = b.write (trimEnd text) := by
  induction text with
  | nil => rfl
  | cons c rest ih =>
    have nothing : (b.write (trimEnd rest)).isEmpty = (trimEnd rest).isEmpty := by
      rw [Bool.eq_iff_iff, List.isEmpty_iff, List.isEmpty_iff, write_eq_nil_iff]
    by_cases here : c = '\n'
    · subst here
      have blank : isBlank '\n' = true := by decide
      rw [write_newline, trimEnd_append, ih, nothing, trimEnd_text, trimEnd_cons, blank]
      split
      · rfl
      · rw [write_newline]
    · rw [write_cons_of_ne here, trimEnd_cons, trimEnd_cons, ih, nothing]
      split
      · split
        · rfl
        · exact (write_of_single (by simpa using Ne.symm here)).symm
      · exact (write_cons_of_ne here _).symm

theorem trim_write (b : Break) (text : List Char) : trim (b.write text) = b.write (trim text) := by
  rw [trim, trimStart_write, trimEnd_write, trim]

/-! ### Lengths -/

/-- The first `n` characters of a text are written with `m` characters. -/
def Measures (b : Break) (text : List Char) (n m : Nat) : Prop :=
  n ≤ text.length ∧ m = (b.write (text.take n)).length

namespace Measures

variable {m k : Nat}

theorem of_append (b : Break) (front rest : List Char) :
    b.Measures (front ++ rest) front.length (b.write front).length := by
  refine ⟨?_, by rw [List.take_left]⟩
  rw [List.length_append]
  exact Nat.le_add_right _ _

theorem exists_append (h : b.Measures text n m) : ∃ front rest,
    text = front ++ rest ∧ n = front.length ∧ m = (b.write front).length :=
  ⟨text.take n, text.drop n, (List.take_append_drop n text).symm,
    (List.length_take_of_le h.1).symm, h.2⟩

theorem whole (b : Break) (text : List Char) : b.Measures text text.length (b.write text).length := by
  have := of_append b text []
  rwa [List.append_nil] at this

/-- Characters on one line are written as they are. -/
theorem single (single : '\n' ∉ front) (rest : List Char) :
    b.Measures (front ++ rest) front.length front.length := by
  have := of_append b front rest
  rwa [write_of_single single] at this

theorem of_takeWhile (newline : p '\n' = false) (text : List Char) :
    b.Measures text (text.takeWhile p).length (text.takeWhile p).length := by
  have alone : '\n' ∉ text.takeWhile p := by
    intro member
    rw [List.mem_takeWhile_imp member] at newline
    cases newline
  have := Measures.single (b := b) alone (text.dropWhile p)
  rwa [List.takeWhile_append_dropWhile] at this

theorem plain (short : n ≤ text.length) : Break.plain.Measures text n n := by
  refine ⟨short, ?_⟩
  rw [plain_write, List.length_take_of_le short]

theorem zero (b : Break) (text : List Char) : b.Measures text 0 0 :=
  of_append b [] text

theorem add (h : b.Measures (front ++ rest) front.length m) (h' : b.Measures rest n k) :
    b.Measures (front ++ rest) (front.length + n) (m + k) := by
  obtain ⟨used, behind, rfl, rfl, rfl⟩ := h'.exists_append
  have := of_append b (front ++ used) behind
  rwa [List.append_assoc, List.length_append, write_append, List.length_append,
    show (b.write front).length = m by rw [h.2, List.take_left]] at this

theorem cons (other : c ≠ '\n') (h : b.Measures rest n m) : b.Measures (c :: rest) (n + 1) (m + 1) := by
  have here : b.Measures ([c] ++ rest) [c].length [c].length :=
    .single (by simpa using Ne.symm other) rest
  have := here.add h
  rwa [List.length_singleton, Nat.add_comm 1, Nat.add_comm 1] at this

theorem newline (h : b.Measures rest n m) :
    b.Measures ('\n' :: rest) (n + 1) (b.text.length + m) := by
  have here := (of_append b ['\n'] rest).add h
  rw [List.length_singleton, Nat.add_comm 1, write_newline, write_nil, List.append_nil] at here
  exact here

theorem drop_write (h : b.Measures text n m) : (b.write text).drop m = b.write (text.drop n) := by
  rw [h.2, drop_length_write]

theorem take_write (h : b.Measures text n m) : (b.write text).take m = b.write (text.take n) := by
  rw [h.2, take_length_write]

theorem drop (h : b.Measures text n m) {n' m' : Nat} (h' : b.Measures (text.drop n) n' m') :
    b.Measures text (n + n') (m + m') := by
  obtain ⟨front, rest, rfl, rfl, rfl⟩ := h.exists_append
  rw [List.drop_left] at h'
  exact (of_append b front rest).add h'

end Measures

/-! ### Searches -/

theorem find?_blanks {sought : List Char} (visible : ∀ c ∈ sought.head?, isBlank c = false)
    (nonempty : sought ≠ []) (blank : ∀ c ∈ front, isBlank c = true) (rest : List Char) :
    find? sought (front ++ rest) = (find? sought rest).map (front.length + ·) := by
  induction front with
  | nil => simp
  | cons d more ih =>
    obtain ⟨here, others⟩ := List.forall_mem_cons.mp blank
    have other : sought.isPrefixOf (d :: (more ++ rest)) = false := by
      obtain ⟨c, behind, rfl⟩ := List.exists_cons_of_ne_nil nonempty
      have apart : c ≠ d := by
        rintro rfl
        rw [visible c rfl] at here
        cases here
      simp [List.isPrefixOf, apart]
    rw [List.cons_append, find?, if_neg (by simp [other]), ih others, Option.map_map]
    congr 1
    funext n
    simp only [Function.comp_apply, List.length_cons]
    omega

/-- A visible word is found at the same place, and is as long in both texts. -/
theorem find?_measures (sought : List Char) (visible : sought.all (!isBlank ·) = true)
    (nonempty : sought ≠ []) (text : List Char) :
    Option.Rel (fun n m => b.Measures text n m ∧
        b.Measures text (n + sought.length) (m + sought.length))
      (find? sought text) (find? sought (b.write text)) := by
  have seen : ∀ c ∈ sought, isBlank c = false := by simpa using visible
  have start : ∀ c ∈ sought.head?, isBlank c = false :=
    fun c member => seen c (List.mem_of_mem_head? member)
  induction text with
  | nil =>
    rw [write_nil, find?, if_neg (by simpa using nonempty)]
    exact .none
  | cons c rest ih =>
    by_cases here : c = '\n'
    · subst here
      have apart : sought.isPrefixOf ('\n' :: rest) = false := by
        obtain ⟨c, behind, rfl⟩ := List.exists_cons_of_ne_nil nonempty
        have other : c ≠ '\n' := by
          rintro rfl
          exact absurd (start '\n' rfl) (by decide)
        simp [List.isPrefixOf, other]
      rw [write_newline, find?_blanks start nonempty (fun _ => isBlank_of_mem_text), find?,
        if_neg (by simp [apart])]
      generalize find? sought rest = found, find? sought (b.write rest) = found' at ih
      cases ih with
      | none => exact .none
      | some related =>
        refine .some ⟨related.1.newline, ?_⟩
        have := related.2.newline
        rwa [← Nat.add_assoc, Nat.add_right_comm] at this
    · have whole : sought.isPrefixOf (b.write (c :: rest)) = sought.isPrefixOf (c :: rest) :=
        isPrefixOf_write sought visible
      rw [write_cons_of_ne here] at whole ⊢
      rw [find?, find?, whole]
      split
      · next found =>
        obtain ⟨behind, same⟩ := List.isPrefixOf_iff_prefix.mp found
        have single : '\n' ∉ sought := fun member => absurd (seen '\n' member) (by decide)
        have measures := Measures.single (b := b) single behind
        rw [same] at measures
        refine .some ⟨.zero b _, ?_⟩
        rwa [Nat.zero_add]
      · generalize find? sought rest = found, find? sought (b.write rest) = found' at ih
        cases ih with
        | none => exact .none
        | some related =>
          refine .some ⟨related.1.cons here, ?_⟩
          have := related.2.cons here
          rwa [Nat.add_right_comm, Nat.add_right_comm _ sought.length] at this

/-! ### Texts to which a break does little -/

/-- Writing the break changes nothing in a text. -/
def Idle (b : Break) (text : List Char) : Prop :=
  b = plain ∨ '\n' ∉ text

/-- No backslash takes a part of a break with it that is not the newline itself. -/
def Untaken (b : Break) (text : List Char) : Prop :=
  b = plain ∨ ¬['\\', '\n'] <:+: text

theorem Idle.write_eq (idle : b.Idle text) : b.write text = text := by
  rcases idle with rfl | single
  · exact plain_write text
  · exact write_of_single single

theorem Idle.of_subset (idle : b.Idle text) (inside : ∀ c ∈ rest, c ∈ text) : b.Idle rest :=
  idle.imp_right fun single member => single (inside _ member)

theorem Untaken.of_infix (untaken : b.Untaken text) (inside : rest <:+: text) : b.Untaken rest :=
  untaken.imp_right fun none taken => none (taken.trans inside)

theorem Untaken.tail (untaken : b.Untaken (c :: rest)) : b.Untaken rest :=
  untaken.of_infix (List.suffix_cons c rest).isInfix

theorem write_taken (untaken : b.Untaken ('\\' :: c :: rest)) :
    b.write ('\\' :: c :: rest) = '\\' :: c :: b.write rest := by
  rcases untaken with rfl | none
  · simp only [plain_write]
  · have noNewline : c ≠ '\n' := by
      rintro rfl
      exact none ⟨[], rest, rfl⟩
    rw [write_cons_of_ne (by decide), write_cons_of_ne noNewline]

theorem Measures.of_idle (idle : b.Idle text) (short : n ≤ text.length) : b.Measures text n n := by
  refine ⟨short, ?_⟩
  rw [(idle.of_subset fun _ => List.mem_of_mem_take).write_eq, List.length_take_of_le short]

theorem Measures.taken {m : Nat} (untaken : b.Untaken ('\\' :: c :: rest)) (h : b.Measures rest n m) :
    b.Measures ('\\' :: c :: rest) (n + 2) (m + 2) := by
  refine ⟨Nat.add_le_add_right h.1 2, ?_⟩
  rw [List.take_succ_cons, List.take_succ_cons, write_taken (untaken.of_infix ?_), List.length_cons,
    List.length_cons, h.2]
  exact (List.take_prefix (n + 2) ('\\' :: c :: rest)).isInfix

end Break

end PromptScript.Text
