import Mathlib
import PromptScript.Text.Trim

/-!
Spans of characters of one class: how far they reach, and what separators leave of a text.
-/
namespace PromptScript.Text

/-- A text that no span of a class reaches into. -/
def Bars (p : Char → Bool) (rest : List Char) : Prop :=
  ∀ c ∈ rest.head?, p c = false

variable {p : Char → Bool} {text rest : List Char}

theorem bars_nil : Bars p [] :=
  nofun

theorem bars_cons {c : Char} (h : p c = false) : Bars p (c :: rest) := by
  intro d member
  cases member
  exact h

/-- A text that starts with some other text, which is not empty, bars what that one bars. -/
theorem bars_append (nonempty : text ≠ []) (h : Bars p text) : Bars p (text ++ rest) := by
  cases text with
  | nil => exact absurd rfl nonempty
  | cons c more => exact bars_cons (h c rfl)

theorem bars_dropWhile (p : Char → Bool) (text : List Char) : Bars p (text.dropWhile p) := by
  intro c member
  have first := List.head?_dropWhile_not p text
  rwa [Option.mem_def.mp member] at first

theorem takeWhile_append_of_bars (all : ∀ c ∈ text, p c = true) (bars : Bars p rest) :
    (text ++ rest).takeWhile p = text := by
  have nothing : rest.takeWhile p = [] := by
    cases rest with
    | nil => rfl
    | cons c more => exact List.takeWhile_cons_of_neg (by simp [bars c rfl])
  rw [List.takeWhile_append_of_pos all, nothing, List.append_nil]

theorem takeWhile_append_cons {c : Char} (h : p c = false) (text rest : List Char) :
    (text ++ c :: rest).takeWhile p = text.takeWhile p := by
  induction text with
  | nil => exact List.takeWhile_cons_of_neg (by simp [h])
  | cons d more ih => simp [List.takeWhile_cons, ih]

theorem takeWhile_append_bars (bars : Bars p rest) (text : List Char) :
    (text ++ rest).takeWhile p = text.takeWhile p := by
  cases rest with
  | nil => rw [List.append_nil]
  | cons c more => exact takeWhile_append_cons (bars c rfl) text more

theorem any_head?_append_of_bars (bars : Bars p rest) (text : List Char) :
    (text ++ rest).head?.any p = text.head?.any p := by
  cases text with
  | cons c more => rfl
  | nil =>
    cases rest with
    | nil => rfl
    | cons d more => exact bars d rfl

theorem dropWhile_of_bars (bars : Bars p rest) : rest.dropWhile p = rest := by
  cases rest with
  | nil => rfl
  | cons c more => exact List.dropWhile_cons_of_neg (by simp [bars c rfl])

theorem dropWhile_append_of_bars (all : ∀ c ∈ text, p c = true) (bars : Bars p rest) :
    (text ++ rest).dropWhile p = rest := by
  rw [List.dropWhile_append_of_pos all, dropWhile_of_bars bars]

theorem splitOnce?_append {separator : Char} (absent : separator ∉ text) (rest : List Char) :
    splitOnce? separator (text ++ separator :: rest) = some (text, rest) := by
  induction text with
  | nil => rw [List.nil_append, splitOnce?, if_pos rfl]
  | cons c more ih =>
    rw [List.mem_cons, not_or] at absent
    rw [List.cons_append, splitOnce?, if_neg (Ne.symm absent.1), ih absent.2, Option.map_some]

/-! ### Blanks at the end -/

theorem trimEnd_append (front back : List Char) : trimEnd (front ++ back) =
    if (trimEnd back).isEmpty then trimEnd front else front ++ trimEnd back := by
  simp only [trimEnd, trimEndOf, List.reverse_append, List.dropWhile_append, List.isEmpty_reverse]
  split
  · rfl
  · rw [List.reverse_append, List.reverse_reverse]

theorem trimEnd_eq_nil_iff : trimEnd text = [] ↔ ∀ c ∈ text, isBlank c = true := by
  simp [trimEnd, trimEndOf]

theorem isPrefix_trimEndOf (drops : Char → Bool) (text : List Char) : trimEndOf drops text <+: text := by
  rw [trimEndOf, ← List.reverse_suffix, List.reverse_reverse]
  exact List.dropWhile_suffix drops

theorem exists_trimEndOf (drops : Char → Bool) (text : List Char) :
    ∃ dropped, text = trimEndOf drops text ++ dropped ∧ ∀ c ∈ dropped, drops c = true := by
  refine ⟨(text.reverse.takeWhile drops).reverse, ?_, fun c member => ?_⟩
  · rw [trimEndOf, ← List.reverse_append, List.takeWhile_append_dropWhile, List.reverse_reverse]
  · exact List.mem_takeWhile_imp (List.mem_reverse.mp member)

theorem exists_blanks (text : List Char) :
    ∃ blanks, text = trimEnd text ++ blanks ∧ ∀ c ∈ blanks, isBlank c = true :=
  exists_trimEndOf isBlank text

theorem trimEndOf_append_cons {drops : Char → Bool} {c : Char} (kept : drops c = false)
    (front rest : List Char) :
    trimEndOf drops (front ++ c :: rest) = front ++ c :: trimEndOf drops rest := by
  have stops : (c :: front.reverse).dropWhile drops = c :: front.reverse :=
    List.dropWhile_cons_of_neg (by simp [kept])
  unfold trimEndOf
  rw [List.reverse_append, List.reverse_cons, List.append_assoc, List.singleton_append,
    List.dropWhile_append, stops]
  split
  · next nothing => rw [List.isEmpty_iff.mp nothing]; simp
  · simp

theorem trim_of_visible (visible : ∀ c ∈ text, isBlank c = false) : trim text = text := by
  have bars : Bars isBlank text := fun c member => visible c (List.mem_of_mem_head? member)
  have bars' : Bars isBlank text.reverse :=
    fun c member => visible c (List.mem_reverse.mp (List.mem_of_mem_head? member))
  rw [trim, trimStart, dropWhile_of_bars bars, trimEnd, trimEndOf, dropWhile_of_bars bars',
    List.reverse_reverse]

theorem trim_append_of_blank {blanks : List Char} (blank : ∀ c ∈ blanks, isBlank c = true)
    (text : List Char) : trim (text ++ blanks) = trim text := by
  unfold trim trimStart
  rw [List.dropWhile_append]
  split
  · next nothing =>
    rw [List.isEmpty_iff.mp nothing, List.dropWhile_eq_nil_iff.mpr blank]
  · rw [trimEnd_append, trimEnd_eq_nil_iff.mpr blank]
    rfl

/-! ### Pieces -/

/-- A text without separators is one piece. -/
theorem pieces_of_forall (none : ∀ c ∈ text, p c = false) : pieces p text = [text] := by
  induction text with
  | nil => rfl
  | cons c more ih =>
    have later := ih fun d member => none d (List.mem_cons_of_mem c member)
    simp [pieces, none c List.mem_cons_self, later]

theorem pieces_cons_of_separates {c : Char} (h : p c = true) (rest : List Char) :
    pieces p (c :: rest) = [] :: pieces p rest := by
  simp [pieces, h]

theorem pieces_cons_of_not {c : Char} (h : p c = false) (rest : List Char) :
    ∃ first more, pieces p rest = first :: more ∧ pieces p (c :: rest) = (c :: first) :: more := by
  obtain ⟨first, more, parts⟩ := List.exists_cons_of_ne_nil (pieces_ne_nil p rest)
  exact ⟨first, more, parts, by simp [pieces, h, parts]⟩

/-- Every character of a text separates, or stands in a piece. -/
theorem exists_piece {c : Char} (member : c ∈ text) (h : p c = false) :
    ∃ piece ∈ pieces p text, c ∈ piece := by
  induction text with
  | nil => cases member
  | cons d rest ih =>
    cases separates : p d with
    | true =>
      have later : c ∈ rest := by
        rcases List.mem_cons.mp member with rfl | later
        · rw [h] at separates
          cases separates
        · exact later
      obtain ⟨piece, inside, holds⟩ := ih later
      rw [pieces_cons_of_separates separates]
      exact ⟨piece, List.mem_cons_of_mem _ inside, holds⟩
    | false =>
      obtain ⟨first, more, parts, whole⟩ := pieces_cons_of_not separates rest
      rw [whole]
      rcases List.mem_cons.mp member with rfl | later
      · exact ⟨c :: first, List.mem_cons_self, List.mem_cons_self⟩
      · obtain ⟨piece, inside, holds⟩ := ih later
        rw [parts] at inside
        rcases List.mem_cons.mp inside with rfl | other
        · exact ⟨d :: piece, List.mem_cons_self, List.mem_cons_of_mem d holds⟩
        · exact ⟨piece, List.mem_cons_of_mem _ other, holds⟩

/-- What stands in a piece stands in the text, and does not separate. -/
theorem of_mem_pieces {piece : List Char} (member : piece ∈ pieces p text) :
    ∀ c ∈ piece, c ∈ text ∧ p c = false := by
  induction text generalizing piece with
  | nil =>
    rw [pieces, List.mem_singleton] at member
    subst member
    exact List.forall_mem_nil _
  | cons d rest ih =>
    cases separates : p d with
    | true =>
      rw [pieces_cons_of_separates separates] at member
      rcases List.mem_cons.mp member with rfl | later
      · exact List.forall_mem_nil _
      · exact fun c inside => (ih later c inside).imp_left (List.mem_cons_of_mem d)
    | false =>
      obtain ⟨first, more, parts, whole⟩ := pieces_cons_of_not separates rest
      rw [parts] at ih
      rw [whole] at member
      intro c inside
      rcases List.mem_cons.mp member with rfl | later
      · rcases List.mem_cons.mp inside with rfl | behind
        · exact ⟨List.mem_cons_self, separates⟩
        · exact (ih List.mem_cons_self c behind).imp_left (List.mem_cons_of_mem d)
      · exact (ih (List.mem_cons_of_mem first later) c inside).imp_left (List.mem_cons_of_mem d)

/-- The pieces in front of a separator and those behind it. -/
theorem pieces_append_of_separates {c : Char} (h : p c = true) (text rest : List Char) :
    pieces p (text ++ c :: rest) = pieces p text ++ pieces p rest := by
  induction text with
  | nil => exact pieces_cons_of_separates h rest
  | cons d more ih =>
    cases here : p d with
    | true =>
      rw [List.cons_append, pieces_cons_of_separates here, pieces_cons_of_separates here, ih]
      rfl
    | false =>
      obtain ⟨first, others, parts, whole⟩ := pieces_cons_of_not here more
      rw [parts] at ih
      rw [List.cons_append, whole]
      simp [pieces, here, ih]

/-- Up to the first separator there is one piece. -/
theorem pieces_append_cons {c : Char} (none : ∀ d ∈ text, p d = false) (h : p c = true)
    (rest : List Char) : pieces p (text ++ c :: rest) = text :: pieces p rest := by
  rw [pieces_append_of_separates h, pieces_of_forall none, List.singleton_append]

/-- Pieces joined by a separator are split again. -/
theorem pieces_intercalate {c : Char} {parts : List (List Char)} (nonempty : parts ≠ [])
    (h : p c = true) (none : ∀ part ∈ parts, ∀ d ∈ part, p d = false) :
    pieces p ([c].intercalate parts) = parts := by
  induction parts with
  | nil => exact absurd rfl nonempty
  | cons part others ih =>
    have here := none part List.mem_cons_self
    cases others with
    | nil => simpa using pieces_of_forall here
    | cons next more =>
      have later := ih (List.cons_ne_nil next more) fun other member =>
        none other (List.mem_cons_of_mem part member)
      rw [List.intercalate_cons_cons, List.append_assoc, List.singleton_append,
        pieces_append_cons here h, later]

/-- What holds of some texts and of a separator holds of the texts joined by it. -/
theorem intercalate_induction {q : List Char → Prop} {separator : List Char}
    {texts : List (List Char)} (nil : q [])
    (append : ∀ {front back}, q front → q back → q (front ++ back))
    (between : q separator) (each : ∀ text ∈ texts, q text) :
    q (separator.intercalate texts) := by
  induction texts with
  | nil => exact nil
  | cons text others ih =>
    obtain ⟨here, later⟩ := List.forall_mem_cons.mp each
    cases others with
    | nil => rwa [List.intercalate_singleton]
    | cons next more =>
      rw [List.intercalate_cons_cons]
      exact append (append here between) (ih later)

theorem mem_dropWhile {c : Char} (member : c ∈ text) (kept : p c = false) :
    c ∈ text.dropWhile p := by
  rw [← List.takeWhile_append_dropWhile (p := p) (l := text), List.mem_append] at member
  rcases member with dropped | later
  · rw [List.mem_takeWhile_imp dropped] at kept
    cases kept
  · exact later

theorem mem_trim {c : Char} (member : c ∈ text) (visible : isBlank c = false) : c ∈ trim text :=
  List.mem_reverse.mpr (mem_dropWhile (List.mem_reverse.mpr (mem_dropWhile member visible)) visible)

/-- What is found stands where it is found. -/
theorem prefix_of_find? {sought : List Char} {n : Nat} (h : find? sought text = some n) :
    sought <+: text.drop n := by
  induction text generalizing n with
  | nil =>
    simp only [find?] at h
    split at h
    · next empty =>
      rw [List.isEmpty_iff.mp empty]
      exact List.nil_prefix
    · cases h
  | cons c rest ih =>
    simp only [find?] at h
    split at h
    · next here =>
      cases h
      exact List.isPrefixOf_iff_prefix.mp here
    · obtain ⟨m, later, rfl⟩ := Option.map_eq_some_iff.mp h
      exact ih later

end PromptScript.Text
