import PromptScript.Agent.Command
import Mathlib.Data.List.TakeDrop

/-!
Slices of texts, whose bounds count bytes. A slice is taken only between two characters; for every
other pair of bounds there is none.
-/
namespace PromptScript.Text

open Command (byteLength)

/-! ### The length in bytes -/

theorem byteLength_append (text rest : List Char) :
    byteLength (text ++ rest) = byteLength text + byteLength rest := by
  simp only [byteLength, String.ofList_append, String.utf8ByteSize_append]

theorem byteLength_cons (c : Char) (rest : List Char) :
    byteLength (c :: rest) = c.utf8Size + byteLength rest := by
  rw [← List.singleton_append, byteLength_append]
  simp [byteLength]

@[simp] theorem byteLength_nil : byteLength [] = 0 := by
  simp [byteLength]

theorem byteLength_concat (front : List Char) (c : Char) :
    byteLength (front ++ [c]) = byteLength front + c.utf8Size := by
  rw [byteLength_append, byteLength_cons, byteLength_nil, Nat.add_zero]

variable {text front back piece rest : List Char} {n m : Nat}

theorem length_le_byteLength (text : List Char) : text.length ≤ byteLength text := by
  induction text with
  | nil => exact Nat.zero_le _
  | cons c rest ih =>
    have := c.utf8Size_pos
    rw [byteLength_cons, List.length_cons]
    omega

theorem byteLength_eq_zero_iff : byteLength text = 0 ↔ text = [] := by
  have shorter := length_le_byteLength text
  constructor
  · intro nothing
    exact List.eq_nil_of_length_eq_zero (by omega)
  · rintro rfl
    exact byteLength_nil

/-! ### Parts of a text -/

/-- The parts of a text before and behind some bytes. There are none if the last of the bytes does not
end a character. -/
def splitAtByte : Nat → List Char → Option (List Char × List Char)
  | 0, text => some ([], text)
  | _ + 1, [] => none
  | n + 1, c :: rest =>
    if c.utf8Size ≤ n + 1 then
      (splitAtByte (n + 1 - c.utf8Size) rest).map fun (front, back) => (c :: front, back)
    else none

theorem splitAtByte_append (front back : List Char) :
    splitAtByte (byteLength front) (front ++ back) = some (front, back) := by
  induction front with
  | nil => cases back <;> rw [byteLength_nil, List.nil_append, splitAtByte]
  | cons c before ih =>
    have positive := c.utf8Size_pos
    -- There are bytes left to count as long as there are characters.
    obtain ⟨n, size⟩ : ∃ n, byteLength (c :: before) = n + 1 :=
      ⟨byteLength (c :: before) - 1, by rw [byteLength_cons]; omega⟩
    have rest : n + 1 - c.utf8Size = byteLength before := by
      rw [← size, byteLength_cons, Nat.add_sub_cancel_left]
    have fits : c.utf8Size ≤ n + 1 := by
      rw [← size, byteLength_cons]
      exact Nat.le_add_right _ _
    rw [size, List.cons_append, splitAtByte, if_pos fits, rest, ih, Option.map_some]

theorem eq_of_splitAtByte (h : splitAtByte n text = some (front, back)) :
    text = front ++ back ∧ n = byteLength front := by
  induction text generalizing n front with
  | nil =>
    cases n with
    | zero =>
      cases h
      exact ⟨rfl, byteLength_nil.symm⟩
    | succ n => cases h
  | cons c rest ih =>
    cases n with
    | zero =>
      cases h
      exact ⟨rfl, byteLength_nil.symm⟩
    | succ n =>
      rw [splitAtByte] at h
      split at h
      · next fits =>
        obtain ⟨⟨before, after⟩, later, same⟩ := Option.map_eq_some_iff.mp h
        cases same
        obtain ⟨rfl, size⟩ := ih later
        refine ⟨rfl, ?_⟩
        rw [byteLength_cons]
        omega
      · cases h

theorem splitAtByte_eq_some_iff :
    splitAtByte n text = some (front, back) ↔ text = front ++ back ∧ n = byteLength front := by
  refine ⟨eq_of_splitAtByte, ?_⟩
  rintro ⟨rfl, rfl⟩
  exact splitAtByte_append front back

/-- The part of a text between two offsets in bytes. -/
def slice (text : List Char) (start stop : Nat) : Option (List Char) :=
  if start ≤ stop then
    (splitAtByte start text).bind fun parts => (splitAtByte (stop - start) parts.2).map (·.1)
  else none

/-- There is a slice exactly if both bounds stand between characters, in order. -/
theorem slice_eq_some_iff {start stop : Nat} : slice text start stop = some piece ↔
    ∃ front back, text = front ++ piece ++ back ∧ start = byteLength front ∧
      stop = byteLength (front ++ piece) := by
  unfold slice
  constructor
  · intro h
    split at h
    · next ordered =>
      obtain ⟨⟨front, rest⟩, before, h⟩ := Option.bind_eq_some_iff.mp h
      obtain ⟨⟨piece, back⟩, inside, rfl⟩ := Option.map_eq_some_iff.mp h
      obtain ⟨rfl, rfl⟩ := splitAtByte_eq_some_iff.mp before
      obtain ⟨rfl, size⟩ := splitAtByte_eq_some_iff.mp inside
      refine ⟨front, back, (List.append_assoc ..).symm, rfl, ?_⟩
      rw [byteLength_append]
      exact (Nat.sub_eq_iff_eq_add' ordered).mp size
    · cases h
  · rintro ⟨front, back, rfl, rfl, rfl⟩
    have before : splitAtByte (byteLength front) (front ++ piece ++ back) =
        some (front, piece ++ back) := splitAtByte_eq_some_iff.mpr ⟨List.append_assoc .., rfl⟩
    have inside : splitAtByte (byteLength piece) (piece ++ back) = some (piece, back) :=
      splitAtByte_eq_some_iff.mpr ⟨rfl, rfl⟩
    rw [before, byteLength_append, if_pos (Nat.le_add_right _ _), Option.bind_some,
      Nat.add_sub_cancel_left, inside, Option.map_some]

/-- How many bytes come before the `n`th character. -/
def byteOffset (text : List Char) (n : Nat) : Nat :=
  byteLength (text.take n)

@[simp] theorem byteOffset_zero (text : List Char) : byteOffset text 0 = 0 := by
  simp [byteOffset]

theorem byteOffset_add (text : List Char) (n m : Nat) :
    byteOffset text (n + m) = byteOffset text n + byteOffset (text.drop n) m := by
  rw [byteOffset, List.take_add, byteLength_append, byteOffset, byteOffset]

theorem byteOffset_cons (c : Char) (rest : List Char) (n : Nat) :
    byteOffset (c :: rest) (n + 1) = c.utf8Size + byteOffset rest n := by
  rw [byteOffset, List.take_succ_cons, byteLength_cons, byteOffset]

theorem byteOffset_succ {c : Char} (here : text[n]? = some c) :
    byteOffset text (n + 1) = byteOffset text n + c.utf8Size := by
  induction n generalizing text with
  | zero =>
    obtain ⟨rest, rfl⟩ := List.head?_eq_some_iff.mp (List.head?_eq_getElem?.trans here)
    rw [byteOffset_cons, byteOffset_zero, byteOffset_zero, Nat.add_comm]
  | succ n ih =>
    cases text with
    | nil => cases here
    | cons d rest =>
      rw [List.getElem?_cons_succ] at here
      rw [byteOffset_cons, byteOffset_cons, ih here, Nat.add_assoc]

theorem byteOffset_mono (text : List Char) (h : n ≤ m) : byteOffset text n ≤ byteOffset text m := by
  obtain ⟨k, rfl⟩ := Nat.exists_eq_add_of_le h
  rw [byteOffset_add]
  exact Nat.le_add_right _ _

theorem byteOffset_of_length_le (h : text.length ≤ n) : byteOffset text n = byteLength text := by
  rw [byteOffset, List.take_of_length_le h]

theorem byteOffset_append (front back : List Char) :
    byteOffset (front ++ back) front.length = byteLength front := by
  rw [byteOffset, List.take_left]

theorem byteLength_takeWhile (text : List Char) (p : Char → Bool) :
    byteLength (text.takeWhile p) = byteOffset text (text.takeWhile p).length := by
  rw [byteOffset, ← List.prefix_iff_eq_take.mp (List.takeWhile_prefix p)]

theorem byteOffset_lt (less : n < m) (inside : n < text.length) :
    byteOffset text n < byteOffset text m := by
  obtain ⟨k, rfl⟩ := Nat.exists_eq_add_of_le less
  have here : (text.drop n).take (k + 1) ≠ [] := by
    have : 0 < ((text.drop n).take (k + 1)).length := by
      rw [List.length_take, List.length_drop]
      omega
    exact List.length_pos_iff.mp this
  have size : byteOffset (text.drop n) (k + 1) ≠ 0 := mt byteLength_eq_zero_iff.mp here
  rw [Nat.succ_eq_add_one, Nat.add_assoc, Nat.add_comm 1, byteOffset_add]
  omega

theorem slice_byteOffset (text : List Char) (h : n ≤ m) :
    slice text (byteOffset text n) (byteOffset text m) = some ((text.drop n).take (m - n)) := by
  obtain ⟨k, rfl⟩ := Nat.exists_eq_add_of_le h
  refine slice_eq_some_iff.mpr ⟨text.take n, text.drop (n + k), ?_, rfl, ?_⟩
  · rw [Nat.add_sub_cancel_left, ← List.take_add, List.take_append_drop]
  · rw [Nat.add_sub_cancel_left, ← List.take_add, byteOffset]

end PromptScript.Text
