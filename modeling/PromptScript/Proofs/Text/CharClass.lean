import Mathlib
import PromptScript.Text.CharClass

/-!
How the character classes lie to each other: within ASCII they are what one expects, and no blank
belongs to a name.
-/
namespace PromptScript.Text

theorem inTable_of_lt (table : List (Nat × Nat)) {c : Char} (bound : Nat)
    (above : table.all (fun range => bound ≤ range.1) = true) (h : c.toNat < bound) :
    inTable table c = false := by
  refine Bool.eq_false_iff.mpr fun inside => ?_
  obtain ⟨range, member, low, _⟩ := inTable_iff.mp inside
  have := of_decide_eq_true (List.all_eq_true.mp above range member)
  omega

/-- Tables whose ranges do not meet have no character in common. -/
theorem not_inTable_of_inTable {table : List (Nat × Nat)} (other : List (Nat × Nat)) {c : Char}
    (apart : (table.all fun range => other.all fun range' =>
      range.2 < range'.1 || range'.2 < range.1) = true)
    (h : inTable table c = true) : inTable other c = false := by
  refine Bool.eq_false_iff.mpr fun inside => ?_
  obtain ⟨range, member, low, high⟩ := inTable_iff.mp h
  obtain ⟨range', member', low', high'⟩ := inTable_iff.mp inside
  have disjoint := List.all_eq_true.mp (List.all_eq_true.mp apart range member) range' member'
  simp only [Bool.or_eq_true, decide_eq_true_eq] at disjoint
  omega

/-- The tables of what names consist of. -/
def nameTables : List (List (Nat × Nat)) :=
  [alphabetic, numeric, mark, decimalDigit, connector, [(0x200C, 0x200D)]]

theorem not_inTable_of_lt {c : Char} (h : c.toNat < 128) :
    ∀ table ∈ nameTables, inTable table c = false := by
  have above : ∀ table ∈ nameTables, table.all (fun range => 128 ≤ range.1) = true := by
    decide +kernel
  exact fun table member => inTable_of_lt table 128 (above table member) h

theorem not_inTable_of_whiteSpace {c : Char} (h : inTable whiteSpace c = true) :
    ∀ table ∈ nameTables, inTable table c = false := by
  have apart : ∀ table ∈ nameTables, (whiteSpace.all fun range => table.all fun range' =>
      range.2 < range'.1 || range'.2 < range.1) = true := by
    decide +kernel
  exact fun table member => not_inTable_of_inTable table (apart table member) h

theorem lt_of_isAlphanum {c : Char} (h : c.isAlphanum = true) : c.toNat < 128 := by
  simp only [Char.isAlphanum, Char.isAlpha, Char.isUpper, Char.isLower, Char.isDigit,
    Bool.or_eq_true, Bool.and_eq_true, decide_eq_true_eq, ge_iff_le, UInt32.le_iff_toNat_le] at h
  have code : c.val.toNat = c.toNat := rfl
  have : 'Z'.val.toNat = 90 := rfl
  have : 'z'.val.toNat = 122 := rfl
  have : '9'.val.toNat = 57 := rfl
  omega

/-- The name characters of ASCII are the letters, the digits and the underscore. -/
theorem isNameChar_of_lt {c : Char} (h : c.toNat < 128) :
    isNameChar c = (c.isAlphanum || c = '_') := by
  have letter := not_inTable_of_lt h alphabetic (by simp [nameTables])
  have number := not_inTable_of_lt h numeric (by simp [nameTables])
  simp [isNameChar, isAlphanumeric, isAlphabetic, letter, number, Char.isAlphanum]

theorem isNameStart_of_lt {c : Char} (h : c.toNat < 128) :
    isNameStart c = (c.isAlpha || c = '_') := by
  have letter := not_inTable_of_lt h alphabetic (by simp [nameTables])
  simp [isNameStart, isAlphabetic, letter]

/-- Within ASCII the word characters are the name characters. -/
theorem isWordChar_of_lt {c : Char} (h : c.toNat < 128) :
    isWordChar c = (c.isAlphanum || c = '_') := by
  have letter := not_inTable_of_lt h alphabetic (by simp [nameTables])
  have marks := not_inTable_of_lt h mark (by simp [nameTables])
  have digit := not_inTable_of_lt h decimalDigit (by simp [nameTables])
  have joins := not_inTable_of_lt h connector (by simp [nameTables])
  have joiner := not_inTable_of_lt h [(0x200C, 0x200D)] (by simp [nameTables])
  simp [isWordChar, isAlphabetic, letter, marks, digit, joins, joiner, Char.isAlphanum]

theorem isBlank_of_lt {c : Char} (h : c.toNat < 128) :
    isBlank c = (c = ' ' || (9 ≤ c.toNat && c.toNat ≤ 13)) := by
  have space := inTable_of_lt whiteSpace 128 (by decide) h
  simp [isBlank, space]

/-- The blanks of ASCII, and those of the table. -/
theorem blank_cases {c : Char} (h : isBlank c = true) :
    c ∈ [' ', '\t', '\n', '\x0b', '\x0c', '\r'] ∨ ¬c.toNat < 128 ∧ inTable whiteSpace c = true := by
  by_cases ascii : c.toNat < 128
  · left
    rw [isBlank_of_lt ascii] at h
    have range : c.toNat = 32 ∨ c.toNat = 9 ∨ c.toNat = 10 ∨ c.toNat = 11 ∨ c.toNat = 12 ∨
        c.toNat = 13 := by
      rcases Bool.or_eq_true_iff.mp h with space | control
      · exact .inl (congrArg Char.toNat (of_decide_eq_true space))
      · simp only [Bool.and_eq_true, decide_eq_true_eq] at control
        omega
    have same : c = Char.ofNat c.toNat := (Char.ofNat_toNat c).symm
    rcases range with n | n | n | n | n | n <;> rw [same, n] <;> decide
  · refine .inr ⟨ascii, ?_⟩
    simp only [isBlank, Bool.or_eq_true, Bool.and_eq_true, decide_eq_true_eq] at h
    rcases h with (rfl | control) | space
    · exact absurd (by decide) ascii
    · omega
    · exact space

theorem isAlphanum_of_not_lt {c : Char} (other : ¬c.toNat < 128) : c.isAlphanum = false :=
  Bool.eq_false_iff.mpr fun h => other (lt_of_isAlphanum h)

theorem not_isNameChar_of_isBlank {c : Char} (h : isBlank c = true) : isNameChar c = false := by
  rcases blank_cases h with ascii | ⟨other, space⟩
  · simp only [List.mem_cons, List.not_mem_nil, or_false] at ascii
    rcases ascii with rfl | rfl | rfl | rfl | rfl | rfl <;>
      rw [isNameChar_of_lt (by decide)] <;> decide
  · have letter := not_inTable_of_whiteSpace space alphabetic (by simp [nameTables])
    have number := not_inTable_of_whiteSpace space numeric (by simp [nameTables])
    have plain := isAlphanum_of_not_lt other
    have noUnderscore : c ≠ '_' := by
      rintro rfl
      exact other (by decide)
    simp only [Char.isAlphanum, Bool.or_eq_false_iff] at plain
    simp [isNameChar, isAlphanumeric, isAlphabetic, letter, number, plain, noUnderscore]

theorem not_isWordChar_of_isBlank {c : Char} (h : isBlank c = true) : isWordChar c = false := by
  rcases blank_cases h with ascii | ⟨other, space⟩
  · simp only [List.mem_cons, List.not_mem_nil, or_false] at ascii
    rcases ascii with rfl | rfl | rfl | rfl | rfl | rfl <;>
      rw [isWordChar_of_lt (by decide)] <;> decide
  · have letter := not_inTable_of_whiteSpace space alphabetic (by simp [nameTables])
    have marks := not_inTable_of_whiteSpace space mark (by simp [nameTables])
    have digit := not_inTable_of_whiteSpace space decimalDigit (by simp [nameTables])
    have joins := not_inTable_of_whiteSpace space connector (by simp [nameTables])
    have joiner := not_inTable_of_whiteSpace space [(0x200C, 0x200D)] (by simp [nameTables])
    have plain := isAlphanum_of_not_lt other
    have noUnderscore : c ≠ '_' := by
      rintro rfl
      exact other (by decide)
    simp only [Char.isAlphanum, Bool.or_eq_false_iff] at plain
    simp [isWordChar, isAlphabetic, letter, marks, digit, joins, joiner, plain, noUnderscore]

theorem not_isBlank_of_isNameChar {c : Char} (h : isNameChar c = true) : isBlank c = false := by
  refine Bool.eq_false_iff.mpr fun blank => ?_
  rw [not_isNameChar_of_isBlank blank] at h
  cases h

theorem not_isBlank_of_isWordChar {c : Char} (h : isWordChar c = true) : isBlank c = false := by
  refine Bool.eq_false_iff.mpr fun blank => ?_
  rw [not_isWordChar_of_isBlank blank] at h
  cases h

theorem isNameChar_of_isDigit {c : Char} (h : c.isDigit = true) : isNameChar c = true := by
  simp [isNameChar, isAlphanumeric, h]

theorem not_isNameStart_of_isDigit {c : Char} (h : c.isDigit = true) : isNameStart c = false := by
  have ascii : c.toNat < 128 := lt_of_isAlphanum (by simp [Char.isAlphanum, h])
  have code : c.val.toNat = c.toNat := rfl
  simp only [Char.isDigit, Bool.and_eq_true, decide_eq_true_eq, ge_iff_le, UInt32.le_iff_toNat_le,
    code] at h
  have nine : '9'.val.toNat = 57 := rfl
  have noLetter : c.isAlpha = false := by
    have upper : 'A'.val.toNat = 65 := rfl
    have lower : 'a'.val.toNat = 97 := rfl
    simp only [Char.isAlpha, Char.isUpper, Char.isLower, Bool.or_eq_false_iff,
      Bool.and_eq_false_iff, decide_eq_false_iff_not, ge_iff_le, UInt32.le_iff_toNat_le, code]
    omega
  have noUnderscore : c ≠ '_' := by
    rintro rfl
    exact absurd h.2 (by decide)
  rw [isNameStart_of_lt ascii, noLetter, decide_eq_false noUnderscore]
  rfl

end PromptScript.Text
