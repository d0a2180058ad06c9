import PromptScript.Text.CharTable

/-!
The character classes of names, words and blanks. Each is the ASCII class extended by a table.
-/
namespace PromptScript.Text

/-- Whether a character lies in one of the ranges of a table. -/
def inTable (table : List (Nat × Nat)) (c : Char) : Bool :=
  table.any fun range => range.1 ≤ c.toNat && c.toNat ≤ range.2

theorem inTable_iff {table : List (Nat × Nat)} {c : Char} :
    inTable table c = true ↔ ∃ range ∈ table, range.1 ≤ c.toNat ∧ c.toNat ≤ range.2 := by
  simp [inTable, List.any_eq_true]

def isAlphabetic (c : Char) : Bool :=
  c.isAlpha || inTable alphabetic c

/-- A letter or a number of any script. -/
def isAlphanumeric (c : Char) : Bool :=
  isAlphabetic c || c.isDigit || inTable numeric c

def isBlank (c : Char) : Bool :=
  c = ' ' || (9 ≤ c.toNat && c.toNat ≤ 13) || inTable whiteSpace c

/-- A character that may continue an unquoted word: letters, digits, marks and connectors. The two
joiners U+200C and U+200D count as well. -/
def isWordChar (c : Char) : Bool :=
  isAlphabetic c || c.isDigit || c = '_' || inTable mark c || inTable decimalDigit c
    || inTable connector c || inTable [(0x200C, 0x200D)] c

/-- A character that may continue a variable name. -/
def isNameChar (c : Char) : Bool :=
  isAlphanumeric c || c = '_'

/-- A character that may start a variable name. -/
def isNameStart (c : Char) : Bool :=
  isAlphabetic c || c = '_'

/-- A letter of the ASCII alphabet or an underscore. -/
def isPlainNameStart (c : Char) : Bool :=
  c.isAlpha || c = '_'

theorem isNameChar_of_isNameStart {c : Char} (h : isNameStart c = true) :
    isNameChar c = true := by
  simp only [isNameStart, isNameChar, isAlphanumeric, Bool.or_eq_true] at *
  rcases h with h | h <;> simp [h]

theorem isNameStart_of_isPlainNameStart {c : Char} (h : isPlainNameStart c = true) :
    isNameStart c = true := by
  simp only [isNameStart, isPlainNameStart, isAlphabetic, Bool.or_eq_true] at *
  rcases h with h | h <;> simp [h]

end PromptScript.Text
