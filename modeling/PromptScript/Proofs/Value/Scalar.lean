import Mathlib
import PromptScript.Proofs.Number.Decimal
import PromptScript.Value.Reader

/-!
Strings, integers and the other values without items are read back from their text. Floating-point
numbers are left out: their shortest text is a matter of its own.
-/
namespace PromptScript

open Text

namespace Value

/-- A value without floating-point numbers, whose integers have 64 bits, whose mappings have every key
once, and in which at most `depth` lists and mappings enclose each other. -/
inductive Plain : Nat → Value → Prop
  | null {depth : Nat} : Plain depth .null
  | bool {depth : Nat} (b : Bool) : Plain depth (.bool b)
  | int {depth : Nat} {n : Int} : fitsInteger n = true → Plain depth (.num (.int n))
  | str {depth : Nat} (s : String) : Plain depth (.str s)
  | list {depth : Nat} {items : List Value} :
    (∀ item ∈ items, Plain depth item) → Plain (depth + 1) (.list items)
  | map {depth : Nat} {entries : List (String × Value)} :
    (Mapping.keys entries).Nodup → (∀ entry ∈ entries, Plain depth entry.2) →
    Plain (depth + 1) (.map entries)

/-! ### Strings -/

theorem hexValue?_hexDigit (n : Nat) : hexValue? (hexDigit n) = some (n % 16) := by
  have small : ∀ d < 16, hexValue? ((Nat.toDigits 16 d).headD '0') = some d := by decide
  exact small (n % 16) (Nat.mod_lt n (by decide))

theorem readEscape_control {c : Char} (control : c.toNat < 0x20) (rest : List Char) :
    readEscape ('u' :: '0' :: '0' :: hexDigit (c.toNat / 16) :: hexDigit c.toNat :: rest) =
      some (c, 5) := by
  have unit : readHex4 ('0' :: '0' :: hexDigit (c.toNat / 16) :: hexDigit c.toNat :: rest) =
      some c.toNat := by
    have zero : hexValue? '0' = some 0 := by decide
    have sum : c.toNat / 16 % 16 * 16 + c.toNat % 16 = c.toNat := by omega
    simp [readHex4, zero, hexValue?_hexDigit, sum]
  have noHigh : ¬ (0xD800 ≤ c.toNat ∧ c.toNat < 0xDC00) := by omega
  have noLow : ¬ (0xDC00 ≤ c.toNat ∧ c.toNat < 0xE000) := by omega
  simp [readEscape, readUnicodeEscape, unit, noHigh, noLow, Char.ofNat_toNat]

theorem readString_of_readEscape {c : Char} {escaped : List Char} {taken : Nat}
    (read : readEscape escaped = some (c, taken)) :
    readString ('\\' :: escaped) =
      (readString (escaped.drop taken)).map fun (content, rest) => (c :: content, rest) := by
  rw [readString]
  simp only [read]

/-- How a character stands inside quotes: by a mark behind a backslash, by its code, or as itself. -/
inductive Escaped (c : Char) : List Char → Prop
  | mark {mark : Char} : (∀ rest, readEscape (mark :: rest) = some (c, 1)) → Escaped c ['\\', mark]
  | code : c.toNat < 0x20 →
    Escaped c ['\\', 'u', '0', '0', hexDigit (c.toNat / 16), hexDigit c.toNat]
  | itself : c ≠ '"' → c ≠ '\\' → ¬ c.toNat < 0x20 → Escaped c [c]

theorem escaped_escape (c : Char) : Escaped c (escape c) := by
  unfold escape
  split_ifs with quote backslash backspace feed newline return' tab control
  · subst quote
    exact .mark fun _ => rfl
  · subst backslash
    exact .mark fun _ => rfl
  · subst backspace
    exact .mark fun _ => rfl
  · subst feed
    exact .mark fun _ => rfl
  · subst newline
    exact .mark fun _ => rfl
  · subst return'
    exact .mark fun _ => rfl
  · subst tab
    exact .mark fun _ => rfl
  · exact .code control
  · exact .itself quote backslash control

/-- Every character is read back from how it stands inside quotes. -/
theorem readString_escape (c : Char) (rest : List Char) :
    readString (escape c ++ rest) =
      (readString rest).map fun (content, rest) => (c :: content, rest) := by
  have stands := escaped_escape c
  generalize escape c = text at stands ⊢
  cases stands with
  | mark read => exact readString_of_readEscape (read rest)
  | code control => exact readString_of_readEscape (readEscape_control control rest)
  | itself noQuote noBackslash plain =>
    rw [List.singleton_append, readString]
    · exact if_neg plain
    · exact noQuote
    · exact noBackslash

theorem readString_quoted (content rest : List Char) :
    readString (content.flatMap escape ++ '"' :: rest) = some (content, rest) := by
  induction content with
  | nil => rw [List.flatMap_nil, List.nil_append, readString]
  | cons c more ih =>
    rw [List.flatMap_cons, List.append_assoc, readString_escape, ih]
    rfl

/-! ### Numbers -/

/-- A character by which a number goes on. -/
def continuesNumber (c : Char) : Bool :=
  c.isDigit || c = '.' || c = 'e' || c = 'E'

theorem bars_isDigit {rest : List Char} (bars : Bars continuesNumber rest) :
    Bars Char.isDigit rest := by
  intro c member
  have other := bars c member
  simp only [continuesNumber, Bool.or_eq_false_iff] at other
  exact other.1.1.1

theorem readWhole_toDigits (n : Nat) {rest : List Char} (bars : Bars Char.isDigit rest) :
    readWhole (Nat.toDigits 10 n ++ rest) = some (Nat.toDigits 10 n, rest) := by
  obtain ⟨first, more, digits, _⟩ := exists_toDigits_cons n
  have spanned : spanDigits (Nat.toDigits 10 n ++ rest) = (Nat.toDigits 10 n, rest) :=
    spanDigits_append (fun c member => isDigit_of_mem_toDigits member) bars
  by_cases zero : first = '0'
  · -- A leading zero is the whole number, so that no digit may follow.
    subst zero
    obtain rfl := eq_zero_of_toDigits_head digits
    rw [Nat.toDigits_zero]
    cases rest with
    | nil => rfl
    | cons c later => simp [readWhole, bars c rfl]
  · rw [digits] at spanned ⊢
    rw [List.cons_append] at spanned ⊢
    rw [readWhole]
    · rw [spanned]
      rfl
    · intro later same
      cases same
      contradiction

/-- The sign and the digits of an integer make it up. -/
theorem magnitude_toDigits (n : Int) : (if decide (n < 0) = true then
      -(digitsValue (Nat.toDigits 10 n.natAbs) : Int)
      else (digitsValue (Nat.toDigits 10 n.natAbs) : Int)) = n := by
  rw [digitsValue_toDigits]
  by_cases negative : n < 0
  · simp only [negative, decide_true, ↓reduceIte]
    omega
  · simp only [negative, decide_false, Bool.false_eq_true, ↓reduceIte]
    omega

/-- An integer that has no fraction and no exponent behind it is an integer. -/
theorem makeNumber_integer {n : Int} (fits : fitsInteger n = true) :
    makeNumber (decide (n < 0)) (Nat.toDigits 10 n.natAbs) [] none = some (.int n) := by
  have notZero : ¬ (decide (n < 0) = true ∧ n = 0) := by
    simp only [decide_eq_true_eq]
    omega
  simp only [makeNumber, magnitude_toDigits]
  exact if_pos ⟨rfl, rfl, fits, notZero⟩

theorem readFraction_of_bars {rest : List Char} (bars : Bars continuesNumber rest) :
    readFraction rest = some ([], rest) := by
  unfold readFraction
  split
  · exact absurd (bars '.' rfl) (by decide)
  · rfl

theorem readExponent_of_bars {rest : List Char} (bars : Bars continuesNumber rest) :
    readExponent rest = some (none, rest) := by
  cases rest with
  | nil => rfl
  | cons c more =>
    have other := bars c rfl
    simp only [continuesNumber, Bool.or_eq_false_iff, decide_eq_false_iff_not] at other
    have neither : ¬ (c = 'e' ∨ c = 'E') := not_or.mpr ⟨other.1.2, other.2⟩
    simp only [readExponent, neither, if_false]

/-- A sign, a whole part, a fraction and an exponent make a number. -/
theorem readNumber_of_parts {negative : Bool} {text after behind rest whole fraction : List Char}
    {exponent : Option Int} {n : Number} (unsigned : text.head? ≠ some '-')
    (wholePart : readWhole text = some (whole, after))
    (fractionPart : readFraction after = some (fraction, behind))
    (exponentPart : readExponent behind = some (exponent, rest))
    (number : makeNumber negative whole fraction exponent = some n) :
    readNumber ((if negative then ['-'] else []) ++ text) = some (n, rest) := by
  unfold readNumber
  cases negative with
  | true =>
    rw [if_pos rfl, List.singleton_append]
    simp only [Option.bind_eq_bind, Option.bind_eq_some_iff]
    exact ⟨_, wholePart, _, fractionPart, _, exponentPart, _, number, rfl⟩
  | false =>
    rw [if_neg (by decide), List.nil_append]
    split
    next sign digits parts =>
      split at parts
      · exact absurd rfl unsigned
      · cases parts
        simp only [Option.bind_eq_bind, Option.bind_eq_some_iff]
        exact ⟨_, wholePart, _, fractionPart, _, exponentPart, _, number, rfl⟩

theorem readNumber_text {n : Int} (fits : fitsInteger n = true) {rest : List Char}
    (bars : Bars continuesNumber rest) :
    readNumber ((Number.int n).text.toList ++ rest) = some (.int n, rest) := by
  have unsigned : (Nat.toDigits 10 n.natAbs ++ rest).head? ≠ some '-' := by
    obtain ⟨first, more, digits, digit⟩ := exists_toDigits_cons n.natAbs
    rw [digits, List.cons_append, List.head?_cons]
    intro same
    rw [Option.some.inj same] at digit
    exact absurd digit (by decide)
  have read := readNumber_of_parts unsigned (readWhole_toDigits n.natAbs (bars_isDigit bars))
    (readFraction_of_bars bars) (readExponent_of_bars bars) (makeNumber_integer fits)
  simpa only [Number.text, String.toList_ofList, List.append_assoc, decide_eq_true_eq] using read

/-! ### Blanks -/

theorem skipBlanks_cons {c : Char} (h : isJsonBlank c = false) (rest : List Char) :
    skipBlanks (c :: rest) = c :: rest :=
  List.dropWhile_cons_of_neg (by simp [h])

theorem skipBlanks_append {blanks : List Char} (blank : ∀ c ∈ blanks, isJsonBlank c = true)
    (rest : List Char) : skipBlanks (blanks ++ rest) = skipBlanks rest :=
  List.dropWhile_append_of_pos blank

theorem skipBlanks_of_blank {blanks : List Char} (blank : ∀ c ∈ blanks, isJsonBlank c = true) :
    skipBlanks blanks = [] := by
  have rest := skipBlanks_append blank []
  rwa [List.append_nil] at rest

theorem not_continuesNumber_of_blank {c : Char} (blank : isJsonBlank c = true) :
    continuesNumber c = false := by
  simp only [isJsonBlank, Bool.or_eq_true, decide_eq_true_eq] at blank
  obtain ((rfl | rfl) | rfl) | rfl := blank <;> rfl

/-! ### Scalars -/

theorem int_text_head (n : Int) :
    ∃ c more, (Number.int n).text.toList = c :: more ∧ (c = '-' ∨ c.isDigit = true) := by
  obtain ⟨first, more, digits, digit⟩ := exists_toDigits_cons n.natAbs
  rw [Number.text, String.toList_ofList]
  split
  · exact ⟨'-', Nat.toDigits 10 n.natAbs, rfl, .inl rfl⟩
  · exact ⟨first, more, digits, .inr digit⟩

theorem ne_of_number_head {c d : Char} (h : c = '-' ∨ c.isDigit = true)
    (apart : d ≠ '-' ∧ d.isDigit = false) : c ≠ d := by
  rintro rfl
  rcases h with sign | digit
  · exact apart.1 sign
  · rw [apart.2] at digit
    cases digit

theorem isJsonBlank_of_number_head {c : Char} (h : c = '-' ∨ c.isDigit = true) :
    isJsonBlank c = false := by
  have space := ne_of_number_head h (d := ' ') (by decide)
  have newline := ne_of_number_head h (d := '\n') (by decide)
  have tab := ne_of_number_head h (d := '\t') (by decide)
  have carriage := ne_of_number_head h (d := '\r') (by decide)
  simp [isJsonBlank, space, newline, tab, carriage]

theorem readValue_scalar {c : Char} (visible : isJsonBlank c = false) (item : c ≠ '[' ∧ c ≠ '\x7b')
    (depth : Nat) (rest : List Char) :
    readValue depth (c :: rest) = readScalar (c :: rest) := by
  unfold readValue
  rw [skipBlanks_cons visible]
  split
  · next same => exact absurd (List.cons.inj same).1 item.1
  · next same => exact absurd (List.cons.inj same).1 item.2
  · next same => exact absurd (List.cons.inj same).1 item.1
  · next same => exact absurd (List.cons.inj same).1 item.2
  · rfl

theorem readScalar_number {c : Char} (number : c = '-' ∨ c.isDigit = true) (rest : List Char) :
    readScalar (c :: rest) = (readNumber (c :: rest)).map fun (n, rest) => (.num n, rest) := by
  unfold readScalar
  split
  · next same => exact absurd (List.cons.inj same).1 (ne_of_number_head number (by decide))
  · next same => exact absurd (List.cons.inj same).1 (ne_of_number_head number (by decide))
  · next same => exact absurd (List.cons.inj same).1 (ne_of_number_head number (by decide))
  · next same => exact absurd (List.cons.inj same).1 (ne_of_number_head number (by decide))
  · rfl

/-- Whether a value is neither a list nor a mapping. -/
def isScalar : Value → Bool
  | .list _ | .map _ => false
  | _ => true

/-- A value without items is read back from its text. -/
theorem readValue_scalarText {v : Value} {depth : Nat} (plain : Plain depth v)
    (single : v.isScalar = true) (d : Nat) {rest : List Char} (bars : Bars continuesNumber rest) :
    readValue d (scalarText v ++ rest) = some (v, rest) := by
  cases plain with
  | null => exact readValue_scalar (by decide) (by decide) _ _
  | bool b => cases b <;> exact readValue_scalar (by decide) (by decide) _ _
  | @int _ n fits =>
    have read := readNumber_text fits bars
    obtain ⟨c, more, start, number⟩ := int_text_head n
    change readValue d ((Number.int n).text.toList ++ rest) = _
    rw [start, List.cons_append] at read ⊢
    rw [readValue_scalar (isJsonBlank_of_number_head number)
      ⟨ne_of_number_head number (by decide), ne_of_number_head number (by decide)⟩,
      readScalar_number number, read]
    rfl
  | str s =>
    have quoted := readString_quoted s.toList rest
    have text : scalarText (.str s) ++ rest = '"' :: (s.toList.flatMap escape ++ '"' :: rest) := by
      simp [scalarText, quote]
    rw [text, readValue_scalar (by decide) (by decide), readScalar, quoted]
    · simp only [Option.map_some, String.ofList_toList]
  | list | map => cases single

theorem scalarText_head {v : Value} (single : v.isScalar = true) {depth : Nat} (plain : Plain depth v) :
    ∃ c more, scalarText v = c :: more ∧ isJsonBlank c = false ∧ c ≠ ']' := by
  cases plain with
  | null => exact ⟨'n', _, rfl, by decide⟩
  | bool b => cases b <;> exact ⟨_, _, rfl, by decide⟩
  | @int _ n =>
    obtain ⟨c, more, start, number⟩ := int_text_head n
    exact ⟨c, more, start, isJsonBlank_of_number_head number, ne_of_number_head number (by decide)⟩
  | str => exact ⟨'"', _, rfl, by decide⟩
  | list | map => cases single

end Value

end PromptScript
