import Mathlib
import PromptScript.Proofs.Value.RoundTrip

/-!
The grammar of JSON text, apart from any way to read it. It sets no limit to how deep lists and mappings
nest or how large a number is, and takes an escaped half of a surrogate pair by itself. What is written
for a value follows it.
-/
namespace PromptScript.Value

/-- What may stand between the quotes of a string. -/
inductive IsContent : List Char → Prop
  | nil : IsContent []
  | char {c : Char} {text : List Char} :
    0x20 ≤ c.toNat → c ≠ '"' → c ≠ '\\' → IsContent text → IsContent (c :: text)
  | mark {c : Char} {text : List Char} :
    c ∈ ['"', '\\', '/', 'b', 'f', 'n', 'r', 't'] → IsContent text → IsContent ('\\' :: c :: text)
  | code {digits text : List Char} :
    digits.length = 4 → (∀ d ∈ digits, (hexValue? d).isSome = true) → IsContent text →
    IsContent ('\\' :: 'u' :: (digits ++ text))

/-- At least one digit. -/
def IsDigits (text : List Char) : Prop :=
  text ≠ [] ∧ ∀ c ∈ text, c.isDigit = true

/-- The digits in front of the point of a number: no digit follows a leading zero. -/
inductive IsWhole : List Char → Prop
  | zero : IsWhole ['0']
  | digits {text : List Char} : IsDigits text → text.head? ≠ some '0' → IsWhole text

inductive IsFraction : List Char → Prop
  | none : IsFraction []
  | digits {text : List Char} : IsDigits text → IsFraction ('.' :: text)

inductive IsExponent : List Char → Prop
  | none : IsExponent []
  | digits {mark : Char} {sign text : List Char} :
    mark ∈ ['e', 'E'] → sign ∈ [[], ['+'], ['-']] → IsDigits text →
    IsExponent (mark :: (sign ++ text))

inductive IsNumber : List Char → Prop
  | parts {sign whole fraction exponent : List Char} :
    sign ∈ [[], ['-']] → IsWhole whole → IsFraction fraction → IsExponent exponent →
    IsNumber (sign ++ whole ++ fraction ++ exponent)

def IsBlanks (text : List Char) : Prop :=
  ∀ c ∈ text, isJsonBlank c = true

/-- The parts of JSON text that hold values. -/
inductive Phrase
  /-- A list or a mapping. -/
  | container
  | value
  /-- A value with the blanks around it. -/
  | item
  /-- Items between commas, at least one. -/
  | items
  /-- A key, a colon and an item. -/
  | entry
  /-- Entries between commas, at least one. -/
  | entries
deriving DecidableEq, Repr

/-- Which texts are a phrase. -/
inductive Phrase.Spells : Phrase → List Char → Prop
  | emptyList {blanks : List Char} :
    IsBlanks blanks → Spells .container ('[' :: (blanks ++ [']']))
  | list {text : List Char} :
    Spells .items text → Spells .container ('[' :: (text ++ [']']))
  | emptyMap {blanks : List Char} :
    IsBlanks blanks → Spells .container ('\x7b' :: (blanks ++ ['\x7d']))
  | map {text : List Char} :
    Spells .entries text → Spells .container ('\x7b' :: (text ++ ['\x7d']))
  | container {text : List Char} : Spells .container text → Spells .value text
  | null : Spells .value ['n', 'u', 'l', 'l']
  | true : Spells .value ['t', 'r', 'u', 'e']
  | false : Spells .value ['f', 'a', 'l', 's', 'e']
  | number {text : List Char} : IsNumber text → Spells .value text
  | string {content : List Char} :
    IsContent content → Spells .value ('"' :: (content ++ ['"']))
  | item {before text behind : List Char} :
    IsBlanks before → Spells .value text → IsBlanks behind →
    Spells .item (before ++ text ++ behind)
  | lastItem {text : List Char} : Spells .item text → Spells .items text
  | moreItems {text more : List Char} :
    Spells .item text → Spells .items more → Spells .items (text ++ ',' :: more)
  | entry {before content behind text : List Char} :
    IsBlanks before → IsContent content → IsBlanks behind → Spells .item text →
    Spells .entry (before ++ ('"' :: (content ++ ['"'])) ++ behind ++ ':' :: text)
  | lastEntry {text : List Char} : Spells .entry text → Spells .entries text
  | moreEntries {text more : List Char} :
    Spells .entry text → Spells .entries more → Spells .entries (text ++ ',' :: more)

/-! ### Written text -/

variable {content text : List Char} {texts : List (List Char)} {depth : Nat} {v : Value}

theorem IsContent.append (h : IsContent content) (h' : IsContent text) :
    IsContent (content ++ text) := by
  induction h with
  | nil => exact h'
  | char visible noQuote noBackslash _ ih => exact .char visible noQuote noBackslash ih
  | mark marks _ ih => exact .mark marks ih
  | code four digits _ ih =>
    rw [List.cons_append, List.cons_append, List.append_assoc]
    exact .code four digits ih

theorem isContent_control (c : Char) :
    IsContent ['\\', 'u', '0', '0', hexDigit (c.toNat / 16), hexDigit c.toNat] := by
  have digit (n : Nat) : (hexValue? (hexDigit n)).isSome = true := by
    rw [hexValue?_hexDigit]
    rfl
  have digits : ∀ d ∈ ['0', '0', hexDigit (c.toNat / 16), hexDigit c.toNat],
      (hexValue? d).isSome = true := by
    simp only [List.forall_mem_cons]
    exact ⟨rfl, rfl, digit _, digit _, List.forall_mem_nil _⟩
  exact .code rfl digits .nil

/-- However a character stands inside quotes, it may stand there. -/
theorem isContent_escape (c : Char) : IsContent (escape c) := by
  unfold escape
  split_ifs with quote backslash _ _ _ _ _ control
  iterate 7 exact .mark (by decide) .nil
  · exact isContent_control c
  · exact .char (Nat.le_of_not_lt control) quote backslash .nil

theorem isContent_flatMap_escape (content : List Char) : IsContent (content.flatMap escape) := by
  induction content with
  | nil => exact .nil
  | cons c more ih =>
    rw [List.flatMap_cons]
    exact (isContent_escape c).append ih

theorem isWhole_toDigits (n : Nat) : IsWhole (Nat.toDigits 10 n) := by
  obtain ⟨first, more, digits, _⟩ := exists_toDigits_cons n
  by_cases zero : n = 0
  · rw [zero]
    exact .zero
  · apply IsWhole.digits
    · exact ⟨digits ▸ List.cons_ne_nil first more, fun c member => isDigit_of_mem_toDigits member⟩
    · intro leading
      rw [digits, List.head?_cons, Option.some_inj] at leading
      exact zero (eq_zero_of_toDigits_head (leading ▸ digits))

theorem isNumber_int (n : Int) : IsNumber (Number.int n).text.toList := by
  have sign : (if n < 0 then ['-'] else []) ∈ [[], ['-']] := by
    split <;> decide
  have parts := IsNumber.parts sign (isWhole_toDigits n.natAbs) .none .none
  rw [List.append_nil, List.append_nil] at parts
  rw [Number.text, String.toList_ofList]
  exact parts

/-- The characters that numbers are written with. -/
def isNumberChar (c : Char) : Bool :=
  c.isDigit || c = '-' || c = '+' || c = '.' || c = 'e' || c = 'E'

theorem IsNumber.all_isNumberChar (h : IsNumber text) : text.all isNumberChar = true := by
  have digit {digits : List Char} (h : IsDigits digits) : digits.all isNumberChar = true := by
    apply List.all_eq_true.mpr
    intro c member
    rw [isNumberChar, h.2 c member]
    rfl
  obtain ⟨sign, whole, fraction, exponent⟩ := h
  simp only [List.all_append, Bool.and_eq_true]
  refine ⟨⟨⟨?_, ?_⟩, ?_⟩, ?_⟩
  · rw [List.mem_pair] at sign
    rcases sign with rfl | rfl <;> rfl
  · cases whole with
    | zero => rfl
    | digits digits _ => exact digit digits
  · cases fraction with
    | none => rfl
    | digits digits =>
      rw [List.all_cons, digit digits]
      rfl
  · cases exponent with
    | none => rfl
    | digits mark sign digits =>
      simp only [List.mem_cons, List.not_mem_nil, or_false] at mark sign
      rw [List.all_cons, List.all_append, digit digits]
      rcases mark with rfl | rfl <;> rcases sign with rfl | rfl | rfl <;> rfl

/-- Phrases between commas. -/
theorem spells_intercalate {one many : Phrase} (last : ∀ text, one.Spells text → many.Spells text)
    (more : ∀ text rest, one.Spells text → many.Spells rest → many.Spells (text ++ ',' :: rest))
    (nonempty : texts ≠ []) (all : ∀ text ∈ texts, one.Spells text) :
    many.Spells ([','].intercalate texts) := by
  induction texts with
  | nil => exact absurd rfl nonempty
  | cons text others ih =>
    obtain ⟨here, later⟩ := List.forall_mem_cons.mp all
    cases others with
    | nil =>
      rw [List.intercalate_singleton]
      exact last text here
    | cons next rest =>
      have behind := more text _ here (ih (List.cons_ne_nil next rest) later)
      simpa using behind

theorem isBlanks_nil : IsBlanks [] :=
  List.forall_mem_nil _

theorem spells_item (h : Phrase.value.Spells text) : Phrase.item.Spells text := by
  have item := Phrase.Spells.item isBlanks_nil h isBlanks_nil
  rwa [List.nil_append, List.append_nil] at item

theorem spells_entryText {entry : String × Value} (h : Phrase.value.Spells entry.2.compact) :
    Phrase.entry.Spells (entryText [] compact entry) := by
  have content := isContent_flatMap_escape entry.1.toList
  have whole := Phrase.Spells.entry isBlanks_nil content isBlanks_nil (spells_item h)
  rwa [List.nil_append, List.append_nil] at whole

theorem container_list {items : List Value} (all : ∀ item ∈ items, Phrase.value.Spells item.compact) :
    Phrase.container.Spells (Value.list items).compact := by
  rw [compact, compactItems_eq]
  by_cases empty : items = []
  · subst empty
    exact .emptyList isBlanks_nil
  · apply Phrase.Spells.list
    apply spells_intercalate (fun _ => .lastItem) (fun _ _ => .moreItems)
    · exact mt List.map_eq_nil_iff.mp empty
    · intro text member
      obtain ⟨item, inside, rfl⟩ := List.mem_map.mp member
      exact spells_item (all item inside)

theorem container_map {entries : Mapping}
    (all : ∀ entry ∈ entries, Phrase.value.Spells entry.2.compact) :
    Phrase.container.Spells (Value.map entries).compact := by
  rw [compact, compactEntries_eq]
  by_cases empty : entries = []
  · subst empty
    exact .emptyMap isBlanks_nil
  · apply Phrase.Spells.map
    apply spells_intercalate (fun _ => .lastEntry) (fun _ _ => .moreEntries)
    · exact mt List.map_eq_nil_iff.mp empty
    · intro text member
      obtain ⟨entry, inside, rfl⟩ := List.mem_map.mp member
      exact spells_entryText (all entry inside)

/-- The compact text of every value follows the grammar. -/
theorem spells_compact (plain : Plain depth v) : Phrase.value.Spells v.compact := by
  induction plain with
  | null => exact .null
  | bool b =>
    cases b with
    | true => exact .true
    | false => exact .false
  | int => exact .number (isNumber_int _)
  | str s => exact .string (isContent_flatMap_escape s.toList)
  | list _ ih => exact .container (container_list ih)
  | map _ _ ih => exact .container (container_map ih)

theorem container_compact (plain : Plain depth v) (compound : v.isScalar = false) :
    Phrase.container.Spells v.compact := by
  cases plain with
  | null | bool | int | str => cases compound
  | list plain => exact container_list fun item member => spells_compact (plain item member)
  | map _ plain => exact container_map fun entry member => spells_compact (plain entry member)

end PromptScript.Value
