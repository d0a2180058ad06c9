import PromptScript.Proofs.Value.RoundTrip
import PromptScript.Value.Outline

/-!
Outlines of text that was written for a value. What can be read as a value can be passed over as one, so
that the fields of a record come out with the text that was written for them.
-/
namespace PromptScript

open Text

namespace Value

/-! ### What is read is passed over -/

variable {text escaped rest content : List Char} {c : Char} {used : Nat}

theorem readUnicodeEscape_some (h : readUnicodeEscape text = some (c, used)) :
    (∃ unit, readHex4 text = some unit) ∧
      (used = 4 ∨ used = 10 ∧ ∃ low, readLowSurrogate (text.drop 4) = some low) := by
  simp only [readUnicodeEscape, Option.bind_eq_bind, Option.bind_eq_some_iff] at h
  obtain ⟨unit, read, h⟩ := h
  refine ⟨⟨unit, read⟩, ?_⟩
  split at h
  · obtain ⟨low, second, h⟩ := Option.bind_eq_some_iff.mp h
    obtain ⟨_, rfl⟩ := Prod.mk.inj (Option.some.inj h)
    exact .inr ⟨rfl, low, second⟩
  · split at h
    · cases h
    · obtain ⟨_, rfl⟩ := Prod.mk.inj (Option.some.inj h)
      exact .inl rfl

theorem readLowSurrogate_some {low : Nat} (h : readLowSurrogate text = some low) :
    ∃ digits unit, text = '\\' :: 'u' :: digits ∧ readHex4 digits = some unit := by
  unfold readLowSurrogate at h
  split at h
  · next digits =>
    obtain ⟨read, _⟩ := Option.filter_eq_some_iff.mp h
    exact ⟨digits, low, rfl, read⟩
  · cases h

theorem skipString_escape (h : readEscape escaped = some (c, used)) :
    skipString ('\\' :: escaped) = skipString (escaped.drop used) := by
  unfold readEscape at h
  split at h
  case h_9 digits =>
    obtain ⟨⟨c', used⟩, read, h⟩ := Option.map_eq_some_iff.mp h
    cases h
    obtain ⟨⟨unit, first⟩, rfl | ⟨rfl, low, second⟩⟩ := readUnicodeEscape_some read
    · rw [skipString]
      simp [escapeLength?, first]
    · -- The halves of a pair are passed over as two escapes.
      obtain ⟨digits', unit', behind, other⟩ := readLowSurrogate_some second
      have jump : digits.drop 10 = digits'.drop 4 := by
        rw [← List.drop_drop (i := 6) (j := 4), behind]
        rfl
      rw [skipString]
      simp only [escapeLength?, first, Option.map_some, List.drop_succ_cons, behind]
      rw [skipString]
      simp only [escapeLength?, other, Option.map_some, List.drop_succ_cons, jump]
  case h_10 => cases h
  all_goals
    cases h
    rw [skipString]
    simp [escapeLength?]

theorem skipString_of_readString (h : readString text = some (content, rest)) :
    skipString text = some rest := by
  fun_induction readString text generalizing content with
  | case1 => cases h
  | case2 more =>
    cases h
    rw [skipString]
  | case3 => cases h
  | case4 escaped c used escape ih =>
    obtain ⟨⟨content', _⟩, read, h⟩ := Option.map_eq_some_iff.mp h
    cases h
    rw [skipString_escape escape]
    exact ih read
  | case5 => cases h
  | case6 c more noQuote noBackslash plain ih =>
    obtain ⟨⟨content', _⟩, read, h⟩ := Option.map_eq_some_iff.mp h
    cases h
    rw [skipString, if_neg plain]
    · exact ih read
    · exact noQuote
    · exact noBackslash

theorem skipNumber_of_readNumber {n : Number} (h : readNumber text = some (n, rest)) :
    skipNumber text = some rest := by
  unfold skipNumber
  simp only [Option.bind_eq_bind, Option.bind_eq_some_iff]
  -- Whether a sign is passed over is decided first, so that both readers see the same text.
  split
  · unfold readNumber at h
    simp only [Option.bind_eq_bind, Option.bind_eq_some_iff] at h
    obtain ⟨whole, wholePart, fraction, fractionPart, exponent, exponentPart, _, _, h⟩ := h
    cases h
    exact ⟨whole, wholePart, fraction, fractionPart, exponent, exponentPart, rfl⟩
  · next unsigned =>
    unfold readNumber at h
    split at h
    next negative digits sign =>
      split at sign
      · exact absurd rfl (unsigned _)
      · cases sign
        simp only [Option.bind_eq_bind, Option.bind_eq_some_iff] at h
        obtain ⟨whole, wholePart, fraction, fractionPart, exponent, exponentPart, _, _, h⟩ := h
        cases h
        exact ⟨whole, wholePart, fraction, fractionPart, exponent, exponentPart, rfl⟩

theorem skipScalar_of_readScalar {v : Value} (h : readScalar text = some (v, rest)) :
    skipScalar text = some rest := by
  unfold readScalar at h
  split at h
  · cases h; rfl
  · cases h; rfl
  · cases h; rfl
  · obtain ⟨⟨content, _⟩, read, h⟩ := Option.map_eq_some_iff.mp h
    cases h
    exact skipString_of_readString read
  · obtain ⟨⟨n, _⟩, read, h⟩ := Option.map_eq_some_iff.mp h
    cases h
    rw [skipScalar]
    · exact skipNumber_of_readNumber read
    all_goals assumption

section

variable {α β : Type} {readOne : List Char → Option (α × List Char)}
  {other : List Char → Option (β × List Char)} {close : Char}

theorem readSeparated_other
    (follows : ∀ {text rest a}, readOne text = some (a, rest) → ∃ b, other text = some (b, rest))
    {items : List α} (h : readSeparated readOne close text = some (items, rest)) :
    ∃ items', readSeparated other close text = some (items', rest) := by
  fun_induction readSeparated readOne close text generalizing items with
  | case1 | case2 | case5 | case6 => cases h
  | case3 text item behind read more ends =>
    obtain ⟨b, passed⟩ := follows read
    cases h
    refine ⟨[b], ?_⟩
    rw [readSeparated, passed]
    simp [ends]
  | case4 text item behind read more shape notEnd shorter ih =>
    obtain ⟨b, passed⟩ := follows read
    obtain ⟨⟨items, _⟩, later, h⟩ := Option.map_eq_some_iff.mp h
    cases h
    obtain ⟨items', passed'⟩ := ih later
    refine ⟨b :: items', ?_⟩
    rw [readSeparated, passed]
    simp [shape, notEnd, shorter, passed']

theorem readEnclosed_other
    (follows : ∀ {text rest a}, readOne text = some (a, rest) → ∃ b, other text = some (b, rest))
    {items : List α} (h : readEnclosed readOne close text = some (items, rest)) :
    ∃ items', readEnclosed other close text = some (items', rest) := by
  unfold readEnclosed at h ⊢
  cases shape : skipBlanks text with
  | nil => simp [shape] at h
  | cons c more =>
    simp only [shape] at h ⊢
    by_cases ends : c = close
    · simp only [ends, if_true, Option.some.injEq, Prod.mk.injEq] at h ⊢
      exact ⟨[], rfl, h.2⟩
    · simp only [ends, if_false] at h ⊢
      exact readSeparated_other follows h

end

theorem taken_of_skip {skipOne : List Char → Option (List Char)} (h : skipOne text = some rest) :
    taken skipOne text = some (text.take (text.length - rest.length), rest) := by
  rw [taken, h]
  rfl

theorem skipEntry_of_readEntry {α : Type} {readOne : List Char → Option (α × List Char)}
    {skipOne : List Char → Option (List Char)}
    (follows : ∀ {text rest a}, readOne text = some (a, rest) → skipOne text = some rest)
    {entry : String × α} (h : readEntry readOne text = some (entry, rest)) :
    skipEntry skipOne text = some rest := by
  unfold readEntry at h
  split at h
  · next behind shape =>
    simp only [Option.bind_eq_bind, Option.bind_eq_some_iff] at h
    obtain ⟨⟨key, after⟩, read, h⟩ := h
    split at h
    · next value colon =>
      obtain ⟨⟨a, _⟩, readValue, h⟩ := Option.bind_eq_some_iff.mp h
      cases h
      rw [skipEntry, shape]
      simp only [skipString_of_readString read, Option.bind_eq_bind, Option.bind_some, colon]
      exact follows readValue
    · cases h
  · cases h

theorem skipValue_scalar {depth : Nat} (noList : ∀ inner, skipBlanks text ≠ '[' :: inner)
    (noMap : ∀ inner, skipBlanks text ≠ '\x7b' :: inner) :
    skipValue depth text = skipScalar (skipBlanks text) := by
  unfold skipValue
  split
  · next shape => exact absurd shape (noList _)
  · next shape => exact absurd shape (noMap _)
  · next shape => exact absurd shape (noList _)
  · next shape => exact absurd shape (noMap _)
  · rfl

/-- What can be read as a value can be passed over, up to where the value ends. -/
theorem skipValue_of_readValue {depth : Nat} {v : Value} (h : readValue depth text = some (v, rest)) :
    skipValue depth text = some rest := by
  induction depth generalizing text v rest with
  | zero =>
    unfold readValue at h
    split at h
    · cases h
    · cases h
    · next none _ => cases none
    · next none _ => cases none
    · next noList noMap _ _ =>
      rw [skipValue_scalar (fun inner => noList inner rfl) fun inner => noMap inner rfl]
      exact skipScalar_of_readScalar h
  | succ depth ih =>
    unfold readValue at h
    split at h
    · next none _ => cases none
    · next none _ => cases none
    · next inner same shape =>
      cases same
      obtain ⟨⟨items, _⟩, read, h⟩ := Option.map_eq_some_iff.mp h
      cases h
      obtain ⟨items', passed⟩ := readEnclosed_other (fun one => ⟨_, taken_of_skip (ih one)⟩) read
      unfold skipValue
      simp only [shape, passed, Option.map_some]
    · next inner same shape =>
      cases same
      obtain ⟨⟨entries, _⟩, read, h⟩ := Option.map_eq_some_iff.mp h
      cases h
      obtain ⟨entries', passed⟩ := readEnclosed_other
        (fun one => ⟨_, taken_of_skip (skipEntry_of_readEntry ih one)⟩) read
      unfold skipValue
      simp only [shape, passed, Option.map_some]
    · next _ _ noList noMap =>
      rw [skipValue_scalar (fun inner => noList depth inner rfl) fun inner => noMap depth inner rfl]
      exact skipScalar_of_readScalar h

/-! ### Outlines -/

section

variable {space : List Char} {layout : Nat → Value → List Char}

theorem length_le_intercalate {texts : List (List Char)} (member : text ∈ texts) :
    text.length ≤ ([','].intercalate texts).length := by
  induction texts with
  | nil => cases member
  | cons first others ih =>
    cases others with
    | nil =>
      cases List.mem_singleton.mp member
      rw [List.intercalate_singleton]
    | cons second others =>
      rw [List.intercalate_cons_cons, List.length_append, List.length_append]
      rcases List.mem_cons.mp member with rfl | later
      · omega
      · have shorter := ih later
        omega

theorem length_le_spaced (blanks : List Char) {texts : List (List Char)} (member : text ∈ texts) :
    text.length ≤ ([','].intercalate (spaced blanks texts)).length := by
  cases texts with
  | nil => cases member
  | cons first others =>
    rcases List.mem_cons.mp member with rfl | later
    · exact length_le_intercalate List.mem_cons_self
    · have longer : blanks ++ text ∈ spaced blanks (first :: others) :=
        List.mem_cons_of_mem _ (List.mem_map_of_mem later)
      have within := length_le_intercalate longer
      rw [List.length_append] at within
      omega

theorem Encloses.length_lt {opening close : Char} {texts : List (List Char)} {whole : List Char}
    (encloses : Encloses opening close texts whole) (member : text ∈ texts) :
    text.length < whole.length := by
  obtain ⟨blanks, closing, _, rfl, _⟩ := encloses
  have within := length_le_spaced blanks member
  simp only [List.length_cons, List.length_append]
  omega

theorem Encloses.exists_length {opening close : Char} {texts : List (List Char)} {whole : List Char}
    (encloses : Encloses opening close texts whole) : ∃ n, whole.length = n + 1 := by
  obtain ⟨blanks, closing, _, rfl, _⟩ := encloses
  exact ⟨_, rfl⟩

/-- A value has no more levels than its text has characters. -/
theorem Lays.nesting_le_length (lays : Lays space layout) {depth : Nat} {v : Value}
    (plain : Plain depth v) (level : Nat) : v.nesting ≤ (layout level v).length := by
  induction plain generalizing level with
  | null | bool | int | str => exact Nat.zero_le _
  | @list _ items _ ih =>
    have encloses := lays.list level items
    obtain ⟨n, length⟩ := encloses.exists_length
    rw [length, nesting_list_le]
    intro item member
    have shorter := encloses.length_lt (List.mem_map_of_mem member)
    have within := ih item member (level + 1)
    omega
  | @map _ entries _ _ ih =>
    have encloses := lays.map level entries
    obtain ⟨n, length⟩ := encloses.exists_length
    rw [length, nesting_map_le]
    intro entry member
    have shorter := encloses.length_lt (List.mem_map_of_mem member)
    have within := ih entry member (level + 1)
    simp only [entryText, List.length_append, List.length_cons] at shorter
    omega

/-- The text of a value is taken as it is, with the blanks in front of it. -/
theorem readText_laid (lays : Lays space layout) {depth : Nat} {v : Value} (plain : Plain depth v)
    (level : Nat) {blanks rest : List Char} (blank : ∀ c ∈ blanks, isJsonBlank c = true)
    (bars : Bars continuesNumber rest) :
    readText (blanks ++ (layout level v ++ rest)) = some (blanks ++ layout level v, rest) := by
  have enough : v.nesting ≤ (blanks ++ (layout level v ++ rest)).length := by
    have within := lays.nesting_le_length plain level
    simp only [List.length_append]
    omega
  have read := (readValue_laid lays plain _ level bars).trans (if_pos enough)
  rw [← readValue_blanks blank] at read
  have front : (blanks ++ (layout level v ++ rest)).take
      ((blanks ++ (layout level v ++ rest)).length - rest.length) = blanks ++ layout level v := by
    rw [← List.append_assoc, List.length_append, Nat.add_sub_cancel, List.take_left]
  rw [readText, taken_of_skip (skipValue_of_readValue read), front]

theorem exists_of_mem_spaced {blanks : List Char} {texts : List (List Char)}
    (member : text ∈ spaced blanks texts) :
    ∃ text' ∈ texts, text = text' ∨ text = blanks ++ text' := by
  cases texts with
  | nil => cases member
  | cons first others =>
    rcases List.mem_cons.mp member with rfl | later
    · exact ⟨text, List.mem_cons_self, .inl rfl⟩
    · obtain ⟨text', member', rfl⟩ := List.mem_map.mp later
      exact ⟨text', List.mem_cons_of_mem _ member', .inr rfl⟩

end

end Value

namespace Outline

open Value

variable {space : List Char} {layout : Nat → Value → List Char} {depth : Nat} {before after : List Char}

/-- The outline of a list is made of the texts of its items, with blanks in front of them. -/
theorem ofText?_list (lays : Lays space layout) {items : List Value}
    (plain : ∀ item ∈ items, Plain depth item) (level : Nat)
    (blank : ∀ c ∈ before, isJsonBlank c = true) (blank' : ∀ c ∈ after, isJsonBlank c = true) :
    ∃ blanks, (∀ c ∈ blanks, isJsonBlank c = true) ∧
      ofText? (before ++ (layout level (.list items) ++ after)) =
        some (.list (spaced blanks (items.map (layout (level + 1))))) := by
  obtain ⟨blanks, closing, between, same, ends⟩ := lays.list level items
  have reads : List.Forall₂ (ReadsItem readText ']' fun _ => True)
      (spaced blanks (items.map (layout (level + 1))))
      (spaced blanks (items.map (layout (level + 1)))) := by
    refine List.forall₂_same.mpr fun text member rest (follows : Follows ']' rest) => ?_
    obtain ⟨_, inside, spelled⟩ := exists_of_mem_spaced member
    obtain ⟨item, here, rfl⟩ := List.mem_map.mp inside
    have bars := follows.bars (by decide)
    rw [if_pos trivial]
    rcases spelled with rfl | rfl
    · exact readText_laid lays (plain item here) (level + 1) (List.forall_mem_nil _) bars
    · rw [List.append_assoc]
      exact readText_laid lays (plain item here) (level + 1) between bars
  have starts : ∀ text ∈ (spaced blanks (items.map (layout (level + 1)))).head?,
      ∃ c more, text = c :: more ∧ isJsonBlank c = false ∧ c ≠ ']' := by
    intro text first
    cases items with
    | nil => cases first
    | cons item others =>
      cases first
      exact lays.head (plain item List.mem_cons_self) (level + 1)
  have enclosed := readEnclosed_texts (by decide) between (ends after) starts reads
  simp only [implies_true, if_true] at enclosed
  refine ⟨blanks, between, ?_⟩
  unfold ofText?
  simp only [same, skipBlanks_append blank, List.cons_append, List.append_assoc,
    skipBlanks_cons (c := '[') rfl, enclosed, Option.map_some, Option.bind_eq_bind, Option.bind_some,
    skipBlanks_of_blank blank', List.isEmpty_nil, if_true]
  rfl

/-- The keys of a mapping with the texts of their values. -/
def fieldsOf (text : Value → List Char) (entries : Mapping) : List (String × List Char) :=
  entries.map fun entry => (entry.1, text entry.2)

/-- The outline of a mapping is made of its keys with the texts of their values. -/
theorem ofText?_map (lays : Lays space layout) {entries : Mapping}
    (plain : ∀ entry ∈ entries, Plain depth entry.2) (level : Nat)
    (blank : ∀ c ∈ before, isJsonBlank c = true) (blank' : ∀ c ∈ after, isJsonBlank c = true) :
    ofText? (before ++ (layout level (.map entries) ++ after)) =
      some (.record (fieldsOf (space ++ layout (level + 1) ·) entries)) := by
  have reads (blanks : List Char) (between : ∀ c ∈ blanks, isJsonBlank c = true) :
      List.Forall₂ (ReadsItem (readEntry readText) '\x7d' fun _ => True)
        (fieldsOf (space ++ layout (level + 1) ·) entries)
        (spaced blanks (entries.map (entryText space (layout (level + 1))))) := by
    have texts : entries.map (entryText space (layout (level + 1))) =
        (fieldsOf (space ++ layout (level + 1) ·) entries).map
          fun field => quote field.1 ++ ':' :: field.2 := by
      rw [fieldsOf, List.map_map]
      rfl
    have one : ∀ field ∈ fieldsOf (space ++ layout (level + 1) ·) entries,
        ReadsItem (readEntry readText) '\x7d' (fun _ => True) field
          (quote field.1 ++ ':' :: field.2) := by
      refine List.forall_mem_map.mpr fun entry member rest (follows : Follows '\x7d' rest) => ?_
      have read := readText_laid lays (plain entry member) (level + 1) lays.blank
        (follows.bars (by decide))
      rw [if_pos trivial, List.append_assoc, List.cons_append, List.append_assoc, readEntry_text, read]
      rfl
    rw [texts]
    exact forall₂_spaced one fun field member =>
      (one field member).spaced (readEntry_blanks between _)
  obtain ⟨inner, same, enclosed⟩ := (lays.map level entries).read (by decide)
    (List.forall_mem_map.mpr fun entry _ => ⟨'"', _, rfl, by decide⟩) reads after
  simp only [implies_true, if_true] at enclosed
  unfold ofText?
  simp only [same, skipBlanks_append blank, skipBlanks_cons (c := '\x7b') rfl, enclosed,
    Option.map_some, Option.bind_eq_bind, Option.bind_some, skipBlanks_of_blank blank',
    List.isEmpty_nil, if_true]
  rfl

end Outline

end PromptScript
