import PromptScript.Proofs.Text.Break
import PromptScript.Proofs.Value.Spelling

/-!
JSON text whose line breaks are written another way. Between the parts of a value a break is a blank, and
inside of a string no newline may stand, so that the text is read as the same value.
-/
namespace PromptScript.Value

open Text

variable {α : Type} {b : Break} {text rest : List Char} {c : Char} {n taken : Nat}

theorem skipBlanks_write (b : Break) (text : List Char) :
    skipBlanks (b.write text) = b.write (skipBlanks text) :=
  Break.dropWhile_write_of_blanks (by decide) (by decide) (by decide) text

/-! ### Strings -/

/-- Up to a number of characters there is no break, or there is a first one. -/
theorem exists_first_break (n : Nat) (text : List Char) : '\n' ∉ text.take n ∨
    ∃ front rest, text = front ++ '\n' :: rest ∧ '\n' ∉ front ∧ front.length < n := by
  induction text generalizing n with
  | nil => exact .inl (by simp)
  | cons c rest ih =>
    cases n with
    | zero => exact .inl (by simp)
    | succ n =>
      by_cases here : c = '\n'
      · subst here
        exact .inr ⟨[], rest, rfl, List.not_mem_nil, Nat.succ_pos n⟩
      · rcases ih n with none | ⟨front, behind, rfl, single, short⟩
        · refine .inl ?_
          rw [List.take_succ_cons, List.mem_cons, not_or]
          exact ⟨Ne.symm here, none⟩
        · refine .inr ⟨c :: front, behind, rfl, ?_, by rw [List.length_cons]; omega⟩
          rw [List.mem_cons, not_or]
          exact ⟨Ne.symm here, single⟩

theorem readHex4_of_mem (member : c ∈ text.take 4) (other : hexValue? c = none) :
    readHex4 text = none := by
  match text with
  | [] | [_] | [_, _] | [_, _, _] => rfl
  | x :: y :: z :: w :: more =>
    simp only [List.take_succ_cons, List.take_zero, List.mem_cons, List.not_mem_nil, or_false] at member
    simp only [readHex4, Option.bind_eq_bind]
    rcases member with rfl | rfl | rfl | rfl <;> simp [other]

theorem readHex4_congr (same : text.take 4 = rest.take 4) : readHex4 text = readHex4 rest := by
  match text, rest with
  | x :: y :: z :: w :: more, x' :: y' :: z' :: w' :: more' =>
    simp only [List.take_succ_cons, List.take_zero, List.cons.injEq, and_true] at same
    obtain ⟨rfl, rfl, rfl, rfl⟩ := same
    rfl
  | [], rest => cases rest with
    | nil => rfl
    | cons _ _ => cases same
  | [_], rest => rcases rest with _ | ⟨_, _ | ⟨_, _⟩⟩ <;> first | rfl | cases same
  | [_, _], rest => rcases rest with _ | ⟨_, _ | ⟨_, _ | ⟨_, _⟩⟩⟩ <;> first | rfl | cases same
  | [_, _, _], rest =>
    rcases rest with _ | ⟨_, _ | ⟨_, _ | ⟨_, _ | ⟨_, _⟩⟩⟩⟩ <;> first | rfl | cases same
  | x :: y :: z :: w :: more, [] | x :: y :: z :: w :: more, [_] | x :: y :: z :: w :: more, [_, _]
  | x :: y :: z :: w :: more, [_, _, _] => cases same

theorem readHex4_write (b : Break) (text : List Char) : readHex4 (b.write text) = readHex4 text := by
  rcases exists_first_break 4 text with none | ⟨front, behind, rfl, single, short⟩
  · exact readHex4_congr (Break.take_write none)
  · -- Neither a newline nor a carriage return is a digit.
    obtain ⟨first, more, head, which⟩ := b.exists_head
    have inside (d : Char) (later : List Char) : d ∈ (front ++ d :: later).take 4 := by
      rw [List.take_append, List.take_of_length_le (by omega), List.mem_append]
      obtain ⟨k, same⟩ : ∃ k, 4 - front.length = k + 1 := ⟨3 - front.length, by omega⟩
      rw [same, List.take_succ_cons]
      exact .inr List.mem_cons_self
    have other : hexValue? first = none := by rcases which with rfl | rfl <;> decide
    rw [Break.write_append, Break.write_of_single single, Break.write_newline, head, List.cons_append,
      readHex4_of_mem (inside first _) other, readHex4_of_mem (inside '\n' behind) (by decide)]

theorem single_of_readHex4 (h : readHex4 text = some n) : '\n' ∉ text.take 4 := by
  intro member
  rw [readHex4_of_mem member (by decide)] at h
  cases h

theorem readLowSurrogate_write (b : Break) (text : List Char) :
    readLowSurrogate (b.write text) = readLowSurrogate text := by
  have mark (c : Char) (visible : isBlank c = false) : c ∉ b.text :=
    Break.not_mem_text_of_visible visible
  unfold readLowSurrogate
  split
  · next digits found =>
    obtain ⟨rest, rfl, behind⟩ := (Break.write_eq_cons_iff (mark '\\' (by decide))).mp found
    obtain ⟨more, rfl, rfl⟩ := (Break.write_eq_cons_iff (mark 'u' (by decide))).mp behind
    simp only [readHex4_write]
  · next none =>
    split
    · next digits =>
      refine absurd ?_ (none (b.write digits))
      rw [Break.write_cons_of_ne (by decide), Break.write_cons_of_ne (by decide)]
    · rfl

theorem readUnicodeEscape_write (b : Break) (text : List Char) :
    readUnicodeEscape (b.write text) = readUnicodeEscape text := by
  unfold readUnicodeEscape
  rw [readHex4_write]
  cases read : readHex4 text with
  | none => rfl
  | some unit => rw [Break.drop_write (single_of_readHex4 read), readLowSurrogate_write]

theorem single_of_readLowSurrogate (h : readLowSurrogate text = some n) : '\n' ∉ text.take 6 := by
  unfold readLowSurrogate at h
  split at h
  · next digits =>
    obtain ⟨read, -⟩ := Option.filter_eq_some_iff.mp h
    simpa using single_of_readHex4 read
  · cases h

theorem single_of_readUnicodeEscape (h : readUnicodeEscape text = some (c, taken)) :
    '\n' ∉ text.take taken := by
  simp only [readUnicodeEscape, Option.bind_eq_bind, Option.bind_eq_some_iff] at h
  obtain ⟨unit, read, h⟩ := h
  have first := single_of_readHex4 read
  split at h
  · obtain ⟨low, readLow, same⟩ := Option.bind_eq_some_iff.mp h
    obtain ⟨-, rfl⟩ := Prod.mk.inj (Option.some.inj same)
    rw [show 10 = 4 + 6 from rfl, List.take_add, List.mem_append, not_or]
    exact ⟨first, single_of_readLowSurrogate readLow⟩
  · split at h
    · cases h
    · obtain ⟨-, rfl⟩ := Prod.mk.inj (Option.some.inj h)
      exact first

/-- An escape is on one line. -/
theorem single_of_readEscape (h : readEscape text = some (c, taken)) : '\n' ∉ text.take taken := by
  unfold readEscape at h
  split at h
  case h_9 digits =>
    obtain ⟨⟨d, n⟩, read, same⟩ := Option.map_eq_some_iff.mp h
    cases same
    simpa using single_of_readUnicodeEscape read
  case h_10 => cases h
  all_goals
    cases h
    simp

theorem readEscape_write (b : Break) (text : List Char) :
    readEscape (b.write text) = readEscape text := by
  cases text with
  | nil => rfl
  | cons c rest =>
    by_cases newline : c = '\n'
    · subst newline
      obtain ⟨first, more, head, which⟩ := b.exists_head
      rw [Break.write_newline, head]
      rcases which with rfl | rfl <;> rfl
    · rw [Break.write_cons_of_ne newline]
      unfold readEscape
      split
      case h_9 digits same =>
        cases same
        simp only [readUnicodeEscape_write]
      all_goals simp_all

/-- What a reader takes from a text with other breaks. -/
def Unbroken (b : Break) (read : List Char → Option (α × List Char)) : Prop :=
  ∀ text, read (b.write text) = (read text).map (Prod.map id b.write)

theorem readString_unbroken (b : Break) : Unbroken b readString := by
  intro text
  induction text using readString.induct with
  | case1 => rw [Break.write_nil, readString]; rfl
  | case2 rest => rw [Break.write_cons_of_ne (by decide), readString, readString]; rfl
  | case3 escaped noEscape =>
    rw [Break.write_cons_of_ne (by decide), readString, readEscape_write, noEscape, readString,
      noEscape]
    rfl
  | case4 escaped c taken read ih =>
    rw [Break.write_cons_of_ne (by decide), readString, readEscape_write, read, readString, read]
    simp only [Break.drop_write (single_of_readEscape read), ih, Option.map_map]
    rfl
  | case5 c rest noQuote noBackslash control =>
    have nothing : readString (c :: rest) = none := by
      rw [readString, if_pos control]
      · exact noQuote
      · exact noBackslash
    rw [nothing]
    by_cases newline : c = '\n'
    · subst newline
      obtain ⟨first, more, head, which⟩ := b.exists_head
      rw [Break.write_newline, head, List.cons_append]
      rcases which with rfl | rfl <;> simp [readString]
    · rw [Break.write_cons_of_ne newline, readString, if_pos control]
      · rfl
      · exact noQuote
      · exact noBackslash
  | case6 c rest noQuote noBackslash control ih =>
    have newline : c ≠ '\n' := by
      rintro rfl
      exact control (by decide)
    have step (rest : List Char) : readString (c :: rest) =
        (readString rest).map fun read => (c :: read.1, read.2) := by
      rw [readString, if_neg control]
      · exact noQuote
      · exact noBackslash
    rw [Break.write_cons_of_ne newline, step, step, ih, Option.map_map, Option.map_map]
    rfl

/-! ### Numbers -/

theorem spanDigits_write (b : Break) (text : List Char) :
    spanDigits (b.write text) = ((spanDigits text).1, b.write (spanDigits text).2) := by
  rw [spanDigits, Break.takeWhile_write (by decide) (by decide),
    Break.dropWhile_write (by decide) (by decide)]
  rfl

theorem readFraction_unbroken (b : Break) : Unbroken b readFraction := by
  intro text
  have point : '.' ∉ b.text := Break.not_mem_text_of_visible (by decide)
  unfold readFraction
  split
  · next behind found =>
    obtain ⟨rest, rfl, rfl⟩ := (Break.write_eq_cons_iff point).mp found
    simp only [spanDigits_write]
    split <;> rfl
  · next none =>
    split
    · next behind =>
      exact absurd (Break.write_cons_of_ne (by decide) behind) (none _)
    · rfl

/-- Neither a newline nor what it is written as starts with a visible character. -/
theorem head?_write_ne {s : Char} (visible : isBlank s = false) (other : ∀ d ∈ text.head?, d ≠ s) :
    ∀ d ∈ (b.write text).head?, d ≠ s := by
  rintro d member rfl
  exact other d ((Break.head?_write_iff visible).mp member) rfl

theorem readExponent_unsigned (mark : c = 'e' ∨ c = 'E') (noMinus : ∀ d ∈ text.head?, d ≠ '-')
    (noPlus : ∀ d ∈ text.head?, d ≠ '+') : readExponent (c :: text) =
      if (spanDigits text).1.isEmpty then none
      else some (some (digitsValue (spanDigits text).1 : Int), (spanDigits text).2) := by
  rw [readExponent.eq_def]
  simp only [if_pos mark]
  split
  · exact absurd rfl (noMinus '-' rfl)
  · exact absurd rfl (noPlus '+' rfl)
  · rfl

theorem readExponent_unbroken (b : Break) : Unbroken b readExponent := by
  intro text
  cases text with
  | nil => rfl
  | cons c rest =>
    by_cases mark : c = 'e' ∨ c = 'E'
    · have newline : c ≠ '\n' := by rcases mark with rfl | rfl <;> decide
      rw [Break.write_cons_of_ne newline]
      by_cases minus : ∃ digits, rest = '-' :: digits
      · obtain ⟨digits, rfl⟩ := minus
        rw [Break.write_cons_of_ne (by decide)]
        simp only [readExponent, if_pos mark, spanDigits_write]
        split <;> rfl
      · by_cases plus : ∃ digits, rest = '+' :: digits
        · obtain ⟨digits, rfl⟩ := plus
          rw [Break.write_cons_of_ne (by decide)]
          simp only [readExponent, if_pos mark, spanDigits_write]
          split <;> rfl
        · have noMinus : ∀ d ∈ rest.head?, d ≠ '-' := by
            rintro d member rfl
            exact minus (List.head?_eq_some_iff.mp member)
          have noPlus : ∀ d ∈ rest.head?, d ≠ '+' := by
            rintro d member rfl
            exact plus (List.head?_eq_some_iff.mp member)
          rw [readExponent_unsigned mark noMinus noPlus, readExponent_unsigned mark
            (head?_write_ne (by decide) noMinus) (head?_write_ne (by decide) noPlus), spanDigits_write]
          split <;> rfl
    · have plain (d : Char) (rest : List Char) (other : ¬(d = 'e' ∨ d = 'E')) :
          readExponent (d :: rest) = some (none, d :: rest) := by
        simp only [readExponent.eq_def, if_neg other]
      rw [plain c rest mark]
      by_cases newline : c = '\n'
      · subst newline
        obtain ⟨first, more, head, which⟩ := b.exists_head
        have other : ¬(first = 'e' ∨ first = 'E') := by rcases which with rfl | rfl <;> decide
        rw [Option.map_some, Prod.map_apply, Break.write_newline, head, List.cons_append,
          plain first _ other, id]
      · rw [Option.map_some, Prod.map_apply, Break.write_cons_of_ne newline, plain c _ mark, id]

theorem readWhole_unbroken (b : Break) : Unbroken b readWhole := by
  intro text
  by_cases zero : ∃ rest, text = '0' :: rest
  · obtain ⟨rest, rfl⟩ := zero
    rw [Break.write_cons_of_ne (by decide)]
    have step (rest : List Char) : readWhole ('0' :: rest) =
        if rest.head?.any Char.isDigit then none else some (['0'], rest) := by
      cases rest <;> rfl
    rw [step, step, Break.any_head?_write (by decide)]
    split <;> rfl
  · have step {text : List Char} (other : ∀ d ∈ text.head?, d ≠ '0') : readWhole text =
        if (spanDigits text).1.isEmpty then none
        else some ((spanDigits text).1, (spanDigits text).2) := by
      unfold readWhole
      split
      · exact absurd rfl (other '0' rfl)
      · rfl
    have other : ∀ d ∈ text.head?, d ≠ '0' := by
      rintro d member rfl
      exact zero (List.head?_eq_some_iff.mp member)
    rw [step other, step (head?_write_ne (by decide) other), spanDigits_write]
    split <;> rfl

/-- The parts of a number behind its sign, one after the other. -/
def readUnsigned (negative : Bool) (text : List Char) : Option (Number × List Char) :=
  (readWhole text).bind fun whole =>
  (readFraction whole.2).bind fun fraction =>
  (readExponent fraction.2).bind fun exponent =>
  (makeNumber negative whole.1 fraction.1 exponent.1).bind fun number => some (number, exponent.2)

theorem readNumber_negative (digits : List Char) : readNumber ('-' :: digits) = readUnsigned true digits :=
  rfl

theorem readNumber_unsigned (other : ∀ d ∈ text.head?, d ≠ '-') :
    readNumber text = readUnsigned false text := by
  unfold readNumber
  split
  next negative digits same =>
  split at same
  · exact absurd rfl (other '-' rfl)
  · cases same
    rfl

theorem readUnsigned_unbroken (b : Break) (negative : Bool) : Unbroken b (readUnsigned negative) := by
  intro text
  simp only [readUnsigned, readWhole_unbroken b text, Option.bind_map, Option.map_bind]
  refine Option.bind_congr fun whole _ => ?_
  simp only [Function.comp_apply, Prod.map_fst, Prod.map_snd, id, readFraction_unbroken b whole.2,
    Option.bind_map, Option.map_bind]
  refine Option.bind_congr fun fraction _ => ?_
  simp only [Function.comp_apply, Prod.map_fst, Prod.map_snd, id, readExponent_unbroken b fraction.2,
    Option.bind_map]
  exact Option.bind_congr fun exponent _ => rfl

theorem readNumber_unbroken (b : Break) : Unbroken b readNumber := by
  intro text
  by_cases minus : ∃ digits, text = '-' :: digits
  · obtain ⟨digits, rfl⟩ := minus
    rw [Break.write_cons_of_ne (by decide), readNumber_negative, readNumber_negative]
    exact readUnsigned_unbroken b true digits
  · have other : ∀ d ∈ text.head?, d ≠ '-' := by
      rintro d member rfl
      exact minus (List.head?_eq_some_iff.mp member)
    rw [readNumber_unsigned other, readNumber_unsigned (head?_write_ne (by decide) other)]
    exact readUnsigned_unbroken b false text

/-! ### Values -/

theorem readScalar_other (noNull : ¬∃ rest, text = ['n', 'u', 'l', 'l'] ++ rest)
    (noTrue : ¬∃ rest, text = ['t', 'r', 'u', 'e'] ++ rest)
    (noFalse : ¬∃ rest, text = ['f', 'a', 'l', 's', 'e'] ++ rest)
    (noString : ¬∃ rest, text = ['"'] ++ rest) :
    readScalar text = (readNumber text).map fun (n, rest) => (.num n, rest) := by
  unfold readScalar
  split
  · exact absurd ⟨_, rfl⟩ noNull
  · exact absurd ⟨_, rfl⟩ noTrue
  · exact absurd ⟨_, rfl⟩ noFalse
  · exact absurd ⟨_, rfl⟩ noString
  · rfl

theorem readScalar_unbroken (b : Break) : Unbroken b readScalar := by
  intro text
  have word (word : List Char) (visible : word.all (!isBlank ·) = true) :
      (∃ rest, b.write text = word ++ rest) ↔ ∃ rest, text = word ++ rest :=
    Break.write_word word visible
  by_cases null : ∃ rest, text = ['n', 'u', 'l', 'l'] ++ rest
  · obtain ⟨rest, rfl⟩ := null
    rw [Break.write_append, Break.write_of_single (by decide)]
    rfl
  by_cases true' : ∃ rest, text = ['t', 'r', 'u', 'e'] ++ rest
  · obtain ⟨rest, rfl⟩ := true'
    rw [Break.write_append, Break.write_of_single (by decide)]
    rfl
  by_cases false' : ∃ rest, text = ['f', 'a', 'l', 's', 'e'] ++ rest
  · obtain ⟨rest, rfl⟩ := false'
    rw [Break.write_append, Break.write_of_single (by decide)]
    rfl
  by_cases string : ∃ rest, text = ['"'] ++ rest
  · obtain ⟨rest, rfl⟩ := string
    rw [Break.write_append, Break.write_of_single (by decide), List.singleton_append,
      List.singleton_append]
    simp only [readScalar, readString_unbroken b rest, Option.map_map]
    rfl
  rw [readScalar_other null true' false' string, readScalar_other
    (mt (word ['n', 'u', 'l', 'l'] rfl).mp null)
    (mt (word ['t', 'r', 'u', 'e'] rfl).mp true')
    (mt (word ['f', 'a', 'l', 's', 'e'] rfl).mp false')
    (mt (word ['"'] rfl).mp string),
    readNumber_unbroken, Option.map_map, Option.map_map]
  rfl

/-! ### Lists and mappings -/

variable {readOne : List Char → Option (α × List Char)} {close : Char} {kind : List Char → Prop}

/-- What follows an item and a separator is shorter than what the item was read from. -/
theorem length_behind_item {item : α} {more : List Char} (one : Takes kind readOne)
    (read : readOne text = some (item, rest)) (found : skipBlanks rest = c :: more) :
    more.length < text.length := by
  obtain ⟨used, rfl, -⟩ := one read
  have shorter := (List.dropWhile_suffix isJsonBlank (l := rest)).length_le
  rw [← skipBlanks, found, List.length_cons] at shorter
  rw [List.length_append]
  omega

theorem readSeparated_unbroken (takes : Takes kind readOne)
    (one : Unbroken b readOne) : Unbroken b (readSeparated readOne close) := by
  intro text
  induction length : text.length using Nat.strongRecOn generalizing text with
  | ind size ih =>
    rw [readSeparated, one text, readSeparated]
    cases read : readOne text with
    | none => rfl
    | some found =>
      obtain ⟨item, rest⟩ := found
      simp only [Option.map_some, Prod.map_apply, id, skipBlanks_write]
      cases behind : skipBlanks rest with
      | nil => rfl
      | cons c more =>
        by_cases newline : c = '\n'
        · -- No blank is left.
          have bars := bars_dropWhile isJsonBlank rest c
          rw [← skipBlanks, behind] at bars
          exact absurd (bars rfl) (by rw [newline]; decide)
        rw [Break.write_cons_of_ne newline]
        simp only
        by_cases closes : c = close
        · rw [if_pos closes, if_pos closes]
          rfl
        · rw [if_neg closes, if_neg closes]
          by_cases comma : c = ','
          · have shorter := length_behind_item takes read behind
            have shorter' : (b.write more).length < (b.write text).length := by
              obtain ⟨used, split, -⟩ := takes read
              have suffix := List.dropWhile_suffix isJsonBlank (l := rest)
              rw [← skipBlanks, behind] at suffix
              obtain ⟨blanks, same⟩ := suffix
              rw [split, ← same, Break.write_append, Break.write_append, Break.write_cons_of_ne newline]
              simp only [List.length_append, List.length_cons]
              omega
            rw [if_pos comma, if_pos comma, dif_pos shorter, dif_pos shorter',
              ih _ (length ▸ shorter) more rfl, Option.map_map, Option.map_map]
            rfl
          · rw [if_neg comma, if_neg comma]
            rfl

theorem readEnclosed_unbroken (takes : Takes kind readOne)
    (one : Unbroken b readOne) : Unbroken b (readEnclosed readOne close) := by
  intro text
  rw [readEnclosed, readEnclosed, skipBlanks_write]
  cases found : skipBlanks text with
  | nil => rfl
  | cons c rest =>
    have newline : c ≠ '\n' := by
      rintro rfl
      have bars := bars_dropWhile isJsonBlank text '\n'
      rw [← skipBlanks, found] at bars
      exact absurd (bars rfl) (by decide)
    rw [Break.write_cons_of_ne newline]
    simp only
    split
    · rfl
    · rw [← Break.write_cons_of_ne newline]
      exact readSeparated_unbroken takes one (c :: rest)

theorem readEntry_unbroken (one : Unbroken b readOne) : Unbroken b (readEntry readOne) := by
  intro text
  have quote : '"' ∉ b.text := Break.not_mem_text_of_visible (by decide)
  have colon : ':' ∉ b.text := Break.not_mem_text_of_visible (by decide)
  unfold readEntry
  rw [skipBlanks_write]
  by_cases key : ∃ rest, skipBlanks text = '"' :: rest
  · obtain ⟨rest, found⟩ := key
    rw [found, Break.write_cons_of_ne (by decide)]
    simp only [Option.bind_eq_bind, readString_unbroken b rest, Option.bind_map, Option.map_bind]
    refine Option.bind_congr fun key _ => ?_
    simp only [Function.comp_apply, Prod.map_fst, Prod.map_snd, id, skipBlanks_write]
    by_cases value : ∃ rest, skipBlanks key.2 = ':' :: rest
    · obtain ⟨rest, found'⟩ := value
      rw [found', Break.write_cons_of_ne (by decide)]
      simp only [one rest, Option.bind_map, Option.map_bind]
      exact Option.bind_congr fun _ _ => rfl
    · split
      · next rest found' =>
        obtain ⟨behind, same, -⟩ := (Break.write_eq_cons_iff colon).mp found'
        exact absurd ⟨behind, same⟩ value
      · split
        · next rest found' => exact absurd ⟨rest, found'⟩ value
        · rfl
  · split
    · next rest found =>
      obtain ⟨behind, same, -⟩ := (Break.write_eq_cons_iff quote).mp found
      exact absurd ⟨behind, same⟩ key
    · split
      · next rest found => exact absurd ⟨rest, found⟩ key
      · rfl

/-- No bracket stands first when none stood there before. -/
theorem noBracket (none : ¬∃ rest, skipBlanks text = c :: rest) (visible : isBlank c = false) :
    ¬∃ rest, skipBlanks (b.write text) = c :: rest := by
  rintro ⟨rest, found⟩
  rw [skipBlanks_write] at found
  obtain ⟨behind, same, -⟩ :=
    (Break.write_eq_cons_iff (Break.not_mem_text_of_visible visible)).mp found
  exact none ⟨behind, same⟩

theorem skipBlanks_write_cons (visible : isBlank c = false) (found : skipBlanks text = c :: rest) :
    skipBlanks (b.write text) = c :: b.write rest := by
  rw [skipBlanks_write, found]
  exact (Break.write_eq_cons_iff (Break.not_mem_text_of_visible visible)).mpr ⟨rest, rfl, rfl⟩

theorem readValue_other {depth : Nat} (noList : ¬∃ rest, skipBlanks text = '[' :: rest)
    (noMap : ¬∃ rest, skipBlanks text = '\x7b' :: rest) :
    readValue depth text = readScalar (skipBlanks text) := by
  unfold readValue
  split
  · next rest found => exact absurd ⟨rest, found⟩ noList
  · next rest found => exact absurd ⟨rest, found⟩ noMap
  · next rest found => exact absurd ⟨rest, found⟩ noList
  · next rest found => exact absurd ⟨rest, found⟩ noMap
  · rfl

theorem readValue_unbroken (depth : Nat) (b : Break) : Unbroken b (readValue depth) := by
  induction depth with
  | zero =>
    intro text
    by_cases list : ∃ rest, skipBlanks text = '[' :: rest
    · obtain ⟨rest, found⟩ := list
      rw [readValue.eq_1 _ _ found, readValue.eq_1 _ _ (skipBlanks_write_cons (by decide) found)]
      rfl
    by_cases map : ∃ rest, skipBlanks text = '\x7b' :: rest
    · obtain ⟨rest, found⟩ := map
      rw [readValue.eq_2 _ _ found, readValue.eq_2 _ _ (skipBlanks_write_cons (by decide) found)]
      rfl
    rw [readValue_other list map, readValue_other (noBracket list (by decide))
      (noBracket map (by decide)), skipBlanks_write, readScalar_unbroken]
  | succ depth ih =>
    intro text
    by_cases list : ∃ rest, skipBlanks text = '[' :: rest
    · obtain ⟨rest, found⟩ := list
      rw [readValue.eq_3 _ _ _ found, readValue.eq_3 _ _ _ (skipBlanks_write_cons (by decide) found)]
      simp only [readEnclosed_unbroken (readValue_takes depth) ih rest, Option.map_map]
      rfl
    by_cases map : ∃ rest, skipBlanks text = '\x7b' :: rest
    · obtain ⟨rest, found⟩ := map
      rw [readValue.eq_4 _ _ _ found, readValue.eq_4 _ _ _ (skipBlanks_write_cons (by decide) found)]
      have takes := readEntry_takes (readValue_takes depth)
      simp only [readEnclosed_unbroken takes (readEntry_unbroken ih) rest, Option.map_map]
      rfl
    rw [readValue_other list map, readValue_other (noBracket list (by decide))
      (noBracket map (by decide)), skipBlanks_write, readScalar_unbroken]

/-- A text spells the same value with its line breaks written another way. -/
theorem ofText?_write (b : Break) (text : List Char) : ofText? (b.write text) = ofText? text := by
  rw [ofText?, ofTextWithin?, readValue_unbroken, ofText?, ofTextWithin?]
  cases read : readValue maxDepth text with
  | none => rfl
  | some found =>
    obtain ⟨value, rest⟩ := found
    have nothing : (skipBlanks (b.write rest)).isEmpty = (skipBlanks rest).isEmpty := by
      rw [skipBlanks_write, Bool.eq_iff_iff, List.isEmpty_iff, List.isEmpty_iff, Break.write_eq_nil_iff]
    simp only [Option.map_some, Prod.map_apply, id, nothing]

end PromptScript.Value
