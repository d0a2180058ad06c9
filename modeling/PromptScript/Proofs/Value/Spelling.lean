import PromptScript.Proofs.Value.Grammar

/-!
What is read as JSON follows the grammar: the reader takes a phrase from the start of a text, and leaves what
is behind it.
-/
namespace PromptScript.Value

variable {α : Type} {text rest body content escaped before behind : List Char} {c : Char}
  {n taken depth : Nat} {v : Value} {phrase one many : Phrase}

/-- A reader takes a text of a kind from the start of what it reads. -/
def Takes (kind : List Char → Prop) (read : List Char → Option (α × List Char)) : Prop :=
  ∀ ⦃text rest : List Char⦄ ⦃a : α⦄, read text = some (a, rest) →
    ∃ used, text = used ++ rest ∧ kind used

/-! ### Blanks -/

theorem exists_skipBlanks (text : List Char) :
    ∃ blanks, IsBlanks blanks ∧ text = blanks ++ skipBlanks text :=
  ⟨text.takeWhile isJsonBlank, fun _ member => List.mem_takeWhile_imp member,
    List.takeWhile_append_dropWhile.symm⟩

theorem IsBlanks.append (h : IsBlanks before) (h' : IsBlanks behind) : IsBlanks (before ++ behind) :=
  List.forall_mem_append.mpr ⟨h, h'⟩

/-- Whether blanks around a phrase belong to it. -/
def Phrase.isLoose : Phrase → Bool
  | .container | .value => false
  | .item | .items | .entry | .entries => true

theorem Phrase.Spells.blanks_before (h : phrase.Spells text) (loose : phrase.isLoose)
    (blanks : IsBlanks before) : phrase.Spells (before ++ text) := by
  induction h with
  | emptyList | list | emptyMap | map | container | null | true | false | number | string => cases loose
  | item first value last =>
    rw [← List.append_assoc, ← List.append_assoc]
    exact .item (blanks.append first) value last
  | lastItem _ ih => exact .lastItem (ih rfl)
  | moreItems _ more ih =>
    rw [← List.append_assoc]
    exact .moreItems (ih rfl) more
  | entry first content last value =>
    rw [← List.append_assoc, ← List.append_assoc, ← List.append_assoc]
    exact .entry (blanks.append first) content last value
  | lastEntry _ ih => exact .lastEntry (ih rfl)
  | moreEntries _ more ih =>
    rw [← List.append_assoc]
    exact .moreEntries (ih rfl) more

theorem Phrase.Spells.blanks_behind (h : phrase.Spells text) (loose : phrase.isLoose)
    (blanks : IsBlanks behind) : phrase.Spells (text ++ behind) := by
  induction h with
  | emptyList | list | emptyMap | map | container | null | true | false | number | string => cases loose
  | item first value last =>
    rw [List.append_assoc]
    exact .item first value (last.append blanks)
  | lastItem _ ih => exact .lastItem (ih rfl)
  | moreItems item _ _ ih =>
    rw [List.append_assoc]
    exact .moreItems item (ih rfl)
  | entry first content last _ ih =>
    rw [List.append_assoc]
    exact .entry first content last (ih rfl)
  | lastEntry _ ih => exact .lastEntry (ih rfl)
  | moreEntries entry _ _ ih =>
    rw [List.append_assoc]
    exact .moreEntries entry (ih rfl)

/-! ### Strings -/

theorem isContent_of_readHex4 (h : readHex4 text = some n) (later : IsContent body) :
    IsContent ('\\' :: 'u' :: (text.take 4 ++ body)) := by
  match text, h with
  | a :: b :: c :: d :: more, h =>
    simp only [readHex4, Option.bind_eq_bind, Option.bind_eq_some_iff] at h
    obtain ⟨_, first, _, second, _, third, _, fourth, _⟩ := h
    have digits : ∀ digit ∈ [a, b, c, d], (hexValue? digit).isSome = true := by
      simp only [List.forall_mem_cons, first, second, third, fourth, Option.isSome_some, true_and]
      exact List.forall_mem_nil _
    exact .code rfl digits later

theorem isContent_of_readLowSurrogate (h : readLowSurrogate text = some n) (later : IsContent body) :
    IsContent (text.take 6 ++ body) := by
  unfold readLowSurrogate at h
  split at h
  · next digits =>
    obtain ⟨read, -⟩ := Option.filter_eq_some_iff.mp h
    exact isContent_of_readHex4 read later
  · cases h

theorem isContent_of_readUnicodeEscape (h : readUnicodeEscape text = some (c, taken))
    (later : IsContent body) : IsContent ('\\' :: 'u' :: (text.take taken ++ body)) := by
  simp only [readUnicodeEscape, Option.bind_eq_bind, Option.bind_eq_some_iff] at h
  obtain ⟨unit, read, h⟩ := h
  split at h
  · obtain ⟨low, readLow, same⟩ := Option.bind_eq_some_iff.mp h
    obtain ⟨-, rfl⟩ := Prod.mk.inj (Option.some.inj same)
    -- The two halves of a pair are two escapes.
    have pair := isContent_of_readHex4 read (isContent_of_readLowSurrogate readLow later)
    rwa [← List.append_assoc, ← List.take_add] at pair
  · split at h
    · cases h
    · obtain ⟨-, rfl⟩ := Prod.mk.inj (Option.some.inj h)
      exact isContent_of_readHex4 read later

theorem isContent_of_readEscape (h : readEscape escaped = some (c, taken)) (later : IsContent body) :
    IsContent ('\\' :: (escaped.take taken ++ body)) := by
  unfold readEscape at h
  split at h
  case h_9 digits =>
    obtain ⟨⟨d, n⟩, read, same⟩ := Option.map_eq_some_iff.mp h
    cases same
    exact isContent_of_readUnicodeEscape read later
  case h_10 => cases h
  all_goals
    cases h
    exact .mark (by decide) later

theorem isContent_of_readString (h : readString text = some (content, rest)) :
    ∃ body, text = body ++ '"' :: rest ∧ IsContent body := by
  induction text using readString.induct generalizing content with
  | case1 => rw [readString] at h; cases h
  | case2 more =>
    rw [readString] at h
    cases h
    exact ⟨[], rfl, .nil⟩
  | case3 escaped noEscape => rw [readString, noEscape] at h; cases h
  | case4 escaped c taken read ih =>
    rw [readString, read] at h
    obtain ⟨⟨inner, tail⟩, later, same⟩ := Option.map_eq_some_iff.mp h
    cases same
    obtain ⟨body, split, content⟩ := ih later
    refine ⟨'\\' :: (escaped.take taken ++ body), ?_, isContent_of_readEscape read content⟩
    rw [List.cons_append, List.append_assoc, ← split, List.take_append_drop]
  | case5 c more noQuote noBackslash control =>
    rw [readString, if_pos control] at h
    · cases h
    · exact noQuote
    · exact noBackslash
  | case6 c more noQuote noBackslash control ih =>
    rw [readString, if_neg control] at h
    · obtain ⟨⟨inner, tail⟩, later, same⟩ := Option.map_eq_some_iff.mp h
      cases same
      obtain ⟨body, split, content⟩ := ih later
      refine ⟨c :: body, ?_, .char (Nat.le_of_not_lt control) noQuote noBackslash content⟩
      rw [split, List.cons_append]
    · exact noQuote
    · exact noBackslash

/-! ### Numbers -/

/-- Digits at the start of a text, unless there is none. -/
theorem isDigits_of_spanDigits (some : ¬(spanDigits text).1.isEmpty = true) :
    text = (spanDigits text).1 ++ (spanDigits text).2 ∧ IsDigits (spanDigits text).1 := by
  refine ⟨List.takeWhile_append_dropWhile.symm, ?_, fun _ member => List.mem_takeWhile_imp member⟩
  exact mt List.isEmpty_iff.mpr some

theorem readWhole_takes : Takes IsWhole readWhole := by
  intro text rest whole h
  unfold readWhole at h
  split at h
  · split at h
    · cases h
      exact ⟨['0'], rfl, .zero⟩
    · split at h
      · cases h
      · cases h
        exact ⟨['0'], rfl, .zero⟩
  · -- A first digit that is zero is read above.
    next noZero =>
    simp only at h
    split at h
    · cases h
    · next some =>
      cases h
      obtain ⟨split, digits⟩ := isDigits_of_spanDigits some
      refine ⟨_, split, .digits digits ?_⟩
      intro zero
      obtain ⟨more, first⟩ := List.head?_eq_some_iff.mp zero
      rw [first] at split
      exact noZero _ split

theorem readFraction_takes : Takes IsFraction readFraction := by
  intro text rest fraction h
  unfold readFraction at h
  split at h
  · simp only at h
    split at h
    · cases h
    · next some =>
      cases h
      obtain ⟨split, digits⟩ := isDigits_of_spanDigits some
      refine ⟨_, ?_, .digits digits⟩
      rw [List.cons_append, ← split]
  · cases h
    exact ⟨[], rfl, .none⟩

theorem readExponent_takes : Takes IsExponent readExponent := by
  intro text rest exponent h
  unfold readExponent at h
  split at h
  · next c more =>
    split at h
    · next mark =>
      -- Behind the mark there may be a sign, and then the digits come.
      split at h
      next negative unsigned parts =>
      have signed : ∃ sign ∈ [[], ['+'], ['-']], more = sign ++ unsigned := by
        split at parts
        · cases parts
          exact ⟨['-'], by decide, rfl⟩
        · cases parts
          exact ⟨['+'], by decide, rfl⟩
        · cases parts
          exact ⟨[], by decide, rfl⟩
      simp only at h
      split at h
      · cases h
      · next some =>
        cases h
        obtain ⟨sign, known, rfl⟩ := signed
        obtain ⟨split, digits⟩ := isDigits_of_spanDigits some
        refine ⟨_, ?_, .digits (List.mem_pair.mpr mark) known digits⟩
        rw [List.cons_append, List.append_assoc, ← split]
    · cases h
      exact ⟨[], rfl, .none⟩
  · cases h
    exact ⟨[], rfl, .none⟩

theorem readNumber_takes : Takes IsNumber readNumber := by
  intro text rest number h
  unfold readNumber at h
  split at h
  next negative unsigned parts =>
  have signed : ∃ sign ∈ [[], ['-']], text = sign ++ unsigned := by
    split at parts
    · cases parts
      exact ⟨['-'], by decide, rfl⟩
    · cases parts
      exact ⟨[], by decide, rfl⟩
  simp only [Option.bind_eq_bind, Option.bind_eq_some_iff] at h
  obtain ⟨_, readWhole, _, readFraction, _, readExponent, _, _, same⟩ := h
  obtain ⟨-, rfl⟩ := Prod.mk.inj (Option.some.inj same)
  obtain ⟨sign, known, rfl⟩ := signed
  obtain ⟨_, rfl, whole⟩ := readWhole_takes readWhole
  obtain ⟨_, behindWhole, fraction⟩ := readFraction_takes readFraction
  obtain ⟨_, behindFraction, exponent⟩ := readExponent_takes readExponent
  refine ⟨_, ?_, .parts known whole fraction exponent⟩
  rw [behindWhole, behindFraction]
  simp only [List.append_assoc]

/-! ### Values -/

theorem readScalar_takes : Takes Phrase.value.Spells readScalar := by
  intro text rest v h
  unfold readScalar at h
  split at h
  · cases h
    exact ⟨_, rfl, .null⟩
  · cases h
    exact ⟨_, rfl, .true⟩
  · cases h
    exact ⟨_, rfl, .false⟩
  · obtain ⟨⟨content, tail⟩, read, same⟩ := Option.map_eq_some_iff.mp h
    cases same
    obtain ⟨body, rfl, content⟩ := isContent_of_readString read
    refine ⟨_, ?_, .string content⟩
    rw [List.cons_append, List.append_assoc, List.singleton_append]
  · obtain ⟨⟨number, tail⟩, read, same⟩ := Option.map_eq_some_iff.mp h
    cases same
    obtain ⟨used, rfl, number⟩ := readNumber_takes read
    exact ⟨used, rfl, .number number⟩

section

variable {readOne : List Char → Option (α × List Char)} {close : Char}

/-- Phrases between commas up to a closing character, which is not a part of them. -/
theorem spells_of_readSeparated (loose : one.isLoose = true)
    (last : ∀ text, one.Spells text → many.Spells text)
    (more : ∀ text rest, one.Spells text → many.Spells rest → many.Spells (text ++ ',' :: rest))
    (takes : Takes one.Spells readOne) {items : List α}
    (h : readSeparated readOne close text = some (items, rest)) :
    ∃ used, text = used ++ close :: rest ∧ many.Spells used := by
  -- The reader skips blanks behind an item; in the grammar they belong to the item.
  induction text using readSeparated.induct readOne close generalizing items with
  | case1 text noItem => rw [readSeparated, noItem] at h; cases h
  | case2 text item tail read nothing => rw [readSeparated, read] at h; simp [nothing] at h
  | case3 text item tail read later found =>
    rw [readSeparated, read] at h
    simp only [found, if_true] at h
    cases h
    obtain ⟨used, rfl, spelled⟩ := takes read
    obtain ⟨blanks, blank, split⟩ := exists_skipBlanks tail
    refine ⟨used ++ blanks, ?_, last _ (spelled.blanks_behind loose blank)⟩
    rw [split, found, List.append_assoc]
  | case4 text item tail read later shorter found other ih =>
    rw [readSeparated, read] at h
    simp only [found, if_neg other, if_true, dif_pos shorter] at h
    obtain ⟨⟨others, tail'⟩, readLater, same⟩ := Option.map_eq_some_iff.mp h
    cases same
    obtain ⟨used, rfl, spelled⟩ := takes read
    obtain ⟨blanks, blank, split⟩ := exists_skipBlanks tail
    obtain ⟨used', rfl, spelled'⟩ := ih readLater
    refine ⟨used ++ blanks ++ ',' :: used', ?_, more _ _ (spelled.blanks_behind loose blank) spelled'⟩
    rw [split, found, List.append_assoc, List.append_assoc, List.cons_append]
  | case5 text item tail read later longer found other =>
    rw [readSeparated, read] at h
    simp [found, other, longer] at h
  | case6 text item tail read c later found other noComma =>
    rw [readSeparated, read] at h
    simp [found, other, noComma] at h

theorem spells_of_readEnclosed (loose : one.isLoose = true) (loose' : many.isLoose = true)
    (last : ∀ text, one.Spells text → many.Spells text)
    (more : ∀ text rest, one.Spells text → many.Spells rest → many.Spells (text ++ ',' :: rest))
    (takes : Takes one.Spells readOne) {items : List α}
    (h : readEnclosed readOne close text = some (items, rest)) :
    ∃ used, text = used ++ close :: rest ∧ (IsBlanks used ∨ many.Spells used) := by
  obtain ⟨blanks, blank, split⟩ := exists_skipBlanks text
  unfold readEnclosed at h
  split at h
  · cases h
  · next c tail found =>
    rw [found] at split
    split at h
    · next closed =>
      cases h
      exact ⟨blanks, closed ▸ split, .inl blank⟩
    · obtain ⟨used, taken, spelled⟩ := spells_of_readSeparated loose last more takes h
      refine ⟨blanks ++ used, ?_, .inr (spelled.blanks_before loose' blank)⟩
      rw [split, taken, List.append_assoc]

theorem readEntry_takes (takes : Takes Phrase.item.Spells readOne) :
    Takes Phrase.entry.Spells (readEntry readOne) := by
  intro text rest entry h
  obtain ⟨blanks, blank, split⟩ := exists_skipBlanks text
  unfold readEntry at h
  split at h
  · next tail found =>
    simp only [Option.bind_eq_bind, Option.bind_eq_some_iff] at h
    obtain ⟨⟨key, after⟩, read, h⟩ := h
    obtain ⟨blanks', blank', split'⟩ := exists_skipBlanks after
    simp only at h
    split at h
    · next value found' =>
      obtain ⟨⟨v, tail'⟩, readValue, same⟩ := Option.bind_eq_some_iff.mp h
      cases same
      obtain ⟨body, rfl, content⟩ := isContent_of_readString read
      obtain ⟨used, rfl, spelled⟩ := takes readValue
      refine ⟨_, ?_, .entry blank content blank' spelled⟩
      rw [split, found, split', found']
      simp only [List.append_assoc, List.cons_append, List.nil_append]
    · cases h
  · cases h

end

/-- What is read as a value is a value of the grammar, behind blanks. -/
theorem readValue_takes (depth : Nat) : Takes Phrase.item.Spells (readValue depth) := by
  -- By induction on the levels that are left: those inside of a bracket are one fewer.
  induction depth using Nat.strongRecOn with
  | ind depth ih =>
    intro text rest v h
    obtain ⟨blanks, blank, split⟩ := exists_skipBlanks text
    have item {used : List Char} (taken : skipBlanks text = used ++ rest)
        (value : Phrase.value.Spells used) : ∃ used, text = used ++ rest ∧ Phrase.item.Spells used := by
      refine ⟨blanks ++ used, ?_, (spells_item value).blanks_before rfl blank⟩
      rw [List.append_assoc, ← taken]
      exact split
    unfold readValue at h
    split at h
    · cases h
    · cases h
    · next depth items found =>
      obtain ⟨⟨values, tail⟩, read, same⟩ := Option.map_eq_some_iff.mp h
      cases same
      obtain ⟨used, rfl, inside⟩ := spells_of_readEnclosed rfl rfl (fun _ => .lastItem)
        (fun _ _ => .moreItems) (ih depth (Nat.lt_succ_self depth)) read
      have list : Phrase.container.Spells ('[' :: (used ++ [']'])) := by
        rcases inside with blank | items
        · exact .emptyList blank
        · exact .list items
      refine item ?_ (.container list)
      rw [found, List.cons_append, List.append_assoc, List.singleton_append]
    · next depth entries found =>
      obtain ⟨⟨values, tail⟩, read, same⟩ := Option.map_eq_some_iff.mp h
      cases same
      obtain ⟨used, rfl, inside⟩ := spells_of_readEnclosed rfl rfl (fun _ => .lastEntry)
        (fun _ _ => .moreEntries) (readEntry_takes (ih depth (Nat.lt_succ_self depth))) read
      have map : Phrase.container.Spells ('\x7b' :: (used ++ ['\x7d'])) := by
        rcases inside with blank | entries
        · exact .emptyMap blank
        · exact .map entries
      refine item ?_ (.container map)
      rw [found, List.cons_append, List.append_assoc, List.singleton_append]
    · obtain ⟨used, taken, value⟩ := readScalar_takes h
      exact item taken value

/-- A text that is read as JSON is an item of the grammar as a whole. -/
theorem spells_of_ofTextWithin? (h : ofTextWithin? depth text = some v) : Phrase.item.Spells text := by
  unfold ofTextWithin? at h
  split at h
  · next value rest read =>
    split at h
    · next nothing =>
      -- Behind the value there is nothing but blanks.
      obtain ⟨used, rfl, spelled⟩ := readValue_takes depth read
      obtain ⟨blanks, blank, split⟩ := exists_skipBlanks rest
      rw [List.isEmpty_iff.mp nothing, List.append_nil] at split
      exact split ▸ spelled.blanks_behind rfl blank
    · cases h
  · cases h

end PromptScript.Value
