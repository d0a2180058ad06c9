import PromptScript.Proofs.Source.Nesting

/-!
Blanks and commas around an expression. No token runs on into them, so that an expression has the same
tokens with blanks behind it as without, and comes to an end in front of a comma.
-/
namespace PromptScript.Source

open Text

variable {text rest front behind blanks : List Char} {c : Char} {token : Option Token} {taken n : Nat}
  {ts : List Token} {e : Expr}

/-! ### Tokens in front of anything -/

/-- A string ends with its quote, and is the same string in front of anything. -/
theorem stringContent_take {quote : Char} {content : List Char}
    (h : stringContent quote text = some (content, taken)) :
    ∃ n, taken = n + 1 ∧ text[n]? = some quote ∧
      ∀ rest, stringContent quote (text.take taken ++ rest) = some (content, taken) := by
  induction text using stringContent.induct quote generalizing content taken with
  | case1 => cases h
  | case2 => cases h
  | case3 d more ih =>
    rw [stringContent] at h
    obtain ⟨⟨inner, _⟩, read, same⟩ := Option.map_eq_some_iff.mp h
    cases same
    obtain ⟨n, rfl, closing, again⟩ := ih read
    refine ⟨n + 2, rfl, closing, fun rest => ?_⟩
    simp only [List.take_succ_cons, List.cons_append] at again ⊢
    simp only [stringContent, again, Option.map_some]
  | case4 more noEnd noEscape =>
    have noBackslash := ne_backslash noEnd noEscape
    rw [stringContent_char noBackslash, if_pos rfl] at h
    cases h
    refine ⟨0, rfl, rfl, fun rest => ?_⟩
    rw [List.take_succ_cons, List.cons_append, stringContent_char noBackslash, if_pos rfl]
  | case5 d more noEnd noEscape other ih =>
    have noBackslash := ne_backslash noEnd noEscape
    rw [stringContent_char noBackslash, if_neg other] at h
    obtain ⟨⟨inner, _⟩, read, same⟩ := Option.map_eq_some_iff.mp h
    cases same
    obtain ⟨n, rfl, closing, again⟩ := ih read
    refine ⟨n + 1, rfl, closing, fun rest => ?_⟩
    rw [List.take_succ_cons, List.cons_append, stringContent_char noBackslash, if_neg other, again]
    rfl

/-- The bracket that is found is found in front of anything. -/
theorem closingBracket_take {depth : Nat} {mode : BracketMode}
    (h : closingBracket depth mode text = some n) (rest : List Char) :
    closingBracket depth mode (text.take (n + 1) ++ rest) = some n := by
  induction text generalizing depth mode n with
  | nil => cases h
  | cons c more ih =>
    have later {depth n : Nat} {mode : BracketMode}
        (h : (closingBracket depth mode more).map (· + 1) = some n) :
        (closingBracket depth mode (more.take n ++ rest)).map (· + 1) = some n := by
      obtain ⟨m, found, rfl⟩ := Option.map_eq_some_iff.mp h
      rw [ih found]
      rfl
    rw [List.take_succ_cons, List.cons_append]
    cases mode with
    | escaped => exact later h
    | quoted => exact later h
    | code =>
      simp only [closingBracket] at h ⊢
      split_ifs at h ⊢
      · exact later h
      · exact later h
      · exact h
      · exact later h
      · exact later h

/-! ### Tokens in front of blanks -/

/-- A text in front of blanks reaches behind each visible character of both. -/
theorem lt_of_visible (blank : ∀ d ∈ blanks, isBlank d = true)
    (found : (front ++ blanks)[n]? = some c) (visible : isBlank c = false) : n < front.length := by
  by_contra outside
  rw [List.getElem?_append_right (Nat.le_of_not_lt outside)] at found
  rw [blank c (List.mem_of_getElem? found)] at visible
  cases visible

/-- A list or a mapping ends with its bracket, and is the same one in front of anything. -/
theorem bracketToken_take {t : Token} (h : bracketToken c text = .ok (t, taken)) :
    (∃ close ∈ [']', '}'], (c :: text)[taken]? = some close) ∧
      ∀ rest, bracketToken c (text.take taken ++ rest) = .ok (t, taken) := by
  unfold bracketToken at h
  split at h
  · cases h
  · next length found =>
    split at h
    · next value read =>
      cases h
      obtain ⟨close, closes, there⟩ := closingBracket_some found
      have inside : taken ≤ text.length :=
        Nat.le_of_lt_succ (List.getElem?_eq_some_iff.mp there).1
      refine ⟨⟨close, closes, there⟩, fun rest => ?_⟩
      have again : matchingBracket (c :: (text.take taken ++ rest)) = some taken :=
        closingBracket_take found rest
      have whole : (c :: (text.take taken ++ rest)).take (taken + 1) = (c :: text).take (taken + 1) := by
        rw [List.take_succ_cons, List.take_succ_cons, List.take_left' (List.length_take_of_le inside)]
      rw [bracketToken, again]
      simp only [whole, read]
    · cases h

theorem bracketToken_of_blanks {t : Token} (blank : ∀ d ∈ blanks, isBlank d = true)
    (h : bracketToken c (front ++ blanks) = .ok (t, taken)) :
    taken ≤ front.length ∧ bracketToken c front = .ok (t, taken) := by
  obtain ⟨⟨close, closes, there⟩, again⟩ := bracketToken_take h
  have visible : isBlank close = false := by
    rw [List.mem_pair] at closes
    rcases closes with rfl | rfl <;> decide
  rw [← List.cons_append] at there
  have inside := lt_of_visible blank there visible
  have le : taken ≤ front.length := Nat.le_of_lt_succ inside
  have whole := again (front.drop taken)
  rw [List.take_append_of_le_length le, List.take_append_drop] at whole
  exact ⟨le, whole⟩

theorem stringContent_of_blanks {quote : Char} {content : List Char} (visible : isBlank quote = false)
    (blank : ∀ d ∈ blanks, isBlank d = true)
    (h : stringContent quote (front ++ blanks) = some (content, taken)) :
    taken ≤ front.length ∧ stringContent quote front = some (content, taken) := by
  obtain ⟨n, rfl, closing, again⟩ := stringContent_take h
  have inside := lt_of_visible blank closing visible
  have whole := again (front.drop (n + 1))
  rw [List.take_append_of_le_length inside, List.take_append_drop] at whole
  exact ⟨inside, whole⟩

/-- What no token runs on into: it starts with none of the characters that go on with one. -/
def Separates (behind : List Char) : Prop :=
  Bars (fun d => isNameChar d || d = '.' || d = '=') behind

theorem Separates.bars {p : Char → Bool} (separates : Separates behind)
    (within : ∀ d, p d = true → isNameChar d = true ∨ d = '.' ∨ d = '=') : Bars p behind := by
  intro d member
  have other := separates d member
  simp only [Bool.or_eq_false_iff, decide_eq_false_iff_not] at other
  refine Bool.eq_false_iff.mpr fun inside => ?_
  rcases within d inside with name | point | equals
  · rw [other.1.1] at name
    cases name
  · exact other.1.2 point
  · exact other.2 equals

theorem Separates.of_blanks (blank : ∀ d ∈ blanks, isBlank d = true) : Separates blanks := by
  intro d member
  have here := blank d (List.mem_of_mem_head? member)
  have other (mark : Char) (visible : isBlank mark = false) : d ≠ mark := by
    rintro rfl
    rw [visible] at here
    cases here
  simp [not_isNameChar_of_isBlank here, other '.' (by decide), other '=' (by decide)]

theorem Separates.comma (rest : List Char) : Separates (',' :: rest) :=
  bars_cons (by rw [isNameChar_of_lt (by decide)]; decide)

theorem scanToken_quote (opens : isQuote c = true) (rest : List Char) :
    scanToken c rest = match stringContent c rest with
      | some (content, taken) => .ok (some (.literal (.str (.ofList content))), taken)
      | none => .error (.invalidExpression .unterminatedString) := by
  rcases isQuote_iff.mp opens with rfl | rfl <;> rfl

theorem scanToken_bracket (opens : c = '[' ∨ c = '{') (rest : List Char) :
    scanToken c rest = (bracketToken c rest).map fun (token, taken) => (some token, taken) := by
  rcases opens with rfl | rfl <;> rfl

/-- A token that is neither a string nor a list nor a mapping shows in the characters that go on with it,
whether it is read in full or not. -/
theorem scanToken_append (separates : Separates behind) (noQuote : isQuote c = false)
    (noBracket : ¬(c = '[' ∨ c = '{')) (front : List Char) :
    scanToken c (front ++ behind) = scanToken c front := by
  have equals : ((front ++ behind).head? = some '=') = (front.head? = some '=') := by
    have any (text : List Char) : (text.head? = some '=') = (text.head?.any (decide <| · = '=')) := by
      cases text.head? <;> simp
    rw [any, any, any_head?_append_of_bars (separates.bars (by simp))]
  have digit := any_head?_append_of_bars
    (separates.bars fun _ digit => .inl (isNameChar_of_isDigit digit)) front
  have digits := takeWhile_append_bars (separates.bars (p := fun d => d.isDigit || d = '.')
    fun d inside => by
      rw [Bool.or_eq_true, decide_eq_true_eq] at inside
      exact inside.imp isNameChar_of_isDigit .inl) front
  have names := takeWhile_append_bars (separates.bars (p := fun d => isNameChar d || d = '.')
    fun d inside => by
      rw [Bool.or_eq_true, decide_eq_true_eq] at inside
      exact inside.imp id .inl) front
  have noQuote' : ¬(c = '"' ∨ c = '\'') := by
    rw [← isQuote_iff, noQuote]
    decide
  simp only [scanToken, equals, digit, digits, names, noQuote', noBracket, if_false]

theorem length_of_scanToken (h : scanToken c rest = .ok (token, taken)) : taken ≤ rest.length := by
  have within (p : Char → Bool) : (rest.takeWhile p).length ≤ rest.length :=
    (List.takeWhile_prefix p).length_le
  by_cases quote : isQuote c = true
  · rw [scanToken_quote quote] at h
    split at h
    · next content n read =>
      cases h
      obtain ⟨n, rfl, closing, _⟩ := stringContent_take read
      exact (List.getElem?_eq_some_iff.mp closing).1
    · cases h
  by_cases bracket : c = '[' ∨ c = '{'
  · rw [scanToken_bracket bracket] at h
    obtain ⟨⟨t, n⟩, read, same⟩ := Computation.except_map_ok_iff.mp h
    cases same
    obtain ⟨⟨close, _, there⟩, _⟩ := bracketToken_take read
    exact Nat.le_of_lt_succ (List.getElem?_eq_some_iff.mp there).1
  have noQuote : ¬(c = '"' ∨ c = '\'') := by rwa [← isQuote_iff]
  simp only [scanToken, noQuote, bracket, if_false] at h
  iterate 4
    split at h
    · cases h
      exact Nat.zero_le _
  split at h
  · split at h
    · cases h
      split
      · next more =>
        obtain ⟨others, rfl⟩ := List.head?_eq_some_iff.mp more
        simp
      · exact Nat.zero_le _
    · cases h
  split at h
  · split at h
    · cases h
      exact within _
    · cases h
  split at h
  · cases h
    exact within _
  · cases h

/-- A token that stands in front of blanks at the end of a text is the same token without them. -/
theorem scanToken_of_blanks (blank : ∀ d ∈ blanks, isBlank d = true)
    (h : scanToken c (front ++ blanks) = .ok (token, taken)) :
    taken ≤ front.length ∧ scanToken c front = .ok (token, taken) := by
  by_cases quote : isQuote c = true
  · rw [scanToken_quote quote] at h ⊢
    split at h
    · next content n read =>
      cases h
      have visible : isBlank c = false := by rcases isQuote_iff.mp quote with rfl | rfl <;> decide
      obtain ⟨le, again⟩ := stringContent_of_blanks visible blank read
      simp only [again]
      exact ⟨le, trivial⟩
    · cases h
  by_cases bracket : c = '[' ∨ c = '{'
  · rw [scanToken_bracket bracket] at h ⊢
    obtain ⟨⟨t, n⟩, read, same⟩ := Computation.except_map_ok_iff.mp h
    cases same
    obtain ⟨le, again⟩ := bracketToken_of_blanks blank read
    rw [again]
    exact ⟨le, rfl⟩
  rw [scanToken_append (.of_blanks blank) (Bool.eq_false_iff.mpr quote) bracket] at h
  exact ⟨length_of_scanToken h, h⟩

/-- A token is the same in front of whatever no token runs on into. -/
theorem scanToken_separated (separates : Separates behind)
    (h : scanToken c rest = .ok (token, taken)) :
    scanToken c (rest ++ behind) = .ok (token, taken) := by
  by_cases quote : isQuote c = true
  · rw [scanToken_quote quote] at h ⊢
    split at h
    · next content n read =>
      cases h
      obtain ⟨m, rfl, closing, again⟩ := stringContent_take read
      have inside := (List.getElem?_eq_some_iff.mp closing).1
      have whole := again (rest.drop (m + 1) ++ behind)
      rw [← List.append_assoc, List.take_append_drop] at whole
      rw [whole]
    · cases h
  by_cases bracket : c = '[' ∨ c = '{'
  · rw [scanToken_bracket bracket] at h ⊢
    obtain ⟨⟨t, n⟩, read, same⟩ := Computation.except_map_ok_iff.mp h
    cases same
    have whole := (bracketToken_take read).2 (rest.drop taken ++ behind)
    rw [← List.append_assoc, List.take_append_drop] at whole
    rw [whole]
    rfl
  rw [scanToken_append separates (Bool.eq_false_iff.mpr quote) bracket, h]

/-! ### Tokens of longer texts -/

theorem Tokens.cons_iff (scanned : scanToken c rest = .ok (token, taken)) :
    Tokens (c :: rest) ts ↔ ∃ more, Tokens (rest.drop taken) more ∧ ts = token.toList ++ more := by
  constructor
  · intro tokens
    cases tokens with
    | cons scanned' behind =>
      rw [scanned] at scanned'
      cases scanned'
      exact ⟨_, behind, rfl⟩
  · rintro ⟨more, behind, rfl⟩
    exact .cons scanned behind

/-- The tokens of a text come first in front of whatever no token runs on into. -/
theorem Tokens.append_iff {us : List Token} (tokens : Tokens front ts) (separates : Separates behind) :
    Tokens (front ++ behind) us ↔ ∃ more, Tokens behind more ∧ us = ts ++ more := by
  induction tokens generalizing us with
  | nil => simp
  | @cons c rest token taken ts scanned _ ih =>
    have within : (rest ++ behind).drop taken = rest.drop taken ++ behind :=
      List.drop_append_of_le_length (length_of_scanToken scanned)
    rw [List.cons_append, Tokens.cons_iff (scanToken_separated separates scanned), within]
    simp only [ih]
    constructor
    · rintro ⟨_, ⟨more, later, rfl⟩, rfl⟩
      exact ⟨more, later, (List.append_assoc _ _ _).symm⟩
    · rintro ⟨more, later, rfl⟩
      exact ⟨_, ⟨more, later, rfl⟩, List.append_assoc _ _ _⟩

theorem tokens_blanks (blank : ∀ d ∈ blanks, isBlank d = true) : Tokens blanks [] := by
  induction blanks with
  | nil => exact .nil
  | cons d more ih =>
    obtain ⟨here, others⟩ := List.forall_mem_cons.mp blank
    have scanned : scanToken d more = .ok (none, 0) := by rw [scanToken, if_pos here]
    exact .cons scanned (ih others)

/-! ### Whole expressions -/

theorem Tokens.trimStart (tokens : Tokens text ts) : Tokens (Text.trimStart text) ts := by
  induction tokens with
  | nil => exact .nil
  | @cons c rest token taken ts scanned tokens ih =>
    by_cases blank : isBlank c = true
    · rw [scanToken, if_pos blank] at scanned
      cases scanned
      rwa [Text.trimStart, List.dropWhile_cons_of_pos blank]
    · rw [Text.trimStart, List.dropWhile_cons_of_neg blank]
      exact .cons scanned tokens

theorem Tokens.of_blanks (tokens : Tokens (front ++ blanks) ts) (blank : ∀ d ∈ blanks, isBlank d = true) :
    Tokens front ts := by
  generalize same : front ++ blanks = text at tokens
  induction tokens generalizing front blanks with
  | nil =>
    rw [(List.append_eq_nil_iff.mp same).1]
    exact .nil
  | @cons c rest token taken ts scanned tokens ih =>
    cases front with
    | nil =>
      -- What is left are blanks, and none of them is a token.
      obtain rfl : blanks = c :: rest := same
      obtain ⟨first, others⟩ := List.forall_mem_cons.mp blank
      rw [scanToken, if_pos first] at scanned
      cases scanned
      exact ih others rfl
    | cons d more =>
      obtain ⟨rfl, rfl⟩ := List.cons.inj same
      obtain ⟨le, again⟩ := scanToken_of_blanks blank scanned
      exact .cons again (ih blank (List.drop_append_of_le_length le).symm)

/-- Blanks around an expression change nothing, and neither does its place. -/
theorem readExpr_trimmed (h : readExpr ⟨0, text⟩ = .ok e) (start : Nat) :
    readExpr ⟨start, trimStart (trimEnd text)⟩ = .ok e := by
  obtain ⟨ts, tokens, derived⟩ := readExpr_ok_iff.mp h
  obtain ⟨blanks, same, blank⟩ := exists_blanks text
  have front : Tokens (trimEnd text ++ blanks) ts := same ▸ tokens
  exact readExpr_ok_iff.mpr ⟨ts, (front.of_blanks blank).trimStart, derived⟩

theorem readExpr_append_blanks (h : readExpr ⟨0, text⟩ = .ok e)
    (blank : ∀ d ∈ blanks, isBlank d = true) : readExpr ⟨0, text ++ blanks⟩ = .ok e := by
  obtain ⟨ts, tokens, derived⟩ := readExpr_ok_iff.mp h
  have whole := (tokens.append_iff (.of_blanks blank)).mpr ⟨[], tokens_blanks blank, rfl⟩
  rw [List.append_nil] at whole
  exact readExpr_ok_iff.mpr ⟨ts, whole, derived⟩

/-- An expression does not go on behind a comma that stands behind an expression: the comma would be
outside of all parentheses. -/
theorem not_readExpr_comma {e' : Expr} (h : readExpr ⟨0, text⟩ = .ok e) (rest : List Char) :
    readExpr ⟨0, text ++ ',' :: rest⟩ ≠ .ok e' := by
  intro h'
  obtain ⟨ts, tokens, derived⟩ := readExpr_ok_iff.mp h
  obtain ⟨us, tokens', derived'⟩ := readExpr_ok_iff.mp h'
  obtain ⟨more, behind, rfl⟩ := (tokens.append_iff (.comma rest)).mp tokens'
  obtain ⟨others, _, rfl⟩ := (Tokens.cons_iff rfl).mp behind
  have level := derived'.whole.depth 0 le_rfl
  rw [parenDepth_append, derived.whole.depth 0 le_rfl] at level
  cases level

theorem readExpr_nil {start : Nat} : readExpr ⟨start, []⟩ ≠ .ok e := by
  intro h
  obtain ⟨ts, tokens, derived⟩ := readExpr_ok_iff.mp h
  cases tokens
  obtain ⟨_, _, same, _⟩ := derived.head
  cases same

end PromptScript.Source
