import PromptScript.Proofs.Source.Alike.Basic
import PromptScript.Proofs.Source.Colon
import PromptScript.Proofs.Value.Break

/-!
The tokens of a text whose line breaks are written another way. They are the same ones, but for strings
that go on over a line break, which hold it as it is written.
-/
namespace PromptScript.Source

open Text

variable {R : Nat → Nat → Prop} {b : Break} {text front rest : List Char} {c : Char} {n m : Nat}

/-- The same token, or two literals. -/
inductive Token.Alike : Token → Token → Prop
  | same (token : Token) : Alike token token
  | literal (value value' : Value) : Alike (.literal value) (.literal value')

/-- Tokens at places that belong together. -/
structure TokenAlike (R : Nat → Nat → Prop) (t t' : LocatedToken) : Prop where
  token : t.token.Alike t'.token
  place : R t.offset t'.offset

/-! ### Strings and brackets -/

theorem option_rel_map {α β γ δ : Type} {V : α → β → Prop} {W : γ → δ → Prop} {f : α → γ} {f' : β → δ}
    {found : Option α} {found' : Option β} (h : Option.Rel V found found')
    (next : ∀ a a', V a a' → W (f a) (f' a')) : Option.Rel W (found.map f) (found'.map f') := by
  cases h with
  | none => exact .none
  | some related => exact .some (next _ _ related)

theorem stringContent_front {quote : Char} (other : ∀ d ∈ front, d ≠ '\\' ∧ d ≠ quote)
    (rest : List Char) : stringContent quote (front ++ rest) =
      (stringContent quote rest).map fun (content, taken) =>
        (front ++ content, front.length + taken) := by
  induction front with
  | nil => simp
  | cons d more ih =>
    obtain ⟨⟨noBackslash, noQuote⟩, others⟩ := List.forall_mem_cons.mp other
    rw [List.cons_append, stringContent_char noBackslash, if_neg noQuote, ih others, Option.map_map]
    congr 1
    funext ⟨content, taken⟩
    simp only [Function.comp_apply, List.cons_append, List.length_cons, Nat.add_right_comm]

/-- A string is closed by the same quote. -/
theorem stringContent_measures {quote : Char} (opens : isQuote quote = true) (untaken : b.Untaken text) :
    Option.Rel (fun found found' => b.Measures text found.2 found'.2) (stringContent quote text)
      (stringContent quote (b.write text)) := by
  induction text using stringContent.induct quote with
  | case1 => exact .none
  | case2 => exact .none
  | case3 c rest ih =>
    rw [Break.write_taken untaken, stringContent, stringContent]
    exact option_rel_map (ih untaken.tail.tail) fun _ _ related => related.taken untaken
  | case4 rest noEnd noEscape =>
    have newline := (ne_of_isQuote opens).1
    have noBackslash := ne_backslash noEnd noEscape
    rw [Break.write_cons_of_ne newline, stringContent_char noBackslash, if_pos rfl,
      stringContent_char noBackslash, if_pos rfl]
    exact .some ((Break.Measures.zero b rest).cons newline)
  | case5 c rest noEnd noEscape other ih =>
    have noBackslash := ne_backslash noEnd noEscape
    rw [stringContent_char noBackslash, if_neg other]
    by_cases newline : c = '\n'
    · subst newline
      have inside : ∀ d ∈ b.text, d ≠ '\\' ∧ d ≠ quote := by
        intro d member
        have blank := Break.isBlank_of_mem_text member
        constructor
        · rintro rfl
          exact absurd blank (by decide)
        · rintro rfl
          rcases isQuote_iff.mp opens with rfl | rfl <;> exact absurd blank (by decide)
      rw [Break.write_newline, stringContent_front inside]
      exact option_rel_map (ih untaken.tail) fun _ _ related => related.newline
    · rw [Break.write_cons_of_ne newline, stringContent_char noBackslash, if_neg other]
      exact option_rel_map (ih untaken.tail) fun _ _ related => related.cons newline

/-- What follows a character inside brackets that is no mark. -/
def BracketMode.next : BracketMode → BracketMode
  | .escaped => .quoted
  | mode => mode

theorem closingBracket_blank {d : Char} (blank : isBlank d = true) (depth : Nat) (mode : BracketMode)
    (rest : List Char) :
    closingBracket depth mode (d :: rest) = (closingBracket depth mode.next rest).map (· + 1) := by
  have other (mark : Char) (visible : isBlank mark = false) : d ≠ mark := by
    rintro rfl
    rw [blank] at visible
    cases visible
  cases mode with
  | escaped => rfl
  | quoted =>
    simp [closingBracket, BracketMode.next, other '\\' (by decide), other '"' (by decide)]
  | code =>
    simp [closingBracket, BracketMode.next, other '"' (by decide), other '[' (by decide),
      other ']' (by decide), other '\x7b' (by decide), other '\x7d' (by decide)]

theorem closingBracket_blanks (blank : ∀ d ∈ front, isBlank d = true) (nonempty : front ≠ [])
    (depth : Nat) (mode : BracketMode) (rest : List Char) :
    closingBracket depth mode (front ++ rest) =
      (closingBracket depth mode.next rest).map (front.length + ·) := by
  induction front generalizing mode with
  | nil => exact absurd rfl nonempty
  | cons d more ih =>
    obtain ⟨here, others⟩ := List.forall_mem_cons.mp blank
    rw [List.cons_append, closingBracket_blank here]
    cases more with
    | nil => simp [Nat.add_comm]
    | cons e behind =>
      have once : mode.next.next = mode.next := by cases mode <;> rfl
      rw [ih others (List.cons_ne_nil e behind), once, Option.map_map]
      congr 1
      funext taken
      simp only [Function.comp_apply, List.length_cons]
      omega

/-- A bracket is closed by the same bracket, which is one character in both texts. -/
theorem closingBracket_measures (depth : Nat) (mode : BracketMode) (text : List Char) :
    Option.Rel (fun n m => b.Measures text (n + 1) (m + 1)) (closingBracket depth mode text)
      (closingBracket depth mode (b.write text)) := by
  induction text generalizing depth mode with
  | nil => exact .none
  | cons c rest ih =>
    by_cases newline : c = '\n'
    · subst newline
      obtain ⟨first, more, head, -⟩ := b.exists_head
      rw [Break.write_newline, closingBracket_blank (by decide), closingBracket_blanks
        (fun _ => Break.isBlank_of_mem_text) (head ▸ List.cons_ne_nil first more)]
      exact option_rel_map (ih depth mode.next) fun _ _ related => related.newline
    · have later (depth : Nat) (mode : BracketMode) : Option.Rel
          (fun n m => b.Measures (c :: rest) (n + 1) (m + 1)) ((closingBracket depth mode rest).map (· + 1))
          ((closingBracket depth mode (b.write rest)).map (· + 1)) :=
        option_rel_map (ih depth mode) fun _ _ related => related.cons newline
      rw [Break.write_cons_of_ne newline]
      cases mode with
      | escaped => exact later _ _
      | quoted => exact later _ _
      | code =>
        simp only [closingBracket]
        split_ifs
        · exact later _ _
        · exact later _ _
        · exact .some ((Break.Measures.zero b rest).cons newline)
        · exact later _ _
        · exact later _ _

/-! ### One token -/

theorem option_rel_refl (token : Option Token) : Option.Rel Token.Alike token token := by
  cases token with
  | none => exact .none
  | some token => exact .some (.same token)

/-- Scanning a token ends in the same way. -/
inductive ScanAlike (b : Break) (rest : List Char) :
    Except ParseCause (Option Token × Nat) → Except ParseCause (Option Token × Nat) → Prop
  | ok {token token' : Option Token} {taken taken' : Nat} : Option.Rel Token.Alike token token' →
    b.Measures rest taken taken' → ScanAlike b rest (.ok (token, taken)) (.ok (token', taken'))
  | error (cause : ParseCause) : ScanAlike b rest (.error cause) (.error cause)

theorem ScanAlike.same (token : Option Token) (measures : b.Measures rest n m) :
    ScanAlike b rest (.ok (token, n)) (.ok (token, m)) :=
  .ok (option_rel_refl token) measures

/-- A bracket is scanned as the same value, as breaks between the parts of a value say nothing. -/
theorem bracketToken_alike (opens : c = '[' ∨ c = '\x7b') : ScanAlike b rest
    ((bracketToken c rest).map fun (token, taken) => (some token, taken))
    ((bracketToken c (b.write rest)).map fun (token, taken) => (some token, taken)) := by
  have newline : c ≠ '\n' := by rcases opens with rfl | rfl <;> decide
  have start (rest : List Char) :
      matchingBracket (c :: rest) = (closingBracket 1 .code rest).map (· + 1) := by
    rcases opens with rfl | rfl <;> rfl
  have found := closingBracket_measures (b := b) 1 .code rest
  unfold bracketToken
  rw [start, start]
  generalize closingBracket 1 .code rest = length, closingBracket 1 .code (b.write rest) = length'
    at found
  cases found with
  | none => exact .error _
  | @some n m related =>
    have value : Value.ofText? ((c :: b.write rest).take (m + 1 + 1)) =
        Value.ofText? ((c :: rest).take (n + 1 + 1)) := by
      rw [← Break.write_cons_of_ne newline, (related.cons newline).take_write, Value.ofText?_write]
    simp only [Option.map_some, value]
    split
    · exact .same _ related
    · exact .error _

theorem scanToken_alike (c : Char) (untaken : b.Untaken rest) :
    ScanAlike b rest (scanToken c rest) (scanToken c (b.write rest)) := by
  have none := Break.Measures.zero b rest
  unfold scanToken
  split
  · exact .same _ none
  split
  · exact .same _ none
  split
  · exact .same _ none
  split
  · exact .same _ none
  split
  · simp only [Break.head?_write_iff (b := b) (c := '=') (by decide)]
    split
    · refine .same _ ?_
      split
      · next equals =>
        obtain ⟨more, same⟩ := List.head?_eq_some_iff.mp equals
        rw [same]
        exact (Break.Measures.zero b more).cons (by decide)
      · exact none
    · exact .error _
  split
  · next opens =>
    have found := stringContent_measures (isQuote_iff.mpr opens) untaken
    generalize stringContent c rest = content, stringContent c (b.write rest) = content' at found
    cases found with
    | none => exact .error _
    | some related => exact .ok (.some (.literal _ _)) related
  split
  · next opens => exact bracketToken_alike opens
  have number : (b.write rest).head?.any Char.isDigit = rest.head?.any Char.isDigit :=
    Break.any_head?_write (by decide) rest
  rw [number]
  split
  · simp only [Break.takeWhile_write (b := b) (p := fun d => d.isDigit || d = '.') (by decide) (by decide)]
    split
    · exact .same _ (.of_takeWhile (by decide) rest)
    · exact .error _
  split
  · have word (d : Char) (small : d.toNat < 128) := isNameChar_of_lt small
    simp only [Break.takeWhile_write (b := b) (p := fun w => isNameChar w || w = '.')
      (by simp [word '\n' (by decide)]) (by simp [word '\r' (by decide)])]
    exact .same _ (.of_takeWhile (by simp [word '\n' (by decide)]) rest)
  · exact .error _

/-! ### All tokens -/

theorem tokenize_blanks (blank : ∀ d ∈ front, isBlank d = true) (offset : Nat) (rest : List Char) :
    tokenize offset (front ++ rest) = tokenize (offset + front.length) rest := by
  induction front generalizing offset with
  | nil => rfl
  | cons d more ih =>
    obtain ⟨here, others⟩ := List.forall_mem_cons.mp blank
    have scanned : scanToken d (more ++ rest) = .ok (none, 0) := by rw [scanToken, if_pos here]
    rw [List.cons_append, tokenize, scanned, List.length_cons]
    simp only [Except.mapError, bind, Except.bind, List.drop_zero, Nat.add_zero]
    rw [ih others, Nat.add_assoc, Nat.add_comm 1]
    generalize tokenize _ _ = found
    cases found <;> rfl

theorem tokenize_alike {s s' : Span} (h : Moved R b s s') :
    Alike R (List.Forall₂ (TokenAlike R)) (tokenize s.start s.text) (tokenize s'.start s'.text) := by
  -- By induction on the text: behind a token, there is less of it.
  induction length : s.text.length using Nat.strongRecOn generalizing s s' with
  | ind size ih =>
    subst length
    cases found : s.text with
    | nil =>
      rw [h.text, found, Break.write_nil, tokenize, tokenize]
      exact .ok .nil
    | cons c rest =>
      have behind (n : Nat) : (s.drop (n + 1)).text = rest.drop n := by rw [Span.text_drop, found]; rfl
      have shorter (n : Nat) : (s.drop (n + 1)).text.length < s.text.length := by
        rw [behind, List.length_drop, found, List.length_cons]
        omega
      by_cases newline : c = '\n'
      · subst newline
        have blank : ∀ d ∈ ['\n'], isBlank d = true := by simp; decide
        have measures : b.Measures s.text 1 b.text.length :=
          found ▸ (Break.Measures.zero b rest).newline
        have later := ih _ (shorter 0) (h.drop measures) rfl
        rw [behind, Span.text_drop, h.text, measures.drop_write, found] at later
        have first := tokenize_blanks blank s.start rest
        have first' := tokenize_blanks (fun _ => Break.isBlank_of_mem_text (b := b)) s'.start
          (b.write rest)
        rw [h.text, found, Break.write_newline, first']
        exact first ▸ later
      · have untaken : b.Untaken rest := (found ▸ h.untaken).tail
        rw [h.text, found, Break.write_cons_of_ne newline, tokenize, tokenize]
        have scanned := scanToken_alike c untaken
        generalize scanToken c rest = result, scanToken c (b.write rest) = result' at scanned
        cases scanned with
        | error cause => exact .error ⟨rfl, h.start⟩
        | @ok token token' taken taken' related measures =>
          have total : b.Measures s.text (taken + 1) (taken' + 1) := found ▸ measures.cons newline
          have later := ih _ (shorter taken) (h.drop total) rfl
          rw [behind, Span.text_drop, h.text, total.drop_write, ← Span.text_drop, behind,
            ← measures.drop_write] at later
          refine Related.bind (V := fun p p' => p = (token, taken) ∧ p' = (token', taken'))
            (.ok ⟨rfl, rfl⟩) ?_
          rintro _ _ ⟨rfl, rfl⟩
          refine later.bind fun more more' tokens => .ok ?_
          cases related with
          | none => exact tokens
          | some same => exact .cons ⟨same, h.start⟩ tokens

end PromptScript.Source
