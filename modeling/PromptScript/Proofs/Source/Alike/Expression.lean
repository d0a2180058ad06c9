import PromptScript.Proofs.Source.Alike.Token
import PromptScript.Proofs.Source.Line

/-!
Expressions of a text whose line breaks are written another way. What the reader does next depends on the
tokens in front of it, but not on the value of a literal.
-/
namespace PromptScript.Source

open Text

variable {R : Nat → Nat → Prop} {b : Break} {t t' : LocatedToken} {tokens tokens' : List LocatedToken}
  {token : Token} {finish finish' : Nat}

/-! ### The next token -/

def Token.isLiteral : Token → Bool
  | .literal _ => true
  | _ => false

/-- A token that is no literal is the same in both texts. -/
theorem TokenAlike.eq_iff (h : TokenAlike R t t') (mark : token.isLiteral = false) :
    t.token = token ↔ t'.token = token := by
  obtain ⟨token, offset⟩ := t
  obtain ⟨token', offset'⟩ := t'
  cases h.token with
  | same => exact Iff.rfl
  | literal value value' => constructor <;> rintro rfl <;> cases mark

/-- Tokens that are related are alike, and so are the faults of readers that stop in front of them. -/
structure TokenFaults (R : Nat → Nat → Prop) (T : LocatedToken → LocatedToken → Prop)
    (F : Fault → Fault → Prop) : Prop where
  alike : ∀ {t t'}, T t t' → TokenAlike R t t'
  fault : ∀ {offset offset'} cause, R offset offset' → F ⟨cause, offset⟩ ⟨cause, offset'⟩
  unexpected : ∀ {t t'}, T t t' →
    F ⟨.unexpectedToken t.token.text, t.offset⟩ ⟨.unexpectedToken t'.token.text, t'.offset⟩

section

variable {T : LocatedToken → LocatedToken → Prop} {F : Fault → Fault → Prop}

theorem startsWithToken_alike (reads : TokenFaults R T F) (token : Token)
    (mark : token.isLiteral = false) (h : List.Forall₂ T tokens tokens') :
    startsWithToken token tokens = startsWithToken token tokens' := by
  cases h with
  | nil => rfl
  | cons here _ => exact decide_eq_decide.mpr ((reads.alike here).eq_iff mark)

theorem nextOffset_alike (reads : TokenFaults R T F) (ends : R finish finish')
    (h : List.Forall₂ T tokens tokens') :
    R (nextOffset finish tokens) (nextOffset finish' tokens') := by
  cases h with
  | nil => exact ends
  | cons here _ => exact (reads.alike here).place

theorem flawAt_alike {α β : Type} {V : α → β → Prop} (reads : TokenFaults R T F)
    (ends : R finish finish') (h : List.Forall₂ T tokens tokens') (flaw : ExprFlaw) :
    Related F V (flawAt finish tokens flaw) (flawAt finish' tokens' flaw) :=
  .error (reads.fault _ (nextOffset_alike reads ends h))

theorem relationOf?_alike (reads : TokenFaults R T F) (h : List.Forall₂ T tokens tokens') :
    relationOf? tokens = relationOf? tokens' := by
  cases h with
  | nil => rfl
  | @cons t t' rest rest' here others =>
    obtain ⟨token, offset⟩ := t
    obtain ⟨token', offset'⟩ := t'
    cases (reads.alike here).token with
    | literal => rfl
    | same =>
      simp only [relationOf?, startsWithToken_alike reads (.word inWord) rfl others]

theorem rangeOf_alike (reads : TokenFaults R T F) {offset offset' : Nat} {args args' : List Expr}
    (place : R offset offset') (length : args.length = args'.length) :
    Related F (fun _ _ => True) (rangeOf offset args) (rangeOf offset' args') := by
  match args, args', length with
  | [], [], _ => exact .error (reads.fault _ place)
  | [_], [_], _ | [_, _], [_, _], _ | [_, _, _], [_, _, _], _ => exact .ok trivial
  | _ :: _ :: _ :: _ :: _, _ :: _ :: _ :: _ :: _, _ => exact .error (reads.fault _ place)

theorem pathOf_alike (reads : TokenFaults R T F) {offset offset' : Nat} (place : R offset offset')
    (word : List Char) :
    Related F (fun _ _ => True) (pathOf offset word) (pathOf offset' word) := by
  unfold pathOf
  split
  · exact .error (reads.fault _ place)
  · split
    · exact .ok trivial
    · exact .error (reads.fault _ place)

/-! ### The parts of the reader -/

/-- Both results leave tokens that are alike. -/
def LeftAlike {α β : Type} {length length' : Nat} (T : LocatedToken → LocatedToken → Prop)
    (p : Parsed α length) (p' : Parsed β length') : Prop :=
  List.Forall₂ T p.rest p'.rest

mutual

theorem parseOr_alike (reads : TokenFaults R T F) (ends : R finish finish')
    (tokens tokens' : List LocatedToken) (h : List.Forall₂ T tokens tokens') :
    Related F (LeftAlike T) (parseOr finish tokens) (parseOr finish' tokens') := by
  rw [parseOr, parseOr]
  refine (parseAnd_alike reads ends tokens tokens' h).bind fun p p' left => ?_
  have := p.shorter
  exact (parseOrRest_alike reads ends p.value p'.value p.rest p'.rest left).bind fun _ _ later => .ok later
termination_by 8 * tokens.length + 6

theorem parseOrRest_alike (reads : TokenFaults R T F) (ends : R finish finish') (lhs lhs' : Expr)
    (tokens tokens' : List LocatedToken) (h : List.Forall₂ T tokens tokens') :
    Related F (LeftAlike T) (parseOrRest finish lhs tokens) (parseOrRest finish' lhs' tokens') := by
  cases h with
  | nil =>
    rw [parseOrRest, parseOrRest]
    exact .ok .nil
  | @cons t t' rest rest' here others =>
    rw [parseOrRest, parseOrRest]
    by_cases word : t.token = .word orWord
    · rw [if_pos word, if_pos (((reads.alike here).eq_iff rfl).mp word)]
      refine (parseAnd_alike reads ends rest rest' others).bind fun p p' left => ?_
      have := p.shorter
      exact (parseOrRest_alike reads ends (.or lhs p.value) (.or lhs' p'.value) p.rest p'.rest left).bind
        fun _ _ later => .ok later
    · rw [if_neg word, if_neg (mt ((reads.alike here).eq_iff rfl).mpr word)]
      exact .ok (.cons here others)
termination_by 8 * tokens.length + 6

theorem parseAnd_alike (reads : TokenFaults R T F) (ends : R finish finish')
    (tokens tokens' : List LocatedToken) (h : List.Forall₂ T tokens tokens') :
    Related F (LeftAlike T) (parseAnd finish tokens) (parseAnd finish' tokens') := by
  rw [parseAnd, parseAnd]
  refine (parseNot_alike reads ends tokens tokens' h).bind fun p p' left => ?_
  have := p.shorter
  exact (parseAndRest_alike reads ends p.value p'.value p.rest p'.rest left).bind fun _ _ later => .ok later
termination_by 8 * tokens.length + 4

theorem parseAndRest_alike (reads : TokenFaults R T F) (ends : R finish finish') (lhs lhs' : Expr)
    (tokens tokens' : List LocatedToken) (h : List.Forall₂ T tokens tokens') :
    Related F (LeftAlike T) (parseAndRest finish lhs tokens) (parseAndRest finish' lhs' tokens') := by
  cases h with
  | nil =>
    rw [parseAndRest, parseAndRest]
    exact .ok .nil
  | @cons t t' rest rest' here others =>
    rw [parseAndRest, parseAndRest]
    by_cases word : t.token = .word andWord
    · rw [if_pos word, if_pos (((reads.alike here).eq_iff rfl).mp word)]
      refine (parseNot_alike reads ends rest rest' others).bind fun p p' left => ?_
      have := p.shorter
      exact (parseAndRest_alike reads ends (.and lhs p.value) (.and lhs' p'.value) p.rest p'.rest left).bind
        fun _ _ later => .ok later
    · rw [if_neg word, if_neg (mt ((reads.alike here).eq_iff rfl).mpr word)]
      exact .ok (.cons here others)
termination_by 8 * tokens.length + 4

theorem parseNot_alike (reads : TokenFaults R T F) (ends : R finish finish')
    (tokens tokens' : List LocatedToken) (h : List.Forall₂ T tokens tokens') :
    Related F (LeftAlike T) (parseNot finish tokens) (parseNot finish' tokens') := by
  cases h with
  | nil =>
    rw [parseNot, parseNot]
    exact parseComparison_alike reads ends [] [] .nil
  | @cons t t' rest rest' here others =>
    rw [parseNot, parseNot]
    by_cases word : t.token = .word notWord
    · rw [if_pos word, if_pos (((reads.alike here).eq_iff rfl).mp word)]
      exact (parseNot_alike reads ends rest rest' others).bind fun _ _ later => .ok later
    · rw [if_neg word, if_neg (mt ((reads.alike here).eq_iff rfl).mpr word)]
      exact parseComparison_alike reads ends (t :: rest) (t' :: rest') (.cons here others)
termination_by 8 * tokens.length + 2

theorem parseComparison_alike (reads : TokenFaults R T F) (ends : R finish finish')
    (tokens tokens' : List LocatedToken) (h : List.Forall₂ T tokens tokens') :
    Related F (LeftAlike T) (parseComparison finish tokens) (parseComparison finish' tokens') := by
  rw [parseComparison, parseComparison]
  refine (parsePrimary_alike reads ends tokens tokens' h).bind fun p p' left => ?_
  have := p.shorter
  obtain ⟨lhs, rest, shorter⟩ := p
  obtain ⟨lhs', rest', shorter'⟩ := p'
  have same : relationOf? rest = relationOf? rest' := relationOf?_alike reads left
  simp only [← same]
  split
  · exact .ok left
  · next relation taken _ =>
    have within : (rest.drop taken).length < tokens.length := by
      rw [List.length_drop]
      omega
    exact (parsePrimary_alike reads ends (rest.drop taken) (rest'.drop taken)
      (List.forall₂_drop taken left)).bind
      fun _ _ later => .ok later
termination_by 8 * tokens.length + 1

theorem parsePrimary_alike (reads : TokenFaults R T F) (ends : R finish finish')
    (tokens tokens' : List LocatedToken) (h : List.Forall₂ T tokens tokens') :
    Related F (LeftAlike T) (parsePrimary finish tokens) (parsePrimary finish' tokens') := by
  cases h with
  | nil =>
    rw [parsePrimary, parsePrimary]
    exact .error (reads.fault _ ends)
  | @cons t t' rest rest' here others =>
    obtain ⟨token, offset⟩ := t
    obtain ⟨token', offset'⟩ := t'
    have place : R offset offset' := (reads.alike here).place
    cases (reads.alike here).token with
    | literal value value' =>
      rw [parsePrimary, parsePrimary]
      exact .ok others
    | same =>
      cases token with
      | literal value =>
        rw [parsePrimary, parsePrimary]
        exact .ok others
      | openParen =>
        rw [parsePrimary, parsePrimary]
        refine (parseOr_alike reads ends rest rest' others).bind
          fun ⟨_, inner, _⟩ ⟨_, inner', _⟩ left => ?_
        have same := startsWithToken_alike reads .closeParen rfl left
        simp only at same ⊢
        rw [← same]
        split
        · exact .ok (List.forall₂_drop 1 left)
        · exact flawAt_alike reads ends left _
      | word word =>
        rw [parsePrimary, parsePrimary, startsWithToken_alike reads _ rfl others]
        split
        · have within : (rest.drop 1).length ≤ rest.length := by simp
          refine (parseRangeArgs_alike reads ends (rest.drop 1) (rest'.drop 1)
            (List.forall₂_drop 1 others)).bind
            fun ⟨args, inner, _⟩ ⟨args', inner', _⟩ ⟨length, left⟩ => ?_
          have same := startsWithToken_alike reads .closeParen rfl left
          simp only at same ⊢
          rw [← same]
          split
          · exact (rangeOf_alike reads place length).bind fun _ _ _ => .ok (List.forall₂_drop 1 left)
          · exact flawAt_alike reads ends left _
        · exact (pathOf_alike reads place word).bind fun _ _ _ => .ok others
      | compare | closeParen | comma =>
        rw [parsePrimary, parsePrimary]
        all_goals first | exact .error (reads.fault _ place) | nofun
termination_by 8 * tokens.length

theorem parseRangeArgs_alike (reads : TokenFaults R T F) (ends : R finish finish')
    (tokens tokens' : List LocatedToken) (h : List.Forall₂ T tokens tokens') :
    Related F (fun p p' => p.value.length = p'.value.length ∧ LeftAlike T p p')
      (parseRangeArgs finish tokens) (parseRangeArgs finish' tokens') := by
  rw [parseRangeArgs, parseRangeArgs, ← startsWithToken_alike reads _ rfl h]
  split
  · exact .ok ⟨rfl, h⟩
  · refine (parseOr_alike reads ends tokens tokens' h).bind fun p p' left => ?_
    have := p.shorter
    refine (parseRangeRest_alike reads ends p.rest p'.rest left).bind fun q q' later => .ok ?_
    exact ⟨congrArg (· + 1) later.1, later.2⟩
termination_by 8 * tokens.length + 7

theorem parseRangeRest_alike (reads : TokenFaults R T F) (ends : R finish finish')
    (tokens tokens' : List LocatedToken) (h : List.Forall₂ T tokens tokens') :
    Related F (fun p p' => p.value.length = p'.value.length ∧ LeftAlike T p p')
      (parseRangeRest finish tokens) (parseRangeRest finish' tokens') := by
  cases h with
  | nil =>
    rw [parseRangeRest, parseRangeRest]
    · exact .ok ⟨rfl, .nil⟩
    · nofun
    · nofun
  | @cons t t' rest rest' here others =>
    obtain ⟨token, offset⟩ := t
    obtain ⟨token', offset'⟩ := t'
    by_cases comma : token = .comma
    · subst comma
      obtain rfl : token' = .comma := ((reads.alike here).eq_iff rfl).mp rfl
      rw [parseRangeRest, parseRangeRest]
      refine (parseOr_alike reads ends rest rest' others).bind fun p p' left => ?_
      have := p.shorter
      refine (parseRangeRest_alike reads ends p.rest p'.rest left).bind fun q q' later => .ok ?_
      exact ⟨congrArg (· + 1) later.1, later.2⟩
    · have comma' : token' ≠ .comma := mt ((reads.alike here).eq_iff rfl).mpr comma
      rw [parseRangeRest, parseRangeRest]
      · exact .ok ⟨rfl, .cons here others⟩
      · rintro _ _ same
        cases same
        exact comma' rfl
      · rintro _ _ same
        cases same
        exact comma rfl
termination_by 8 * tokens.length + 7

end

theorem parseTokens_alike (reads : TokenFaults R T F) (ends : R finish finish')
    (h : List.Forall₂ T tokens tokens') :
    Related F (fun _ _ => True) (parseTokens finish tokens) (parseTokens finish' tokens') := by
  refine (parseOr_alike reads ends tokens tokens' h).bind fun ⟨_, rest, _⟩ ⟨_, rest', _⟩ left => ?_
  cases left with
  | nil => exact .ok trivial
  | cons extra _ => exact .error (reads.unexpected extra)

end

theorem TokenFaults.kind : TokenFaults R (TokenAlike R) (FaultAlike R) where
  alike := id
  fault _ place := ⟨rfl, place⟩
  unexpected related := ⟨rfl, related.place⟩

/-! ### Expressions on a line -/

/-- What is left of a logical line, none of whose include markers stands outside of its text blocks. -/
structure Fills (text : List Char) : Prop where
  ends : ∃ offset, lineLength .code offset text = .ok text.length
  marker : ∀ front back, text = front ++ '[' :: '[' :: back → ¬GoesOn front

/-- A text that does not change with its breaks, or that ends its logical line. -/
def Settled (b : Break) (text : List Char) : Prop :=
  b.Idle text ∨ Fills text

variable {s s' : Span} {text front rest : List Char}

theorem Fills.of_append (h : Fills (front ++ rest)) (goesOn : GoesOn front) : Fills rest where
  ends := by
    obtain ⟨offset, ends⟩ := h.ends
    rw [goesOn, List.length_append, Nat.add_comm front.length] at ends
    obtain ⟨n, read, same⟩ := Computation.except_map_ok_iff.mp ends
    exact ⟨_, by rw [read, Nat.add_right_cancel same]⟩
  marker before back same behind := by
    refine h.marker (front ++ before) back ?_ (goesOn.append behind)
    rw [same, List.append_assoc]

theorem Settled.of_append (h : Settled b (front ++ rest)) (goesOn : GoesOn front) : Settled b rest :=
  h.imp (fun idle => idle.of_subset fun _ member => List.mem_append_right front member)
    fun fills => fills.of_append goesOn

/-- A character that opens neither a string nor a text block. -/
def isHarmless (c : Char) : Bool :=
  !isQuote c && c ≠ '<'

theorem isHarmless_of_isPlain {c : Char} (h : isPlain c = true) : isHarmless c = true := by
  simp only [isPlain, Bool.and_eq_true] at h
  rw [isHarmless, Bool.and_eq_true]
  exact h.1.1.1

/-- In front of what is left of a line, a text that opens nothing has no newline either. -/
theorem Fills.of_harmless (h : Fills (front ++ rest)) (harmless : ∀ c ∈ front, isHarmless c = true) :
    Fills rest := by
  induction front with
  | nil => exact h
  | cons c more ih =>
    obtain ⟨here, others⟩ := List.forall_mem_cons.mp harmless
    by_cases newline : c = '\n'
    · subst newline
      obtain ⟨offset, ends⟩ := h.ends
      simp [lineLength] at ends
    · have inert : isInert c = true := by simpa [isInert, isHarmless, newline] using here
      have whole : Fills ([c] ++ (more ++ rest)) := h
      exact ih (whole.of_append (.char inert)) others

theorem Settled.of_harmless (h : Settled b (front ++ rest))
    (harmless : ∀ c ∈ front, isHarmless c = true) : Settled b rest :=
  h.imp (fun idle => idle.of_subset fun _ member => List.mem_append_right front member)
    fun fills => fills.of_harmless harmless

/-- What is left of one line and of another that is moved. Where there is a line break in it, `P` holds. -/
structure Remains (R : Nat → Nat → Prop) (b : Break) (P : Prop) (s s' : Span) : Prop
    extends Moved R b s s' where
  settled : Settled b s.text
  breaks : '\n' ∈ s.text → P

namespace Remains

variable {P : Prop} {n m : Nat}

theorem drop_settled (h : Remains R b P s s') (measures : b.Measures s.text n m)
    (settled : Settled b (s.text.drop n)) : Remains R b P (s.drop n) (s'.drop m) :=
  ⟨h.toMoved.drop measures, settled, fun member => h.breaks (List.mem_of_mem_drop member)⟩

theorem drop (h : Remains R b P s s') (measures : b.Measures s.text n m)
    (goesOn : GoesOn (s.text.take n)) : Remains R b P (s.drop n) (s'.drop m) := by
  have whole := h.settled
  rw [← List.take_append_drop n s.text] at whole
  exact h.drop_settled measures (whole.of_append goesOn)

theorem drop_harmless (h : Remains R b P s s') (measures : b.Measures s.text n m)
    (harmless : ∀ c ∈ s.text.take n, isHarmless c = true) : Remains R b P (s.drop n) (s'.drop m) := by
  have whole := h.settled
  rw [← List.take_append_drop n s.text] at whole
  exact h.drop_settled measures (whole.of_harmless harmless)

theorem trimStart (h : Remains R b P s s') : Remains R b P s.trimStart s'.trimStart where
  toMoved := h.toMoved.trimStart
  settled := by
    have whole := h.settled
    rw [← List.takeWhile_append_dropWhile (p := isBlank) (l := s.text)] at whole
    exact Span.text_trimStart s ▸ whole.of_harmless fun c member =>
      isHarmless_of_isPlain (isPlain_of_isBlank (List.mem_takeWhile_imp member))
  breaks member := h.breaks (List.mem_of_mem_drop member)

/-- Behind a word of name characters. -/
theorem drop_word (h : Remains R b P s s') :
    Remains R b P (s.drop s.word.length) (s'.drop s.word.length) := by
  have newline : isNameChar '\n' = false := isNameChar_of_lt (by decide)
  refine h.drop_harmless (.of_takeWhile newline s.text) fun c member => ?_
  rw [Span.word, take_length_takeWhile] at member
  exact isHarmless_of_isPlain (isPlain_of_isNameChar (List.mem_takeWhile_imp member))

theorem nothing (h : Remains R b P s s') :
    Remains R b P (s.drop s.text.length) (s'.drop s'.text.length) := by
  have measures := Break.Measures.whole b s.text
  rw [← h.text] at measures
  refine h.drop_settled measures (.inl (.inr ?_))
  rw [List.drop_length]
  exact List.not_mem_nil

end Remains

/-- A value and what is left of two lines behind the number of characters that it takes. -/
def Takes {α : Type} (R : Nat → Nat → Prop) (b : Break) (P : Prop) (s s' : Span)
    (found found' : α × Nat) : Prop :=
  found.1 = found'.1 ∧ Remains R b P (s.drop found.2) (s'.drop found'.2)

theorem GoesOn.expr {e : Expr} (read : readExpr s = .ok e) (single : '\n' ∉ s.text) : GoesOn s.text :=
  lineLength_expr read single

/-- Two readings of one expression end in the same way. -/
theorem readExpr_ends (h : Moved R b s s') :
    Alike R (fun _ _ => True) (readExpr s) (readExpr s') := by
  refine (tokenize_alike h).bind fun tokens tokens' related => ?_
  cases related with
  | nil => exact h.fault rfl
  | cons here others => exact parseTokens_alike .kind h.finish (.cons here others)

theorem readExpr_unique {e e' : Expr} (same : s.text = s'.text) (read : readExpr s = .ok e)
    (read' : readExpr s' = .ok e') : e = e' := by
  rw [readExpr_ok_iff, same, ← readExpr_ok_iff, read'] at read
  exact (Except.ok.inj read).symm

theorem readExpr_alike_of_idle (h : Moved R b s s') (idle : b.Idle s.text) :
    Alike R Eq (readExpr s) (readExpr s') := by
  have same : s.text = s'.text := by rw [h.text, idle.write_eq]
  exact ((readExpr_ends h).and_ok fun _ _ => readExpr_unique same).mono fun _ _ => And.right

/-- On a line that ends behind it, an expression has no line break. -/
theorem single_of_readExpr {e : Expr} {offset : Nat} (untaken : ¬['\\', '\n'] <:+: s.text)
    (ends : lineLength .code offset (s.text ++ rest) = .ok (s.text ++ rest).length)
    (read : readExpr s = .ok e) : '\n' ∉ s.text := by
  intro newline
  obtain ⟨ts, tokens, derived⟩ := readExpr_ok_iff.mp read
  obtain ⟨bare, outline, apart, last, _⟩ := derived.outline tokens
  have short := lt_of_lineLength_outline outline newline untaken apart last ends
  rw [List.length_append] at short
  omega

/-- An expression is the same in both texts, and what stands behind it on its line ends the line. -/
theorem readExpr_alike (h : Moved R b s s') (settled : Settled b (s.text ++ rest)) :
    Alike R (fun e e' => e = e' ∧ Settled b rest) (readExpr s) (readExpr s') := by
  have front : ∀ c ∈ s.text, c ∈ s.text ++ rest := fun _ => List.mem_append_left rest
  have back : ∀ c ∈ rest, c ∈ s.text ++ rest := fun _ => List.mem_append_right s.text
  rcases settled with idle | fills
  · exact (readExpr_alike_of_idle h (idle.of_subset front)).mono fun _ _ same =>
      ⟨same, .inl (idle.of_subset back)⟩
  · by_cases plain : b = .plain
    · exact (readExpr_alike_of_idle h (.inl plain)).mono fun _ _ same => ⟨same, .inl (.inl plain)⟩
    have untaken := h.untaken.resolve_left plain
    refine ((readExpr_ends h).and_ok fun e e' read read' => ?_).mono fun _ _ => And.right
    have single := single_of_readExpr untaken fills.ends.choose_spec read
    refine ⟨readExpr_unique ?_ read read', .inr (fills.of_append (.expr read single))⟩
    rw [h.text, Break.write_of_single single]

/-! ### What a line starts with -/

theorem exists_of_block (lead : Lead.ofText text = .block) : ∃ inner, text = '<' :: '<' :: inner := by
  unfold Lead.ofText at lead
  split at lead
  · exact ⟨_, rfl⟩
  all_goals cases lead

theorem exists_of_marker (lead : Lead.ofText text = .marker) :
    ∃ inner, text = '[' :: '[' :: inner := by
  unfold Lead.ofText at lead
  split at lead
  · cases lead
  · exact ⟨_, rfl⟩
  all_goals cases lead

theorem exists_of_directive (lead : Lead.ofText text = .directive) : ∃ inner, text = '@' :: inner := by
  unfold Lead.ofText at lead
  split at lead
  · cases lead
  · cases lead
  · exact ⟨_, rfl⟩
  · cases lead

theorem lead_cons (c : Char) (rest : List Char) : Lead.ofText (c :: rest) =
    if c = '<' ∧ rest.head? = some '<' then .block
    else if c = '[' ∧ rest.head? = some '[' then .marker
    else if c = '@' then .directive else .other := by
  unfold Lead.ofText
  split
  · next same => cases same; rfl
  · next same => cases same; rfl
  · next same => cases same; rfl
  · next noBlock noMarker noDirective =>
    rw [if_neg, if_neg, if_neg]
    · rintro rfl
      exact noDirective rest rfl
    · rintro ⟨rfl, next⟩
      obtain ⟨more, rfl⟩ := List.head?_eq_some_iff.mp next
      exact noMarker more rfl
    · rintro ⟨rfl, next⟩
      obtain ⟨more, rfl⟩ := List.head?_eq_some_iff.mp next
      exact noBlock more rfl

/-- Line breaks are no part of what a text starts with. -/
theorem lead_write (b : Break) (text : List Char) : Lead.ofText (b.write text) = Lead.ofText text := by
  cases text with
  | nil => rfl
  | cons c rest =>
    by_cases newline : c = '\n'
    · subst newline
      obtain ⟨first, more, head, which⟩ := b.exists_head
      rw [Break.write_newline, head, List.cons_append, lead_cons, lead_cons]
      rcases which with rfl | rfl <;> simp
    · rw [Break.write_cons_of_ne newline, lead_cons, lead_cons]
      simp only [Break.head?_write_iff (b := b) (c := '<') (by decide),
        Break.head?_write_iff (b := b) (c := '[') (by decide)]

end PromptScript.Source
