import PromptScript.Proofs.Source.Alike.Marker

/-!
Directives and imports whose line breaks are written another way. What they read stands on one line; with
a line break in it, they are malformed in both texts.
-/
namespace PromptScript.Source

open Text

variable {R : Nat → Nat → Prop} {b : Break} {s s' : Span} {text front rest : List Char} {c : Char}

theorem option_rel_bind {α β γ δ : Type} {V : α → β → Prop} {W : γ → δ → Prop} {f : α → Option γ}
    {f' : β → Option δ} {found : Option α} {found' : Option β} (h : Option.Rel V found found')
    (next : ∀ a a', V a a' → Option.Rel W (f a) (f' a')) :
    Option.Rel W (found.bind f) (found'.bind f') := by
  cases h with
  | none => exact .none
  | some related => exact next _ _ related

theorem option_rel_or {α β : Type} {V : α → β → Prop} {found more : Option α} {found' more' : Option β}
    (h : Option.Rel V found found') (h' : Option.Rel V more more') :
    Option.Rel V (found.or more) (found'.or more') := by
  cases h with
  | none => exact h'
  | some related => exact .some related

theorem option_rel_eq_iff {α : Type} {found found' : Option α} :
    Option.Rel Eq found found' ↔ found = found' := by
  constructor
  · rintro (_ | _)
    · rename_i same
      exact congrArg some same
    · rfl
  · rintro rfl
    cases found with
    | none => exact .none
    | some a => exact .some rfl

/-! ### The pieces of a directive -/

theorem afterKeyword?_alike (h : Moved R b s s') (keyword : List Char)
    (visible : keyword.all (!isBlank ·) = true) :
    Option.Rel (Moved R b) (s.afterKeyword? keyword) (s'.afterKeyword? keyword) := by
  by_cases starts : keyword.isPrefixOf s.text = true
  · obtain ⟨behind, same⟩ := List.isPrefixOf_iff_prefix.mp starts
    have single : '\n' ∉ keyword := fun member => by
      have seen := List.all_eq_true.mp visible '\n' member
      exact absurd seen (by decide)
    have measures : b.Measures s.text keyword.length keyword.length := same ▸ .single single behind
    have moved := h.drop measures
    have blank : (s'.drop keyword.length).text.head?.any isBlank =
        (s.drop keyword.length).text.head?.any isBlank := by
      rw [moved.text, Break.any_head?_write (by decide)]
    unfold Span.afterKeyword?
    simp only [blank, h.text, Break.isPrefixOf_write keyword visible]
    split
    · exact .some moved.trimStart
    · exact .none
  · unfold Span.afterKeyword?
    simp only [h.text, Break.isPrefixOf_write keyword visible, starts, false_and, if_false,
      Bool.false_eq_true]
    exact .none

theorem not_isWordChar : isWordChar '\n' = false ∧ isWordChar '\r' = false :=
  ⟨isWordChar_of_lt (by decide), isWordChar_of_lt (by decide)⟩

theorem leadingName?_write (b : Break) (text : List Char) :
    leadingName? (b.write text) = leadingName? text := by
  cases text with
  | nil => rfl
  | cons c rest =>
    by_cases newline : c = '\n'
    · subst newline
      obtain ⟨first, more, head, which⟩ := b.exists_head
      rw [Break.write_newline, head]
      rcases which with rfl | rfl <;> rfl
    · rw [Break.write_cons_of_ne newline, leadingName?, leadingName?,
        Break.takeWhile_write not_isWordChar.1 not_isWordChar.2]

theorem not_newline_of_isPlainNameStart (h : isPlainNameStart c = true) : c ≠ '\n' := by
  rintro rfl
  exact absurd h (by decide)

theorem leadingName?_measures {name : List Char} (h : leadingName? text = some name) :
    b.Measures text name.length name.length := by
  unfold leadingName? at h
  split at h
  · split at h
    · next start =>
      cases h
      exact (Break.Measures.of_takeWhile not_isWordChar.1 _).cons (not_newline_of_isPlainNameStart start)
    · cases h
  · cases h

theorem isOneLine_write (b : Break) (text : List Char) : isOneLine (b.write text) = isOneLine text := by
  rw [Bool.eq_iff_iff]
  simp [isOneLine, Break.write_eq_nil_iff, Break.newline_mem_write_iff]

theorem single_of_isOneLine (h : isOneLine text = true) : '\n' ∉ text := by
  simp only [isOneLine, Bool.and_eq_true, Bool.not_eq_true'] at h
  simpa using h.2

/-! ### Assignments -/

/-- The same name, and an expression on one line. -/
def StateAlike (R : Nat → Nat → Prop) (b : Break) (parts parts' : List Char × Span) : Prop :=
  parts.1 = parts'.1 ∧ Moved R b parts.2 parts'.2 ∧ '\n' ∉ parts.2.text

/-- A visible character at the start is one character of both texts. -/
theorem measures_of_head? (start : text.head? = some c) (visible : isBlank c = false) :
    b.Measures text 1 1 := by
  obtain ⟨more, rfl⟩ := List.head?_eq_some_iff.mp start
  refine (Break.Measures.zero b more).cons ?_
  rintro rfl
  exact absurd visible (by decide)

theorem stateParts?_alike (h : Moved R b s s') :
    Option.Rel (StateAlike R b) (stateParts? s) (stateParts? s') := by
  unfold stateParts?
  refine option_rel_bind (afterKeyword?_alike h _ rfl) fun t t' after => ?_
  rw [after.text, leadingName?_write]
  cases named : leadingName? t.text with
  | none => exact .none
  | some name =>
    have moved := (after.drop (leadingName?_measures named)).trimStart
    simp only [Option.bind_eq_bind, Option.bind_some, moved.text,
      Break.head?_write_iff (b := b) (c := '=') (by decide)]
    split
    · next equals =>
      have value := (moved.drop (measures_of_head? equals (by decide))).trimStart
      rw [value.text, isOneLine_write]
      split
      · next oneLine => exact .some ⟨rfl, value, single_of_isOneLine oneLine⟩
      · exact .none
    · exact .none

/-! ### Calls -/

theorem splitLast?_front (absent : c ∉ front) (rest : List Char) : splitLast? c (front ++ rest) =
    (splitLast? c rest).map fun (before, after) => (front ++ before, after) := by
  induction front with
  | nil => simp
  | cons d more ih =>
    rw [List.mem_cons, not_or] at absent
    rw [List.cons_append, splitLast?, ih absent.2]
    cases splitLast? c rest with
    | none => simp [Ne.symm absent.1]
    | some found => rfl

theorem splitLast?_write (visible : isBlank c = false) (text : List Char) :
    splitLast? c (b.write text) = (splitLast? c text).map (Prod.map b.write b.write) := by
  induction text with
  | nil => rfl
  | cons d rest ih =>
    by_cases newline : d = '\n'
    · subst newline
      have other : '\n' ≠ c := by
        rintro rfl
        exact absurd visible (by decide)
      rw [Break.write_newline, splitLast?_front (Break.not_mem_text_of_visible visible), ih, splitLast?]
      cases splitLast? c rest with
      | none => simp [other]
      | some found => simp [Break.write_newline]
    · rw [Break.write_cons_of_ne newline, splitLast?, ih, splitLast?]
      cases splitLast? c rest with
      | none =>
        by_cases same : d = c
        · simp [same]
        · simp [same]
      | some found => simp [Break.write_cons_of_ne newline]

theorem eq_of_splitLast? {before after : List Char} (h : splitLast? c text = some (before, after)) :
    text = before ++ c :: after := by
  induction text generalizing before with
  | nil => cases h
  | cons d rest ih =>
    rw [splitLast?] at h
    split at h
    · next found =>
      cases h
      rw [ih found, List.cons_append]
    · split at h
      · next same =>
        cases h
        rw [same, List.nil_append]
      · cases h

/-- A name that takes up a text is as long as it only where the text is on one line. -/
theorem length_write_iff {name : List Char} (h : leadingName? text = some name) :
    name.length = (b.write text).length ↔ name.length = text.length := by
  have measures : b.Measures text name.length name.length := leadingName?_measures h
  obtain ⟨front, rest, rfl, same, -⟩ := measures.exists_append
  have front' : (b.write front).length = front.length := by
    have := measures.2
    rw [same, List.take_left] at this
    exact this.symm
  rw [Break.write_append, List.length_append, List.length_append, front', same]
  constructor
  · intro none
    have nothing : b.write rest = [] := List.length_eq_zero_iff.mp (by omega)
    rw [Break.write_eq_nil_iff.mp nothing]
    rfl
  · intro none
    have nothing : rest = [] := List.length_eq_zero_iff.mp (by omega)
    rw [nothing]
    rfl

theorem callTarget?_write (b : Break) (text : List Char) :
    callTarget? (b.write text) = callTarget? text := by
  unfold callTarget?
  rw [Break.trimStart_write]
  generalize trimStart text = behind
  by_cases arrow : ∃ rest, behind = '=' :: '>' :: rest
  · obtain ⟨rest, rfl⟩ := arrow
    rw [Break.write_cons_of_ne (by decide), Break.write_cons_of_ne (by decide)]
    simp only [Break.trimStart_write, leadingName?_write]
    cases named : leadingName? (trimStart rest) with
    | none => rfl
    | some name => simp only [length_write_iff named]
  · have other : ∀ rest, b.write behind ≠ '=' :: '>' :: rest := by
      intro rest found
      obtain ⟨more, rfl, later⟩ :=
        (Break.write_eq_cons_iff (Break.not_mem_text_of_visible (by decide))).mp found
      obtain ⟨rest, rfl, -⟩ :=
        (Break.write_eq_cons_iff (Break.not_mem_text_of_visible (by decide))).mp later
      exact arrow ⟨rest, rfl⟩
    cases behind with
    | nil => rfl
    | cons c rest =>
      have visible : b.write (c :: rest) ≠ [] := mt Break.write_eq_nil_iff.mp (List.cons_ne_nil c rest)
      split
      · next nothing => exact absurd nothing visible
      · next found => exact absurd found (other _)
      · split
        · next nothing => cases nothing
        · next found => exact absurd ⟨_, found⟩ arrow
        · rfl

/-- The same name and target, and the arguments on one line. -/
def CallAlike (R : Nat → Nat → Prop) (b : Break)
    (parts parts' : List Char × Span × Option (List Char)) : Prop :=
  parts.1 = parts'.1 ∧ parts.2.2 = parts'.2.2 ∧ Moved R b parts.2.1 parts'.2.1 ∧
    '\n' ∉ parts.2.1.text

theorem callParts?_alike (h : Moved R b s s') :
    Option.Rel (CallAlike R b) (callParts? s) (callParts? s') := by
  unfold callParts?
  refine option_rel_bind (afterKeyword?_alike h _ rfl) fun t t' after => ?_
  rw [after.text, leadingName?_write]
  cases named : leadingName? t.text with
  | none => exact .none
  | some name =>
    have moved := (after.drop (leadingName?_measures named)).trimStart
    simp only [Option.bind_eq_bind, Option.bind_some, moved.text,
      Break.head?_write_iff (b := b) (c := '(') (by decide)]
    split
    · next paren =>
      have inner := moved.drop (measures_of_head? paren (by decide))
      rw [inner.text, splitLast?_write (by decide)]
      cases split : splitLast? ')' (((t.drop name.length).trimStart).drop 1).text with
      | none => exact .none
      | some found =>
        obtain ⟨arguments, behind⟩ := found
        simp only [Option.map_some, Prod.map_apply, Option.bind_some, callTarget?_write]
        cases callTarget? behind with
        | none => exact .none
        | some target =>
          have whole := eq_of_splitLast? split
          have measures : b.Measures (((t.drop name.length).trimStart).drop 1).text arguments.length
              (b.write arguments).length := whole ▸ .of_append b arguments _
          simp only [Option.bind_some, List.contains_iff_mem, Break.newline_mem_write_iff]
          split
          · exact .none
          · next single =>
            refine .some ⟨rfl, rfl, inner.take measures, ?_⟩
            rw [Span.text_take, whole, List.take_left]
            exact single
    · exact .none

theorem clearEffect?_alike (h : Moved R b s s') : clearEffect? s = clearEffect? s' := by
  rw [← option_rel_eq_iff]
  unfold clearEffect?
  refine option_rel_bind (afterKeyword?_alike h _ rfl) fun t t' after => ?_
  have spells (word : List Char) (single : '\n' ∉ word) : b.write t.text = word ↔ t.text = word :=
    Break.write_eq_iff single
  rw [option_rel_eq_iff, after.text]
  simp only [spells ['c', 'o', 'n', 't', 'e', 'x', 't'] (by decide), spells ['t', 'o', 'o', 'l'] (by decide),
    spells ['t', 'o', 'o', 'l', 's'] (by decide)]

theorem toolNames?_alike (h : Moved R b s s') : toolNames? s = toolNames? s' := by
  rw [← option_rel_eq_iff]
  unfold toolNames?
  refine option_rel_bind (option_rel_or (afterKeyword?_alike h _ rfl) (afterKeyword?_alike h _ rfl))
    fun t t' after => ?_
  rw [option_rel_eq_iff, after.text, isOneLine_write]
  split
  · next oneLine => rw [Break.write_of_single (single_of_isOneLine oneLine)]
  · rfl

theorem readArguments_alike (h : Moved R .plain s s') :
    Alike R Eq (readArguments s) (readArguments s') := by
  unfold readArguments
  rw [h.plain_text]
  split
  · exact .ok rfl
  · refine (Related.mapM (h.splitTopLevel _) fun _ _ part => readExpr_alike_of_idle part (.inl rfl)).mono
      fun args args' all => ?_
    rwa [List.forall₂_eq_eq_eq] at all

theorem readEffect_alike (h : Moved R b s s') : Alike R Eq (readEffect s) (readEffect s') := by
  have action := afterKeyword?_alike h ['@', 'e', 'f', 'f', 'e', 'c', 't'] rfl
  have malformed : Alike R (Eq (α := Effect)) (s.fault (.malformedDirective (.ofList s.text)))
      (s'.fault (.malformedDirective (.ofList s'.text))) := h.fault rfl
  unfold readEffect
  generalize s.afterKeyword? ['@', 'e', 'f', 'f', 'e', 'c', 't'] = found,
    s'.afterKeyword? ['@', 'e', 'f', 'f', 'e', 'c', 't'] = found' at action
  cases action with
  | none => exact malformed
  | @some t t' moved =>
    have run : b.write t.text = ['r', 'u', 'n'] ↔ t.text = ['r', 'u', 'n'] :=
      Break.write_eq_iff (by decide)
    simp only [moved.text, run, ← clearEffect?_alike moved, ← toolNames?_alike moved]
    split
    · exact .ok rfl
    · split
      · exact .ok rfl
      · have call := callParts?_alike moved
        generalize callParts? t = parts, callParts? t' = parts' at call
        cases call with
        | none =>
          simp only
          cases (toolNames? t).bind fun names => readNames? names with
          | none => exact malformed
          | some names => exact .ok rfl
        | @some parts parts' same =>
          obtain ⟨name, arguments, target⟩ := parts
          obtain ⟨name', arguments', target'⟩ := parts'
          obtain ⟨rfl, rfl, moved, single⟩ := same
          exact (readArguments_alike (moved.toPlain (.inr single))).bind fun _ _ args =>
            .ok (by rw [args])

/-- A directive is the same in both texts. -/
theorem readDirective_alike (h : Moved R b s s') (lead : Lead.ofText s.text = .directive) :
    Alike R Eq (readDirective s) (readDirective s') := by
  obtain ⟨inner, start⟩ := exists_of_directive lead
  have one : b.Measures s.text 1 1 := start ▸ (Break.Measures.zero b inner).cons (by decide)
  unfold readDirective
  simp only [(h.drop one).word]
  split
  · have parts := stateParts?_alike h
    generalize stateParts? s = found, stateParts? s' = found' at parts
    cases parts with
    | none => exact h.fault rfl
    | @some parts parts' same =>
      obtain ⟨name, value⟩ := parts
      obtain ⟨name', value'⟩ := parts'
      obtain ⟨rfl, moved, single⟩ := same
      exact (readExpr_alike_of_idle moved (.inr single)).bind fun _ _ same => .ok (by rw [same])
  · split
    · exact (readEffect_alike h).bind fun _ _ same => .ok (by rw [same])
    · exact h.fault rfl

/-! ### Imports -/

theorem not_isModuleChar : isModuleChar '\n' = false ∧ isModuleChar '\r' = false := by
  simp [isModuleChar, not_isWordChar]

theorem fromParts?_alike (h : Moved R b s s') : fromParts? s = fromParts? s' := by
  rw [← option_rel_eq_iff]
  unfold fromParts?
  refine option_rel_bind (afterKeyword?_alike h _ rfl) fun t t' after => ?_
  have behind := after.drop_takeWhile not_isModuleChar.1 not_isModuleChar.2
  have source : t'.text.takeWhile isModuleChar = t.text.takeWhile isModuleChar := by
    rw [after.text, Break.takeWhile_write not_isModuleChar.1 not_isModuleChar.2]
  rw [source] at behind
  simp only [source, behind.text, Break.any_head?_write (b := b) (p := isBlank) (by decide)]
  split
  · exact .none
  · refine option_rel_bind (afterKeyword?_alike behind.trimStart _ rfl) fun u u' names => ?_
    rw [option_rel_eq_iff, names.text, isOneLine_write]
    split
    · next oneLine => rw [Break.write_of_single (single_of_isOneLine oneLine)]
    · rfl

theorem importSource?_alike (h : Moved R b s s') : importSource? s = importSource? s' := by
  rw [← option_rel_eq_iff]
  unfold importSource?
  refine option_rel_bind (afterKeyword?_alike h _ rfl) fun t t' after => ?_
  rw [option_rel_eq_iff, after.text]
  by_cases newline : '\n' ∈ t.text
  · -- No module has a newline in its name.
    have other {text : List Char} (newline : '\n' ∈ text) : text.all isModuleChar = false :=
      List.all_eq_false.mpr ⟨'\n', newline, by simp [not_isModuleChar]⟩
    rw [other newline, other (Break.newline_mem_write_iff.mpr newline)]
    simp
  · rw [Break.write_of_single newline]

theorem readImport_alike (h : Moved R b s s') : Alike R Eq (readImport s) (readImport s') := by
  unfold readImport
  rw [← fromParts?_alike h, ← importSource?_alike h]
  split
  · split
    · exact .ok rfl
    · exact h.fault rfl
  · exact .ok rfl

end PromptScript.Source
