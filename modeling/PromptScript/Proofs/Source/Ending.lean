import Mathlib
import PromptScript.Proofs.Source.Colon
import PromptScript.Proofs.Source.Place

/-!
No line that is a node of its own ends with a backslash. A newline behind it therefore ends the line,
even where a quoted string is still open.
-/
namespace PromptScript.Source

open Text

variable {s t : Span} {text rest names : List Char} {c : Char} {n : Nat}

theorem not_isBlank_backslash : isBlank '\\' = false := by decide

theorem EndsPlainly.of_blank (blank : (trimStart text).isEmpty = true) : EndsPlainly text := by
  refine .of_not_mem fun member => ?_
  have all := List.dropWhile_eq_nil_iff.mp (List.isEmpty_iff.mp blank)
  exact absurd (all '\\' member) (by decide)

/-- A text that ends, but for blanks, with a mark of two characters, `n` characters behind another mark. -/
theorem EndsPlainly.of_mark (mark : [c, c] <+: (text.drop 2).drop n) (other : c ≠ '\\')
    (blank : (trimStart (text.drop (n + 4))).isEmpty = true) : EndsPlainly text := by
  rw [List.drop_drop] at mark
  obtain ⟨behind, split⟩ := mark
  have later : text.drop (n + 4) = behind := by
    rw [show n + 4 = 2 + n + 2 by omega, ← List.drop_drop, ← split]
    rfl
  rw [later] at blank
  have ends : EndsPlainly (text.drop (2 + n)) := by
    rw [← split]
    exact .cons other (.cons other (.of_blank blank))
  refine .of_suffix (List.drop_suffix _ text) ?_ ends
  rw [← split]
  exact List.cons_ne_nil c _

theorem Span.drop_suffix (s : Span) (n : Nat) : (s.drop n).text <:+ s.text :=
  List.drop_suffix n s.text

theorem Span.trimStart_suffix (s : Span) : s.trimStart.text <:+ s.text :=
  List.drop_suffix _ s.text

theorem suffix_of_afterKeyword? {keyword : List Char} (h : s.afterKeyword? keyword = some t) :
    t.text <:+ s.text := by
  have behind := text_afterKeyword? s keyword
  rw [h, Option.map_some] at behind
  split at behind
  · rw [Option.some.inj behind]
    exact (List.dropWhile_suffix _).trans (List.drop_suffix _ _)
  · cases behind

theorem isNameChar_of_isIdentifier (h : isIdentifier text = true) (member : c ∈ text) :
    isNameChar c = true := by
  cases text with
  | nil => cases member
  | cons first more =>
    obtain ⟨start, others⟩ := Bool.and_eq_true_iff.mp h
    rcases List.mem_cons.mp member with rfl | later
    · exact isNameChar_of_isNameStart start
    · exact List.all_eq_true.mp others c later

theorem not_isNameChar_backslash : isNameChar '\\' = false := by
  rw [isNameChar_of_lt (by decide)]
  decide

theorem ne_nil_of_afterKeyword? {keyword : List Char} (h : s.afterKeyword? keyword = some t) :
    s.text ≠ [] := by
  intro nothing
  have behind := text_afterKeyword? s keyword
  rw [h, nothing, List.drop_nil] at behind
  simp at behind

/-- Names between commas are made of their characters, blanks and commas. -/
theorem EndsPlainly.of_readNames? {found : List String} (h : readNames? text = some found) :
    EndsPlainly text := by
  -- A backslash would stand in one of the names.
  refine .of_not_mem fun member => ?_
  unfold readNames? at h
  simp only at h
  split at h
  · next names =>
    obtain ⟨piece, inside, holds⟩ := exists_piece (p := fun c => decide (c = ',')) member (by decide)
    have name := List.all_eq_true.mp names _ (List.mem_map_of_mem inside)
    have inName := isNameChar_of_isIdentifier name (mem_trim holds not_isBlank_backslash)
    rw [not_isNameChar_backslash] at inName
    cases inName
  · cases h

theorem endsPlainly_of_readExpr {e : Expr} (h : readExpr s = .ok e) : EndsPlainly s.text := by
  obtain ⟨ts, tokens, _⟩ := readExpr_ok_iff.mp h
  exact tokens.endsPlainly

theorem ne_nil_of_isOneLine (h : isOneLine text = true) : text ≠ [] := by
  rintro rfl
  cases h

theorem endsPlainly_of_stateParts? {name : List Char} {value : Span} {e : Expr}
    (h : stateParts? s = some (name, value)) (read : readExpr value = .ok e) :
    EndsPlainly s.text := by
  simp only [stateParts?, Option.bind_eq_bind, Option.bind_eq_some_iff] at h
  obtain ⟨t, found, name', _, h⟩ := h
  split at h
  · split at h
    · next oneLine =>
      cases h
      have front := suffix_of_afterKeyword? found
      refine .of_suffix ?_ (ne_nil_of_isOneLine oneLine) (endsPlainly_of_readExpr read)
      exact (Span.trimStart_suffix _).trans ((Span.drop_suffix _ _).trans
        ((Span.trimStart_suffix _).trans ((Span.drop_suffix _ _).trans front)))
    · cases h
  · cases h

theorem not_mem_leadingName? {name : List Char} (h : leadingName? text = some name) :
    '\\' ∉ name ∧ name ≠ [] := by
  cases text with
  | nil => cases h
  | cons c rest =>
    simp only [leadingName?] at h
    split at h
    · next start =>
      cases h
      refine ⟨fun member => ?_, List.cons_ne_nil c _⟩
      rcases List.mem_cons.mp member with rfl | later
      · exact absurd start (by decide)
      · exact absurd (List.mem_takeWhile_imp later) (by decide +kernel)
    · cases h

theorem prefix_of_leadingName? {name : List Char} (h : leadingName? text = some name) :
    name <+: text := by
  cases text with
  | nil => cases h
  | cons c rest =>
    simp only [leadingName?] at h
    split at h
    · cases h
      exact (List.prefix_cons_inj c).mpr (List.takeWhile_prefix isWordChar)
    · cases h

/-- What follows the arguments of a call is blank, or ends with a name. -/
theorem endsPlainly_of_callTarget? {target : Option (List Char)}
    (h : callTarget? text = some target) : EndsPlainly text := by
  unfold callTarget? at h
  split at h
  · next blank => exact .of_blank (List.isEmpty_iff.mpr blank)
  · next rest arrow =>
    simp only at h
    split at h
    · next name named =>
      split at h
      · next whole =>
        obtain ⟨absent, nonempty⟩ := not_mem_leadingName? named
        have same : name = trimStart rest := (prefix_of_leadingName? named).eq_of_length whole
        -- The name takes up all that is left behind the arrow.
        have behind : name <:+ trimStart text := by
          rw [arrow, same]
          exact (List.dropWhile_suffix _).trans ((List.suffix_cons _ _).trans (List.suffix_cons _ _))
        exact .of_suffix (behind.trans (List.dropWhile_suffix _)) nonempty (.of_not_mem absent)
      · cases h
    · cases h
  · cases h

theorem suffix_of_splitLast? {before after : List Char}
    (h : splitLast? c text = some (before, after)) : c :: after <:+ text := by
  induction text generalizing before with
  | nil => cases h
  | cons d rest ih =>
    simp only [splitLast?] at h
    split at h
    · next found =>
      cases h
      exact (ih found).trans (List.suffix_cons d rest)
    · split at h
      · next same =>
        cases h
        exact same ▸ List.suffix_rfl
      · cases h

theorem endsPlainly_of_callParts? {name : List Char} {arguments : Span}
    {target : Option (List Char)} (h : callParts? s = some (name, arguments, target)) :
    EndsPlainly s.text := by
  simp only [callParts?, Option.bind_eq_bind, Option.bind_eq_some_iff] at h
  obtain ⟨t, found, name', _, h⟩ := h
  split at h
  · obtain ⟨⟨before, behind⟩, split, h⟩ := Option.bind_eq_some_iff.mp h
    obtain ⟨target', closed, _⟩ := Option.bind_eq_some_iff.mp h
    have front := suffix_of_afterKeyword? found
    -- From the last parenthesis on there is nothing but the target.
    have ends : EndsPlainly (')' :: behind) := .cons (by decide) (endsPlainly_of_callTarget? closed)
    refine .of_suffix ((suffix_of_splitLast? split).trans ?_) (List.cons_ne_nil _ _) ends
    exact (Span.drop_suffix _ _).trans ((Span.trimStart_suffix _).trans
      ((Span.drop_suffix _ _).trans front))
  · cases h

theorem endsPlainly_of_clearEffect? {effect : Effect} (h : clearEffect? s = some effect) :
    EndsPlainly s.text := by
  simp only [clearEffect?, Option.bind_eq_bind, Option.bind_eq_some_iff] at h
  obtain ⟨t, found, h⟩ := h
  have front := suffix_of_afterKeyword? found
  split at h
  · next whole =>
    rw [whole] at front
    exact .of_suffix front (List.cons_ne_nil _ _) (.of_not_mem (by decide))
  · split at h
    · next whole =>
      rcases whole with whole | whole <;> rw [whole] at front <;>
        exact .of_suffix front (List.cons_ne_nil _ _) (.of_not_mem (by decide))
    · cases h

theorem keyword_of_toolNames? (h : toolNames? s = some names) :
    ∃ keyword t, s.afterKeyword? keyword = some t ∧ t.text = names ∧ names ≠ [] := by
  simp only [toolNames?, Option.bind_eq_bind, Option.bind_eq_some_iff, Option.or_eq_some_iff] at h
  obtain ⟨t, keyword, h⟩ := h
  split at h
  · next oneLine =>
    cases h
    rcases keyword with plural | ⟨_, singular⟩
    · exact ⟨_, t, plural, rfl, ne_nil_of_isOneLine oneLine⟩
    · exact ⟨_, t, singular, rfl, ne_nil_of_isOneLine oneLine⟩
  · cases h

theorem endsPlainly_of_readEffect {effect : Effect} (h : readEffect s = .ok effect) :
    EndsPlainly s.text := by
  unfold readEffect at h
  simp only at h
  split at h
  · cases h
  · next action found =>
    have front := suffix_of_afterKeyword? found
    -- The action reaches to the end of the line, so its end is that of the line.
    have whole (nonempty : action.text ≠ []) (ends : EndsPlainly action.text) : EndsPlainly s.text :=
      .of_suffix front nonempty ends
    split at h
    · next run =>
      rw [run] at whole
      exact whole (List.cons_ne_nil _ _) (.of_not_mem (by decide))
    · split at h
      · next effect clear =>
        obtain ⟨t, keyword, _⟩ := Option.bind_eq_some_iff.mp clear
        exact whole (ne_nil_of_afterKeyword? keyword) (endsPlainly_of_clearEffect? clear)
      · split at h
        · next name arguments target call =>
          obtain ⟨t, keyword, _⟩ := Option.bind_eq_some_iff.mp call
          exact whole (ne_nil_of_afterKeyword? keyword) (endsPlainly_of_callParts? call)
        · split at h
          · next found tools =>
            obtain ⟨names, tools, read⟩ := Option.bind_eq_some_iff.mp tools
            obtain ⟨keyword, t, behind, rfl, nonempty⟩ := keyword_of_toolNames? tools
            have suffix := suffix_of_afterKeyword? behind
            exact whole (ne_nil_of_afterKeyword? behind)
              (.of_suffix suffix nonempty (.of_readNames? read))
          · cases h

theorem endsPlainly_of_readDirective {node : Node} (h : readDirective s = .ok node) :
    EndsPlainly s.text := by
  unfold readDirective at h
  simp only at h
  split at h
  · split at h
    · next name value found =>
      obtain ⟨e, read, _⟩ := Computation.except_bind_ok_iff.mp h
      exact endsPlainly_of_stateParts? found read
    · cases h
  · split at h
    · obtain ⟨effect, read, _⟩ := Computation.except_bind_ok_iff.mp h
      exact endsPlainly_of_readEffect read
    · cases h

theorem endsPlainly_of_readImport {node : Node} (h : readImport s = .ok (some node)) :
    EndsPlainly s.text := by
  unfold readImport at h
  split at h
  · next source names found =>
    split at h
    · next list read =>
      simp only [fromParts?, Option.bind_eq_bind, Option.bind_eq_some_iff] at found
      obtain ⟨t, keyword, found⟩ := found
      have front := suffix_of_afterKeyword? keyword
      split at found
      · cases found
      · obtain ⟨u, keyword', found⟩ := Option.bind_eq_some_iff.mp found
        have behind := suffix_of_afterKeyword? keyword'
        split at found
        · next oneLine =>
          cases found
          have suffix := behind.trans ((Span.trimStart_suffix _).trans
            ((Span.drop_suffix _ _).trans front))
          exact .of_suffix suffix (ne_nil_of_isOneLine oneLine) (.of_readNames? read)
        · cases found
    · cases h
  · have found := Except.ok.inj h
    simp only [Option.bind_eq_bind, Option.bind_eq_some_iff] at found
    obtain ⟨source, found, _⟩ := found
    simp only [importSource?, Option.bind_eq_bind, Option.bind_eq_some_iff] at found
    obtain ⟨t, keyword, found⟩ := found
    split at found
    · next plain =>
      cases found
      have nonempty : t.text ≠ [] := by simpa using plain.1
      refine .of_suffix (suffix_of_afterKeyword? keyword) nonempty (.of_not_mem fun member => ?_)
      exact absurd (List.all_eq_true.mp plain.2 '\\' member) (by decide +kernel)
    · cases found

/-- A line that is a node of its own does not end with a backslash. -/
theorem endsPlainly_of_readStatement {line : LogicalLine} {node : Node}
    (h : readStatement line = .ok (.node node)) (visible : Bars isBlank line.span.text) :
    EndsPlainly line.span.text := by
  rw [← Span.text_trimStart_of_bars visible]
  generalize said : Statement.node node = statement at h
  cases says_of_readStatement h with
  | block read blank =>
    unfold readBlockMark at read
    split at read
    · cases read
    · next closes =>
      obtain ⟨_, _, same⟩ := Computation.except_bind_ok_iff.mp read
      cases same
      exact .of_mark (prefix_of_find? closes) (by decide) blank
  | marker read blank =>
    unfold readInclude at read
    split at read
    · cases read
    · next closes =>
      obtain ⟨_, _, same⟩ := Computation.except_bind_ok_iff.mp read
      cases same
      exact .of_mark (prefix_of_includeEnd closes) (by decide) blank
  | directive read => exact endsPlainly_of_readDirective read
  | @functionImport found _ read same =>
    cases found with
    | none =>
      rw [← same] at said
      cases said
    | some node => exact endsPlainly_of_readImport read
  | chain | loop | nothing => cases said

end PromptScript.Source
