import Mathlib
import PromptScript.Proofs.Source.Ending
import PromptScript.Proofs.Source.Line

/-!
Texts that are one statement each. Such a text can stand on a line of its own in any template, where it
is the node that it is by itself.
-/
namespace PromptScript

/-- Whether a node has branches, or a body that is repeated. -/
def Node.isCompound : Node → Bool
  | .conditional .. | .loop .. => true
  | _ => false

namespace Source

open Text

variable {s : Span} {text : List Char} {c : Char}

/-! ### A text that is a template of one node -/

theorem trim_ne_nil (visible : Bars isBlank text) (nonempty : text ≠ []) : trim text ≠ [] := by
  obtain ⟨c, rest, rfl⟩ := List.exists_cons_of_ne_nil nonempty
  exact List.ne_nil_of_mem (mem_trim List.mem_cons_self (visible c rfl))

theorem Metadata.insert_ne_empty (key value : String) : Metadata.empty.insert key value ≠ .empty :=
  nofun

theorem physicalLines_of_single (single : '\n' ∉ text) : physicalLines text = [⟨0, text⟩] :=
  physicalLinesFrom_single single 0

/-- A line without metadata is all body. -/
theorem isBody_of_readPreamble {start : Nat} (h : readPreamble text = .ok (.empty, start))
    (single : '\n' ∉ text) (visible : Bars isBlank text) (nonempty : text ≠ []) :
    start = 0 ∧ IsBody text := by
  -- The line is the first that is not blank, so it is the one that decides.
  have notBlank : isBlankLine ⟨0, text⟩ = false := by
    simpa [isBlankLine] using trim_ne_nil visible nonempty
  rw [readPreamble, physicalLines_of_single single,
    List.dropWhile_cons_of_neg (by simp [notBlank])] at h
  simp only at h
  split at h
  · cases h
  · next noFence =>
    simp only [readMarked] at h
    split at h
    · -- An entry would show in the metadata.
      have metadata := (Prod.mk.inj (Except.ok.inj h)).1
      exact absurd metadata (Metadata.insert_ne_empty _ _)
    · next noEntry =>
      split at h
      · cases h
      · next unmarked =>
        cases h
        exact ⟨rfl, by simpa using noFence, noEntry, by simpa using unmarked⟩

/-- The logical line that a text on one line is, if it is one at all. -/
theorem logicalLines_of_single {lines : List LogicalLine} (h : logicalLines ⟨0, text⟩ = .ok lines)
    (single : '\n' ∉ text) (visible : Bars isBlank text) (some : lines ≠ []) :
    lines = [⟨0, ⟨0, trimEnd text⟩⟩] ∧ isSilent text = false ∧
      lineLength .code 0 text = .ok text.length := by
  cases text with
  | nil =>
    rw [logicalLines_nil] at h
    cases h
    exact absurd rfl some
  | cons c rest =>
    have bars : Bars isIndent (c :: rest) := bars_cons <| Bool.eq_false_iff.mpr fun indent => by
      have shown := visible c rfl
      rw [isBlank_of_isIndent indent] at shown
      cases shown
    -- Nothing is cut off in front, and the physical line is the whole text.
    have whole := logicalLines_indented 0 (List.forall_mem_nil _) bars (List.cons_ne_nil c rest)
    have physical := takeWhile_line single .nil
    rw [List.append_nil] at physical
    rw [List.nil_append] at whole
    rw [whole, physical] at h
    split at h
    · rw [List.drop_eq_nil_of_le (Nat.le_succ _), logicalLines_nil] at h
      cases h
      exact absurd rfl some
    · next audible =>
      obtain ⟨length, ends, h⟩ := Computation.except_bind_ok_iff.mp h
      -- Whatever the mode, a line without a newline goes on to the end of the text.
      obtain ⟨rfl, _⟩ := reachesEnd_of_ok ends single
      rw [List.drop_eq_nil_of_le (Nat.le_succ _), logicalLines_nil] at h
      cases h
      refine ⟨?_, by simpa using audible, ends⟩
      simp [indentWidth]

/-- An opening `if` has a condition. -/
theorem condition_of_readClauses {indent : Nat} {nested isFirst : Bool}
    {found : Read (List Clause) s.text.length} (h : readClauses indent nested isFirst s = .ok found) :
    ∀ first ∈ found.value.head?, first.kind = .ifClause → first.condition.isSome = true := by
  intro first member isIf
  unfold readClauses at h
  split at h
  · cases h
    cases member
  · next kind word =>
    split at h
    · cases h
      cases member
    · obtain ⟨colon, _, h⟩ := Computation.except_bind_ok_iff.mp h
      obtain ⟨condition, read, h⟩ := Computation.except_bind_ok_iff.mp h
      have opened (body : Option (List Node)) (opener : Opener)
          (same : (⟨kind, condition, body, opener⟩ : Clause) = first) :
          first.condition.isSome = true := by
        subst same
        cases isIf
        obtain ⟨e, _, rfl⟩ := Computation.except_map_ok_iff.mp read
        rfl
      simp only at h
      split at h
      · split at h
        · cases h
        · cases h
          exact opened _ _ (Option.some.inj member)
      · obtain ⟨⟨nodes, rest, _⟩, _, h⟩ := Computation.except_bind_ok_iff.mp h
        simp only at h
        split at h
        · obtain ⟨⟨more, rest, _⟩, _, h⟩ := Computation.except_bind_ok_iff.mp h
          cases h
          exact opened _ _ (Option.some.inj member)
        · cases h
          exact opened _ _ (Option.some.inj member)

theorem condition_of_readStatement {line : LogicalLine} {clauses : List Clause}
    (h : readStatement line = .ok (.chain clauses)) :
    ∀ first ∈ clauses.head?, first.kind = .ifClause → first.condition.isSome = true := by
  generalize said : Statement.chain clauses = statement at h
  cases says_of_readStatement h with
  | chain read =>
    cases said
    exact condition_of_readClauses read
  | @block found _ _ _ _ same =>
    rw [← same] at said
    cases found <;> cases said
  | @functionImport found _ _ same =>
    rw [← same] at said
    cases found <;> cases said
  | marker | directive | loop | nothing => cases said

theorem closeChain_of_if {clauses : ResolvedClauses} {condition : Expr} {body nodes : List Node}
    {node : Node} (h : closeChain (some ((some condition, body) :: clauses)) = node :: nodes) :
    node.isCompound = true := by
  simp only [closeChain, foldChain, Option.getD_some, List.foldr_cons, foldClause, Option.bind_some,
    List.getLast?_singleton, Option.toList_some] at h
  cases h
  rfl

theorem head_of_resolveClauses {inner : Except Fault (Option (List Node))} {clause : Clause}
    {rest : List Clause} {resolved : ResolvedClauses}
    (h : resolveClauses inner (clause :: rest) = .ok resolved) :
    ∃ body more, resolved = (clause.condition, body) :: more := by
  simp only [resolveClauses] at h
  split at h
  · obtain ⟨more, _, same⟩ := Computation.except_bind_ok_iff.mp h
    cases same
    exact ⟨_, more, rfl⟩
  · obtain ⟨body, _, h⟩ := Computation.except_bind_ok_iff.mp h
    cases body with
    | none => cases h
    | some body =>
      obtain ⟨more, _, same⟩ := Computation.except_bind_ok_iff.mp h
      cases same
      exact ⟨body, more, rfl⟩

/-- A complete chain that gives a node gives a conditional. -/
theorem isCompound_of_chain {line : LogicalLine} {clauses : List Clause} {node : Node}
    {inner : Except Fault (Option (List Node))} {resolved : ResolvedClauses}
    (read : readStatement line = .ok (.chain clauses)) (opens : expectIf clauses = .ok ())
    (h : resolveClauses inner clauses = .ok resolved) (closed : closeChain (some resolved) = [node]) :
    node.isCompound = true := by
  cases clauses with
  | nil =>
    cases h
    cases closed
  | cons first rest =>
    have isIf : first.kind = .ifClause := by
      simp only [expectIf] at opens
      split at opens
      · assumption
      · cases opens
    obtain ⟨condition, conditioned⟩ :=
      Option.isSome_iff_exists.mp (condition_of_readStatement read first rfl isIf)
    obtain ⟨body, more, rfl⟩ := head_of_resolveClauses h
    rw [conditioned] at closed
    exact closeChain_of_if closed

/-- A line without lines inside it that is read as one node, which is no conditional and no loop, is a
node of its own. -/
theorem readStatement_of_readLayout {indent : Nat} {line : LogicalLine} {node : Node}
    (h : readLayout indent none [.node line []] = .ok [node]) (plain : node.isCompound = false) :
    readStatement line = .ok (.node node) := by
  have done (chain : Option ResolvedClauses) :
      readLayout indent chain [] = .ok (closeChain chain) := by
    rw [readLayout]
  have nothing : closeChain none = [] := rfl
  rw [readLayout] at h
  split at h
  · cases h
  · simp only [List.isEmpty_nil, if_true, Option.isSome_none, Bool.false_and, Bool.false_eq_true,
      if_false, done, nothing, List.nil_append, Bool.not_false] at h
    obtain ⟨statement, read, h⟩ := Computation.except_bind_ok_iff.mp h
    cases statement with
    | chain clauses =>
      obtain ⟨_, opens, h⟩ := Computation.except_bind_ok_iff.mp h
      obtain ⟨resolved, resolves, h⟩ := Computation.except_bind_ok_iff.mp h
      -- A chain with nothing behind it is all there is, and it is folded into a conditional.
      have closed : closeChain (some resolved) = [node] := by
        split at h
        · obtain ⟨_, _, h⟩ := Computation.except_bind_ok_iff.mp h
          split at h <;> simpa [bind, Except.bind, pure, Except.pure] using h
        · split at h <;> simpa [bind, Except.bind, pure, Except.pure] using h
      rw [isCompound_of_chain read opens resolves closed] at plain
      cases plain
    | loop head body => cases body with
      | none => cases h
      | some nodes =>
        cases h
        cases plain
    | node found =>
      cases h
      exact read
    | nothing => cases h

theorem mem_of_mem_trimEnd (member : c ∈ trimEnd text) : c ∈ text := by
  have inside := List.mem_reverse.mp member
  exact List.mem_reverse.mp ((List.dropWhile_suffix isBlank).mem inside)

theorem bars_trimEnd (visible : Bars isBlank text) : Bars isBlank (trimEnd text) :=
  fun c member => visible c (mem_head?_of_trimEndOf member)

/-- Blanks at its end do not make a text end with a backslash. -/
theorem EndsPlainly.of_trimEnd (ends : EndsPlainly (trimEnd text)) : EndsPlainly text := by
  intro last
  obtain ⟨front, same⟩ := List.getLast?_eq_some_iff.mp last
  have kept : trimEnd text = text := by
    rw [same, Text.trimEnd, trimEndOf, List.reverse_concat,
      List.dropWhile_cons_of_neg (by simp [not_isBlank_backslash]), List.reverse_cons,
      List.reverse_reverse]
  rw [kept] at ends
  exact ends last

/-- A text on one line that is a template of one node, which is no conditional and no loop, stands as a
whole on its line, opens no metadata, and is that node on every line. -/
theorem of_readTemplate {node : Node} (h : readTemplate text = .ok ⟨.empty, [node]⟩)
    (single : '\n' ∉ text) (visible : Bars isBlank text) (plain : node.isCompound = false) :
    IsLine text ∧ IsBody text ∧
      ∀ line : LogicalLine, line.span.text = trimEnd text →
        readStatement line = .ok (.node node) := by
  obtain ⟨⟨metadata, start⟩, preamble, h⟩ := Computation.except_bind_ok_iff.mp h
  obtain ⟨lines, logical, h⟩ := Computation.except_bind_ok_iff.mp h
  obtain ⟨nodes, read, same⟩ := Computation.except_bind_ok_iff.mp h
  cases same
  have nonempty : text ≠ [] := by
    rintro rfl
    rw [List.drop_nil, logicalLines_nil] at logical
    cases logical
    rw [Layout.ofLines, readLayout] at read
    cases read
  obtain ⟨rfl, body⟩ := isBody_of_readPreamble preamble single visible nonempty
  have some : lines ≠ [] := by
    rintro rfl
    rw [Layout.ofLines, readLayout] at read
    cases read
  obtain ⟨rfl, audible, ends⟩ := logicalLines_of_single logical single visible some
  rw [Layout.ofLines, List.takeWhile_nil, List.dropWhile_nil, Layout.ofLines] at read
  have found := readStatement_of_readLayout read plain
  -- Behind a backslash the newline of a template would belong to the line.
  have last : EndsPlainly text := .of_trimEnd (endsPlainly_of_readStatement found (bars_trimEnd visible))
  refine ⟨⟨single, visible, audible, (reachesEnd_of_ok ends single).2 last⟩, body, ?_⟩
  intro line same
  exact readStatement_moved same.symm (fun member => single (mem_of_mem_trimEnd member)) found

theorem lead_of_word {word : List Char} (h : s.word = word)
    (lead : ∀ rest, Lead.ofText (word ++ rest) = .other) : Lead.ofText s.text = .other := by
  have split : s.word ++ s.text.dropWhile isNameChar = s.text := List.takeWhile_append_dropWhile
  rw [← split, h]
  exact lead _

/-- A line that is a node of its own continues no chain. -/
theorem continuesChain_of_readStatement {line : LogicalLine} {node : Node}
    (h : readStatement line = .ok (.node node)) (visible : Bars isBlank line.span.text) :
    continuesChain line = false := by
  have start := Span.text_trimStart_of_bars visible
  have word : line.span.word = line.span.trimStart.word := by
    rw [Span.word, Span.word, start]
  refine Bool.eq_false_iff.mpr fun continued => ?_
  simp only [continuesChain, word, Bool.or_eq_true, decide_eq_true_eq] at continued
  have other : Lead.ofText line.span.trimStart.text = .other := by
    rcases continued with same | same <;> exact lead_of_word same fun _ => rfl
  have clause : (ClauseKind.ofWord? line.span.trimStart.word).isSome = true := by
    rcases continued with same | same <;> rw [same] <;> rfl
  simp only [readStatement, other, clause, if_true] at h
  obtain ⟨⟨clauses, rest, _⟩, _, h⟩ := Computation.except_bind_ok_iff.mp h
  cases (expectEnd_ok_iff.mp h).2

/-! ### Statements on one line -/

/-- A text on one line, without a blank in front, that is a template of one node and no metadata. The
node is no conditional and no loop. -/
structure Leaf where
  text : List Char
  node : Node
  single : '\n' ∉ text
  start : ∀ c ∈ text.head?, isBlank c = false
  reads : Template.parse (.ofList text) = .ok ⟨.empty, [node]⟩
  plain : node.isCompound = false

namespace Leaf

variable (leaf : Leaf) {line : LogicalLine}

theorem stands : IsLine leaf.text ∧ IsBody leaf.text ∧ ∀ line : LogicalLine,
    line.span.text = trimEnd leaf.text → readStatement line = .ok (.node leaf.node) := by
  have reads := Computation.mapError_ok_iff.mp leaf.reads
  rw [String.toList_ofList] at reads
  exact of_readTemplate reads leaf.single leaf.start leaf.plain

theorem continues (same : line.span.text = trimEnd leaf.text) : continuesChain line = false := by
  refine continuesChain_of_readStatement (leaf.stands.2.2 line same) ?_
  rw [same]
  exact bars_trimEnd leaf.start

end Leaf

end Source

end PromptScript
