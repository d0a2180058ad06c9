import PromptScript.Proofs.Source.Alike.Statement

/-!
Where a statement stands. A line that is a node of its own is the same node wherever its text stands and
however far it is indented.
-/
namespace PromptScript.Source

variable {s s' : Span}

/-- An expression is the same wherever its text stands. -/
theorem readExpr_moved {e : Expr} (same : s.text = s'.text) (read : readExpr s = .ok e) :
    readExpr s' = .ok e := by
  rw [readExpr_ok_iff] at read ⊢
  rwa [← same]

theorem splitTopLevel_moved (separates : Char → Bool) (depth : Int) (quote : Option Char)
    (offset offset' : Nat) (text : List Char) :
    (splitTopLevel separates depth quote offset text).map (·.text) =
      (splitTopLevel separates depth quote offset' text).map (·.text) := by
  have parts := splitTopLevel_alike separates depth quote offset offset' text
  rw [← List.forall₂_eq_eq_eq, List.forall₂_map_left_iff, List.forall₂_map_right_iff]
  exact parts.imp fun _ _ part => part.text.symm

theorem text_filter_nonempty (spans : List Span) :
    (spans.filter fun word => !word.text.isEmpty).map (·.text) =
      (spans.map (·.text)).filter fun word => !word.isEmpty := by
  rw [List.filter_map]
  rfl

theorem Span.text_trimStart_of_bars (bars : Text.Bars Text.isBlank s.text) :
    s.trimStart.text = s.text := by
  rw [Span.text_trimStart]
  exact Text.dropWhile_of_bars bars

theorem text_afterKeyword? (s : Span) (keyword : List Char) :
    (s.afterKeyword? keyword).map (·.text) =
      if keyword.isPrefixOf s.text ∧ (s.text.drop keyword.length).head?.any Text.isBlank then
        some (Text.trimStart (s.text.drop keyword.length))
      else none := by
  rw [← Span.text_drop, ← Span.text_trimStart]
  change Option.map _ (if _ then _ else _) = _
  split <;> rfl

/-! ### Statements -/

theorem expectEnd_ok_iff {α : Type} {result a : α} :
    expectEnd s result = .ok a ↔ (Text.trimStart s.text).isEmpty = true ∧ result = a := by
  unfold expectEnd
  rw [Span.text_trimStart]
  split
  · next nothing => exact ⟨fun h => ⟨nothing, Except.ok.inj h⟩, fun h => congrArg _ h.2⟩
  · next more => exact ⟨nofun, fun h => absurd h.1 more⟩

theorem readLoop_ok {indent : Nat} {statement : Statement} (h : readLoop indent s = .ok statement) :
    ∃ head body, statement = .loop head body := by
  obtain ⟨⟨head, length⟩, _, h⟩ := Computation.except_bind_ok_iff.mp h
  simp only at h
  split at h
  · cases h
    exact ⟨head, none, rfl⟩
  · obtain ⟨⟨nodes, rest, _⟩, _, h⟩ := Computation.except_bind_ok_iff.mp h
    exact ⟨head, some nodes, (expectEnd_ok_iff.mp h).2.symm⟩

/-- What a line can say, by what it starts with. -/
inductive Says (line : LogicalLine) : Statement → Prop
  | block {found : Option Node} {taken : Nat} {statement : Statement} :
    readBlockMark line.indent false line.span.trimStart = .ok (found, taken) →
    (Text.trimStart (line.span.trimStart.text.drop taken)).isEmpty = true →
    (found.map Statement.node).getD .nothing = statement → Says line statement
  | marker {target : Include} {taken : Nat} :
    readInclude line.span.trimStart = .ok (target, taken) →
    (Text.trimStart (line.span.trimStart.text.drop taken)).isEmpty = true →
    Says line (.node (.include target))
  | directive {node : Node} : readDirective line.span.trimStart = .ok node → Says line (.node node)
  | chain {found : Read (List Clause) line.span.trimStart.text.length} :
    readClauses line.indent false true line.span.trimStart = .ok found →
    Says line (.chain found.value)
  | loop (head : LoopHead) (body : Option (List Node)) : Says line (.loop head body)
  | functionImport {found : Option Node} {statement : Statement} :
    readImport line.span.trimStart = .ok found →
    (found.map Statement.node).getD .nothing = statement → Says line statement
  | nothing : Says line .nothing

theorem says_of_readStatement {line : LogicalLine} {statement : Statement}
    (h : readStatement line = .ok statement) : Says line statement := by
  unfold readStatement at h
  simp only at h
  split at h
  · obtain ⟨⟨found, taken⟩, read, h⟩ := Computation.except_bind_ok_iff.mp h
    obtain ⟨blank, same⟩ := expectEnd_ok_iff.mp h
    exact .block read blank same
  · obtain ⟨⟨target, taken⟩, read, h⟩ := Computation.except_bind_ok_iff.mp h
    obtain ⟨blank, rfl⟩ := expectEnd_ok_iff.mp h
    exact .marker read blank
  · obtain ⟨node, read, rfl⟩ := Computation.except_map_ok_iff.mp h
    exact .directive read
  · split at h
    · obtain ⟨found, read, h⟩ := Computation.except_bind_ok_iff.mp h
      obtain ⟨-, rfl⟩ := expectEnd_ok_iff.mp h
      exact .chain read
    · split at h
      · obtain ⟨head, body, rfl⟩ := readLoop_ok h
        exact .loop head body
      · split at h
        · obtain ⟨found, read, same⟩ := Computation.except_map_ok_iff.mp h
          exact .functionImport read same
        · cases h
          exact .nothing

/-- A line that is a node of its own is that node wherever it stands, unless it goes on over several
lines. -/
theorem readStatement_moved {line line' : LogicalLine} (same : line.span.text = line'.span.text)
    (single : '\n' ∉ line.span.text) {node : Node} (h : readStatement line = .ok (.node node)) :
    readStatement line' = .ok (.node node) := by
  have remains : Remains (fun _ _ => True) .plain (line'.indent = line.indent + 0) line.span line'.span :=
    ⟨Moved.same same, .inl (.inl rfl), fun member => absurd member single⟩
  have related := readStatement_alike remains
  rw [h] at related
  generalize readStatement line' = read at related ⊢
  cases related with
  | ok related =>
    cases related
    rfl

end PromptScript.Source
