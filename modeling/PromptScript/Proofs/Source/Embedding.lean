import PromptScript.Proofs.Source.Directive

/-!
Expressions inside of statements. An expression on one line is read as it is by itself where it is a
condition, what a loop goes over, or the value of an assignment.
-/
namespace PromptScript

namespace Source

open Text

variable {text rest tail name value inner : List Char} {e : Expr} {s : Span} {nodes : List Node}

/-! ### Assignments -/

def stateWord : List Char := ['s', 't', 'a', 't', 'e']

/-- The line `@state name = value`. -/
def stateLine (name value : List Char) : List Char :=
  '@' :: (stateWord ++ ' ' :: (name ++ ' ' :: '=' :: ' ' :: value))

theorem isAlpha_of_mem_stateWord : ∀ c ∈ stateWord, c.isAlpha = true :=
  List.all_eq_true.mp (by decide)

theorem stateParts?_line (named : leadingName? name = some name) (nonempty : trimStart value ≠ [])
    (single : '\n' ∉ value) (start : Nat) : ∃ found, stateParts? ⟨start, stateLine name value⟩ =
      some (name, found) ∧ found.text = trimStart value := by
  have keyword : (⟨start, stateLine name value⟩ : Span).afterKeyword? ['@', 's', 't', 'a', 't', 'e'] =
      some ⟨start + 6 + 1, name ++ ' ' :: '=' :: ' ' :: value⟩ :=
    Span.afterKeyword?_append (bars_name named _) start
  have first : leadingName? (name ++ ' ' :: '=' :: ' ' :: value) = some name :=
    leadingName?_append named (bars_cons not_isWordChar_space)
  have behind (start : Nat) : (⟨start, ' ' :: '=' :: ' ' :: value⟩ : Span).trimStart =
      ⟨start + 1, '=' :: ' ' :: value⟩ := Span.trimStart_space (bars_cons (by decide)) start
  have last (start : Nat) :
      ((⟨start, '=' :: ' ' :: value⟩ : Span).drop 1).trimStart.text = trimStart value := by
    rw [Span.text_trimStart, Span.text_drop, List.drop_one, List.tail_cons, trimStart,
      List.dropWhile_cons_of_pos (by decide), trimStart]
  have oneLine : isOneLine (trimStart value) = true := by
    have inside : '\n' ∉ trimStart value := fun member =>
      single ((List.dropWhile_suffix isBlank).mem member)
    simp [isOneLine, nonempty, inside]
  refine ⟨_, ?_, last (start + 6 + 1 + name.length + 1)⟩
  simp only [stateParts?, keyword, Option.bind_eq_bind, Option.bind_some, first, Span.drop_append,
    behind, List.head?_cons, last, oneLine, if_true]

theorem readDirective_state (named : leadingName? name = some name) (single : '\n' ∉ value)
    (read : ∀ start, readExpr ⟨start, trimStart value⟩ = .ok e) (start : Nat) :
    readDirective ⟨start, stateLine name value⟩ = .ok (.stateAssign (.ofList name) e) := by
  have nonempty : trimStart value ≠ [] := fun nothing => readExpr_nil (nothing ▸ read 0)
  obtain ⟨⟨place, _⟩, parts, rfl⟩ := stateParts?_line named nonempty single start
  have isState : stateWord = ['s', 't', 'a', 't', 'e'] := rfl
  rw [readDirective, stateLine, word_directive isAlpha_of_mem_stateWord, if_pos isState, ← stateLine,
    parts]
  simp only [read]
  rfl

/-- The blanks at the end of an assignment are those behind its value. -/
theorem trimEnd_stateLine (visible : trimEnd value ≠ []) :
    trimEnd (stateLine name value) = stateLine name (trimEnd value) := by
  have split (value : List Char) : stateLine name value =
      ('@' :: (stateWord ++ ' ' :: (name ++ [' ', '=', ' ']))) ++ value := by
    simp [stateLine]
  rw [split, split, trimEnd_append, if_neg (by simpa using visible)]

theorem isLine_state (named : leadingName? name = some name) (single : '\n' ∉ text)
    (read : readExpr ⟨0, text⟩ = .ok e) : IsLine (stateLine name text) := by
  have word : ∀ c ∈ name, isInert c = true :=
    fun c member => isInert_of_isWordChar (isWordChar_of_mem_name named c member)
  have front : GoesOn ('@' :: (stateWord ++ [' '])) := .of_forall (List.all_eq_true.mp (by decide))
  have between : GoesOn [' ', '=', ' '] := .of_forall (List.all_eq_true.mp (by decide))
  have whole : GoesOn (stateLine name text) := by
    have parts := front.append ((GoesOn.of_forall word).append
      (between.append (lineLength_expr read single)))
    simpa [stateLine] using parts
  have noNewline : '\n' ∉ stateLine name text := by
    simp [stateLine, stateWord, not_mem_of_inert word, single]
  have nonempty : text ≠ [] := by
    rintro rfl
    exact readExpr_nil read
  have suffix : text <:+ stateLine name text :=
    ⟨'@' :: (stateWord ++ ' ' :: (name ++ [' ', '=', ' '])), by simp [stateLine]⟩
  have last : EndsPlainly (stateLine name text) :=
    .of_suffix suffix nonempty (endsPlainly_of_readExpr read)
  exact whole.isLine noNewline (bars_cons (by decide)) (List.cons_ne_nil _ _) nofun last

/-- An assignment is a template by itself. -/
theorem readTemplate_state (named : leadingName? name = some name) (single : '\n' ∉ text)
    (read : readExpr ⟨0, text⟩ = .ok e) :
    readTemplate (stateLine name text) = .ok ⟨.empty, [.stateAssign (.ofList name) e]⟩ := by
  have trimmed := readExpr_trimmed read
  have visible : trimEnd text ≠ [] := by
    intro nothing
    rw [nothing] at trimmed
    exact readExpr_nil (trimmed 0)
  have single' : '\n' ∉ trimEnd text := fun member => single (mem_of_mem_trimEnd member)
  refine readTemplate_of_statement (isLine_state named single read)
    (isBody_directive isAlpha_of_mem_stateWord _) fun line same => ?_
  rw [trimEnd_stateLine visible] at same
  rw [readStatement_directive same, ← stateLine, readDirective_state named single' trimmed]
  rfl

/-! ### Bodies -/

/-- At an offset, a text holds the body of an opener: there are lines in it, each of them is indented, and
they are read as some nodes. -/
def HoldsBody (start : Nat) (inner : List Char) (nodes : List Node) : Prop :=
  ∃ lines, logicalLines ⟨start, inner⟩ = .ok lines ∧ lines ≠ [] ∧ (∀ line ∈ lines, 0 < line.indent) ∧
    readLayout (firstIndent (Layout.ofLines lines)) none (Layout.ofLines lines) = .ok nodes

/-- What is laid out at some indentation is a body wherever it stands. -/
theorem Body.Lays.holdsBody {body : Body} {indent : Nat} {rows : List Row} (lays : body.Lays indent rows)
    (deeper : 0 < indent) (written : Written rows inner) (start : Nat) :
    HoldsBody start inner body.nodes := by
  have fits := Body.Lays.fits body lays
  obtain ⟨lines, logical, stand⟩ := written.readsAs (fun row member => (fits row member).1) start
  have read := Body.Lays.read body lays stand none
  have deep := Stands.forall_indent stand fits
  obtain ⟨first, more, rfl, rfl, _⟩ := lays.first
  obtain ⟨line, others, here, _, rfl⟩ := List.forall₂_cons_left_iff.mp stand
  refine ⟨_, logical, List.cons_ne_nil line others, fun other member => ?_, ?_⟩
  · exact deeper.trans_le (deep other member)
  · rw [firstIndent_ofLines, here.indent]
    exact read

theorem holds_ofLines {lines : List LogicalLine} (nonempty : lines ≠ [])
    (read : readLayout (firstIndent (Layout.ofLines lines)) none (Layout.ofLines lines) = .ok nodes) :
    Holds (Layout.ofLines lines) nodes := by
  obtain ⟨line, others, rfl⟩ := List.exists_cons_of_ne_nil nonempty
  refine ⟨?_, read⟩
  rw [Layout.ofLines]
  exact List.cons_ne_nil _ _

/-- An opener at the start of a line, with its body in front of more lines. -/
theorem ofLines_body (start : Nat) (content : List Char) {lines tail : List LogicalLine}
    (deeper : ∀ line ∈ lines, 0 < line.indent) (back : Back 0 tail) :
    Layout.ofLines (.atMargin start content :: (lines ++ tail)) =
      .node (.atMargin start content) (Layout.ofLines lines) :: Layout.ofLines tail :=
  ofLines_cons deeper back

theorem ofLines_last (start : Nat) (content : List Char) {lines : List LogicalLine}
    (deeper : ∀ line ∈ lines, 0 < line.indent) :
    Layout.ofLines (.atMargin start content :: lines) =
      [.node (.atMargin start content) (Layout.ofLines lines)] := by
  have layout := ofLines_body start content deeper (nofun : Back 0 [])
  rwa [List.append_nil, Layout.ofLines] at layout

theorem readLayout_done (chain : Option ResolvedClauses) :
    readLayout 0 chain [] = .ok (closeChain chain) := by
  rw [readLayout]

/-! ### Conditions -/

theorem readTemplate_if (condition : Condition)
    (body : HoldsBody ((condition.line .ifClause).length + 1) inner nodes) :
    readTemplate (condition.line .ifClause ++ '\n' :: inner) =
      .ok ⟨.empty, [.conditional [(condition.expr, nodes)] none]⟩ := by
  obtain ⟨lines, logical, nonempty, deeper, read⟩ := body
  refine readTemplate_of_first (condition.isLine _) (condition.isBody _) (.newline inner) logical ?_
  have text : (LogicalLine.atMargin 0 (condition.line .ifClause)).span.text =
      trimEnd (condition.line .ifClause) := rfl
  obtain ⟨opener, statement⟩ := condition.read text (by decide)
  rw [ofLines_last 0 _ deeper]
  exact readLayout_if rfl (condition.continues text) statement (holds_ofLines nonempty read)
    (readLayout_done _)

/-- The lines above an `elif` are those of the first body. A backslash at the end of that body could take
the newline in front of the `elif` into a string that is open there. -/
theorem readTemplate_elif (first condition : Condition) {inner' : List Char} {nodes' : List Node}
    (body : HoldsBody ((first.line .ifClause).length + 1) inner nodes) (last : EndsPlainly inner)
    (body' : HoldsBody ((first.line .ifClause).length + 1 + (inner.length + 1) +
      ((condition.line .elifClause).length + 1)) inner' nodes') :
    readTemplate (first.line .ifClause ++ '\n' ::
        (inner ++ '\n' :: (condition.line .elifClause ++ '\n' :: inner'))) =
      .ok ⟨.empty, [.conditional [(first.expr, nodes)]
        (some [.conditional [(condition.expr, nodes')] none])]⟩ := by
  obtain ⟨lines, logical, nonempty, deeper, read⟩ := body
  obtain ⟨lines', logical', nonempty', deeper', read'⟩ := body'
  let place := (first.line .ifClause).length + 1 + (inner.length + 1)
  have below := logicalLines_atMargin (condition.isLine .elifClause) (.newline inner') place
  rw [List.drop_one, List.tail_cons, logical'] at below
  have behind := logicalLines_append last logical (condition.line .elifClause ++ '\n' :: inner')
  rw [below] at behind
  refine readTemplate_of_first (first.isLine _) (first.isBody _) (.newline _) behind ?_
  have back : Back 0 (.atMargin place (condition.line .elifClause) :: lines') := by
    rintro _ ⟨⟩
    exact le_rfl
  have text : (LogicalLine.atMargin 0 (first.line .ifClause)).span.text =
      trimEnd (first.line .ifClause) := rfl
  have text' : (LogicalLine.atMargin place (condition.line .elifClause)).span.text =
      trimEnd (condition.line .elifClause) := rfl
  obtain ⟨opener, statement⟩ := first.read text (by decide)
  obtain ⟨opener', statement'⟩ := condition.read text' (by decide)
  -- What stands behind the `elif` ends the chain, of which the first clause is already known.
  have later : readLayout 0 (some [(some first.expr, nodes)])
      [.node (.atMargin place (condition.line .elifClause)) (Layout.ofLines lines')] = .ok _ :=
    readLayout_elif rfl (condition.continues text') statement' (holds_ofLines nonempty' read')
      (readLayout_done _)
  rw [ofLines_body 0 _ deeper back, ofLines_last place _ deeper']
  exact readLayout_if rfl (first.continues text) statement (holds_ofLines nonempty read) later

/-! ### Loops -/

theorem readTemplate_loop (head : Iteration) (body : HoldsBody (head.line.length + 1) inner nodes) :
    readTemplate (head.line ++ '\n' :: inner) =
      .ok ⟨.empty, [.loop (.ofList head.var) head.expr nodes]⟩ := by
  obtain ⟨lines, logical, nonempty, deeper, read⟩ := body
  refine readTemplate_of_first head.isLine head.isBody (.newline inner) logical ?_
  have text : (LogicalLine.atMargin 0 head.line).span.text = trimEnd head.line := rfl
  obtain ⟨opener, statement⟩ := head.read text
  rw [ofLines_last 0 _ deeper]
  exact readLayout_loop rfl (head.continues text) statement (holds_ofLines nonempty read)
    (readLayout_done none)

end Source

open Source

theorem Template.parse_assignment {x s : String} {e : Expr} (named : leadingName? x.toList = some x.toList)
    (single : '\n' ∉ s.toList) (read : Expr.parse s = .ok e) :
    Template.parse ("@state " ++ x ++ " = " ++ s) = .ok ⟨.empty, [.stateAssign x e]⟩ := by
  have state := readTemplate_state named single (Computation.mapError_ok_iff.mp read)
  rw [String.ofList_toList] at state
  refine (parse_ok_iff ?_).mpr state
  simp [stateLine, stateWord]

/-- An expression on one line is read in a statement as it is read by itself: as the condition of an `if`
or an `elif`, as the value of an assignment, and as what a loop goes over. Neither the search for the
colon of an opener nor the one for the end of the line stops inside of it. -/
theorem Template.parse_around_expr {s : String} {e : Expr} (read : Expr.parse s = .ok e)
    (single : '\n' ∉ s.toList) :
    (∀ rest, colonIndex 0 none (s.toList ++ ':' :: rest) = some s.toList.length) ∧
    (∀ offset rest, lineLength .code offset (s.toList ++ rest) =
      (lineLength .code (offset + s.toList.length) rest).map (· + s.toList.length)) ∧
    (∀ (inner : String) (nodes : List Node),
      HoldsBody ("if " ++ s ++ ":\n").length inner.toList nodes →
      Template.parse ("if " ++ s ++ ":\n" ++ inner) =
        .ok ⟨.empty, [.conditional [(e, nodes)] none]⟩) ∧
    (∀ (first inner inner' : String) (condition : Expr) (nodes nodes' : List Node),
      Expr.parse first = .ok condition → '\n' ∉ first.toList →
      HoldsBody ("if " ++ first ++ ":\n").length inner.toList nodes → EndsPlainly inner.toList →
      HoldsBody ("if " ++ first ++ ":\n" ++ inner ++ "\nelif " ++ s ++ ":\n").length inner'.toList
        nodes' →
      Template.parse ("if " ++ first ++ ":\n" ++ inner ++ "\nelif " ++ s ++ ":\n" ++ inner') =
        .ok ⟨.empty, [.conditional [(condition, nodes)] (some [.conditional [(e, nodes')] none])]⟩) ∧
    (∀ x : String, leadingName? x.toList = some x.toList →
      Template.parse ("@state " ++ x ++ " = " ++ s) = .ok ⟨.empty, [.stateAssign x e]⟩) ∧
    (e.isIterable = true → ∀ (var inner : String) (nodes : List Node), isIdentifier var.toList = true →
      HoldsBody ("for " ++ var ++ " in " ++ s ++ ":\n").length inner.toList nodes →
      Template.parse ("for " ++ var ++ " in " ++ s ++ ":\n" ++ inner) =
        .ok ⟨.empty, [.loop var e nodes]⟩) := by
  have expr : readExpr ⟨0, s.toList⟩ = .ok e := Computation.mapError_ok_iff.mp read
  let condition : Condition := ⟨s.toList, e, single, by rwa [String.ofList_toList]⟩
  refine ⟨colonIndex_expr expr, lineLength_expr expr single, fun inner nodes body => ?_,
    fun first inner inner' other nodes nodes' read' single' body last body' => ?_,
    fun x named => parse_assignment named single read,
    fun iterable var inner nodes identifier body => ?_⟩
  · have length : ("if " ++ s ++ ":\n").length = (condition.line .ifClause).length + 1 := by
      simp [condition, Condition.line, ClauseKind.word, ifWord, ← String.length_toList]
    rw [length] at body
    refine (parse_ok_iff ?_).mpr (readTemplate_if condition body)
    simp [condition, Condition.line, ClauseKind.word, ifWord]
  · let start : Condition := ⟨first.toList, other, single', by rwa [String.ofList_toList]⟩
    have length : ("if " ++ first ++ ":\n").length = (start.line .ifClause).length + 1 := by
      simp [start, Condition.line, ClauseKind.word, ifWord, ← String.length_toList]
    have length' : ("if " ++ first ++ ":\n" ++ inner ++ "\nelif " ++ s ++ ":\n").length =
        (start.line .ifClause).length + 1 + (inner.toList.length + 1) +
          ((condition.line .elifClause).length + 1) := by
      simp [start, condition, Condition.line, ClauseKind.word, ifWord, elifWord,
        ← String.length_toList]
      omega
    rw [length] at body
    rw [length'] at body'
    refine (parse_ok_iff ?_).mpr (readTemplate_elif start condition body last body')
    simp [start, condition, Condition.line, ClauseKind.word, ifWord, elifWord]
  · let head : Iteration :=
      ⟨var.toList, s.toList, e, identifier, single, by rwa [String.ofList_toList], iterable⟩
    have length : ("for " ++ var ++ " in " ++ s ++ ":\n").length = head.line.length + 1 := by
      simp [head, Iteration.line, forWord, inWord, ← String.length_toList]
      omega
    rw [length] at body
    have loop := readTemplate_loop head body
    rw [String.ofList_toList] at loop
    refine (parse_ok_iff ?_).mpr loop
    simp [head, Iteration.line, forWord, inWord]

set_option maxRecDepth 20000 in
theorem Expr.parse_comparison : Expr.parse "x == \"<<:\\\"\"" =
    .ok (.compare .eq (.path ⟨"x", []⟩) (.literal (.str "<<:\""))) := by
  with_unfolding_all rfl

/-- A comparison with a string that holds an opening mark, a colon and an escaped quote. -/
theorem Template.parse_around_comparison :
    let s := "x == \"<<:\\\"\""
    let test : Expr := .compare .eq (.path ⟨"x", []⟩) (.literal (.str "<<:\""))
    let block : Node := .block [.text "a\n"]
    Template.parse ("if " ++ s ++ ":\n" ++ "  <<a>>") =
      .ok ⟨.empty, [.conditional [(test, [block])] none]⟩ ∧
    Template.parse ("if " ++ s ++ ":\n" ++ "  <<a>>" ++ "\nelif " ++ s ++ ":\n" ++ "  <<a>>") =
      .ok ⟨.empty, [.conditional [(test, [block])] (some [.conditional [(test, [block])] none])]⟩ ∧
    Template.parse ("@state " ++ "y" ++ " = " ++ s) = .ok ⟨.empty, [.stateAssign "y" test]⟩ ∧
    Template.parse ("for " ++ "n" ++ " in " ++ .ofList ['x'] ++ ":\n" ++ "  <<a>>") =
      .ok ⟨.empty, [.loop "n" (.path ⟨"x", []⟩) [block]]⟩ := by
  intro s test block
  let leaf : Leaf :=
    ⟨['<', '<', 'a', '>', '>'], block, by decide, Text.bars_cons (by decide), parse_block, rfl⟩
  have lays : (Body.last (.leaf leaf)).Lays 2 [⟨2, leaf.text⟩] := rfl
  have written : Written [⟨2, leaf.text⟩] "  <<a>>".toList :=
    @Written.last ⟨2, leaf.text⟩ [' ', ' '] (by simp [isIndent]) rfl
  have body (start : Nat) : HoldsBody start "  <<a>>".toList [block] :=
    lays.holdsBody (by decide) written start
  obtain ⟨_, _, ifs, elifs, states, _⟩ :=
    Template.parse_around_expr Expr.parse_comparison (by decide)
  obtain ⟨_, _, _, _, _, loops⟩ := Template.parse_around_expr Expr.parse_name (by decide)
  exact ⟨ifs _ _ (body _),
    elifs _ _ _ _ _ _ Expr.parse_comparison (by decide) (body _) (.of_not_mem (by decide)) (body _),
    states "y" (by decide +kernel), loops rfl "n" _ _ (by decide +kernel) (body _)⟩

end PromptScript
