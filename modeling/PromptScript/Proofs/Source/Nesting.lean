import Mathlib
import PromptScript.Proofs.Source.Opener

/-!
Trees of statements, laid out in lines. Whatever the depths of the bodies are, parsing the lines gives
back the tree, with each chain folded into conditionals of one branch.
-/
namespace PromptScript.Source

open Text

/-! ### Trees and what they stand for -/

mutual

/-- A statement: one line, a loop, or a chain that opens with `if`. -/
inductive Tree
  | leaf (leaf : Leaf)
  | loop (head : Iteration) (body : Body)
  | chain (condition : Condition) (body : Body) (rest : Branches)

/-- One statement or more. -/
inductive Body
  | last (tree : Tree)
  | cons (tree : Tree) (body : Body)

/-- What follows the first body of a chain. -/
inductive Branches
  | done
  | orElse (body : Body)
  | elif (condition : Condition) (body : Body) (rest : Branches)

end

mutual

/-- The node of a statement. -/
def Tree.node : Tree → Node
  | .leaf leaf => leaf.node
  | .loop head body => .loop (.ofList head.var) head.expr body.nodes
  | .chain condition body rest => .conditional [(condition.expr, body.nodes)] rest.alternative

def Body.nodes : Body → List Node
  | .last tree => [tree.node]
  | .cons tree body => tree.node :: body.nodes

/-- The alternative to the body in front: an `elif` is the only node of it. -/
def Branches.alternative : Branches → Option (List Node)
  | .done => none
  | .orElse body => some body.nodes
  | .elif condition body rest =>
    some [.conditional [(condition.expr, body.nodes)] rest.alternative]

end

mutual

/-- The tree without `elif`: each is an `else` whose body is an `if`. -/
def Tree.spelled : Tree → Tree
  | .leaf leaf => .leaf leaf
  | .loop head body => .loop head body.spelled
  | .chain condition body rest => .chain condition body.spelled rest.spelled

def Body.spelled : Body → Body
  | .last tree => .last tree.spelled
  | .cons tree body => .cons tree.spelled body.spelled

def Branches.spelled : Branches → Branches
  | .done => .done
  | .orElse body => .orElse body.spelled
  | .elif condition body rest =>
    .orElse (.last (.chain condition body.spelled rest.spelled))

end

/-! ### Layouts -/

mutual

/-- Rows that lay out a statement at an indentation. Each body is indented further than its opener, by as
much as one likes. -/
def Tree.Lays (indent : Nat) : Tree → List Row → Prop
  | .leaf leaf, rows => rows = [⟨indent, leaf.text⟩]
  | .loop head body, rows => ∃ deeper inner, indent < deeper ∧ body.Lays deeper inner ∧
    rows = ⟨indent, head.line⟩ :: inner
  | .chain condition body rest, rows => ∃ deeper inner others, indent < deeper ∧
    body.Lays deeper inner ∧ rest.Lays indent others ∧
    rows = ⟨indent, condition.line .ifClause⟩ :: (inner ++ others)

/-- The statements of a body stand one below the other, all at the same indentation. -/
def Body.Lays (indent : Nat) : Body → List Row → Prop
  | .last tree, rows => tree.Lays indent rows
  | .cons tree body, rows =>
    ∃ first others, tree.Lays indent first ∧ body.Lays indent others ∧ rows = first ++ others

def Branches.Lays (indent : Nat) : Branches → List Row → Prop
  | .done, rows => rows = []
  | .orElse body, rows => ∃ deeper inner, indent < deeper ∧ body.Lays deeper inner ∧
    rows = ⟨indent, elseLine⟩ :: inner
  | .elif condition body rest, rows => ∃ deeper inner others, indent < deeper ∧
    body.Lays deeper inner ∧ rest.Lays indent others ∧
    rows = ⟨indent, condition.line .elifClause⟩ :: (inner ++ others)

end

variable {indent deeper : Nat} {tree : Tree} {body : Body} {branches : Branches}
  {rows : List Row} {row : Row}

mutual

theorem Tree.node_spelled (tree : Tree) : tree.spelled.node = tree.node := by
  cases tree with
  | leaf leaf => rfl
  | loop head body => simp only [Tree.spelled, Tree.node, body.nodes_spelled]
  | chain condition body rest =>
    simp only [Tree.spelled, Tree.node, body.nodes_spelled, rest.alternative_spelled]

theorem Body.nodes_spelled (body : Body) : body.spelled.nodes = body.nodes := by
  cases body with
  | last tree => simp only [Body.spelled, Body.nodes, tree.node_spelled]
  | cons tree body => simp only [Body.spelled, Body.nodes, tree.node_spelled, body.nodes_spelled]

theorem Branches.alternative_spelled (branches : Branches) :
    branches.spelled.alternative = branches.alternative := by
  cases branches with
  | done => rfl
  | orElse body => simp only [Branches.spelled, Branches.alternative, body.nodes_spelled]
  | elif condition body rest =>
    simp only [Branches.spelled, Branches.alternative, Body.nodes, Tree.node, body.nodes_spelled,
      rest.alternative_spelled]

end

/-! ### Rows of a layout -/

/-- Rows that stand as lines, none of them indented by less than `indent`. -/
def Fits (indent : Nat) (rows : List Row) : Prop :=
  ∀ row ∈ rows, IsLine row.content ∧ indent ≤ row.indent

theorem Fits.append {others : List Row} (h : Fits indent rows) (h' : Fits indent others) :
    Fits indent (rows ++ others) :=
  List.forall_mem_append.mpr ⟨h, h'⟩

/-- An opener in front of a body that is indented further. -/
theorem Fits.opener {content : List Char} (isLine : IsLine content) (further : indent < deeper)
    (h : Fits deeper rows) : Fits indent (⟨indent, content⟩ :: rows) :=
  List.forall_mem_cons.mpr
    ⟨⟨isLine, le_rfl⟩, fun row member => ⟨(h row member).1, further.le.trans (h row member).2⟩⟩

mutual

theorem Tree.Lays.fits (tree : Tree) {indent : Nat} {rows : List Row} (lays : tree.Lays indent rows) :
    Fits indent rows := by
  cases tree with
  | leaf leaf =>
    obtain rfl := lays
    exact List.forall_mem_singleton.mpr ⟨leaf.stands.1, le_rfl⟩
  | loop head body =>
    obtain ⟨deeper, inner, further, lays, rfl⟩ := lays
    exact .opener head.isLine further (Body.Lays.fits body lays)
  | chain condition body rest =>
    obtain ⟨deeper, inner, others, further, lays, lays', rfl⟩ := lays
    exact (Fits.opener (condition.isLine _) further (Body.Lays.fits body lays)).append
      (Branches.Lays.fits rest lays')

theorem Body.Lays.fits (body : Body) {indent : Nat} {rows : List Row} (lays : body.Lays indent rows) :
    Fits indent rows := by
  cases body with
  | last tree => exact Tree.Lays.fits tree lays
  | cons tree body =>
    obtain ⟨first, others, lays, lays', rfl⟩ := lays
    exact (Tree.Lays.fits tree lays).append (Body.Lays.fits body lays')

theorem Branches.Lays.fits (branches : Branches) {indent : Nat} {rows : List Row}
    (lays : branches.Lays indent rows) : Fits indent rows := by
  cases branches with
  | done =>
    obtain rfl := lays
    exact nofun
  | orElse body =>
    obtain ⟨deeper, inner, further, lays, rfl⟩ := lays
    exact .opener isLine_else further (Body.Lays.fits body lays)
  | elif condition body rest =>
    obtain ⟨deeper, inner, others, further, lays, lays', rfl⟩ := lays
    exact (Fits.opener (condition.isLine _) further (Body.Lays.fits body lays)).append
      (Branches.Lays.fits rest lays')

end

/-- The first row of a statement has the indentation of the statement, and opens no metadata. -/
theorem Tree.Lays.first (lays : tree.Lays indent rows) :
    ∃ row more, rows = row :: more ∧ row.indent = indent ∧ IsBody row.content := by
  cases tree with
  | leaf leaf => exact ⟨_, _, lays, rfl, leaf.stands.2.1⟩
  | loop head body =>
    obtain ⟨_, _, _, _, same⟩ := lays
    exact ⟨_, _, same, rfl, head.isBody⟩
  | chain condition body rest =>
    obtain ⟨_, _, _, _, _, _, same⟩ := lays
    exact ⟨_, _, same, rfl, condition.isBody _⟩

theorem Body.Lays.first (lays : body.Lays indent rows) :
    ∃ row more, rows = row :: more ∧ row.indent = indent ∧ IsBody row.content := by
  cases body with
  | last tree => exact Tree.Lays.first lays
  | cons tree body =>
    obtain ⟨first, others, lays, _, rfl⟩ := lays
    obtain ⟨row, more, rfl, here⟩ := Tree.Lays.first lays
    exact ⟨row, more ++ others, rfl, here⟩

theorem Branches.Lays.first (lays : branches.Lays indent rows) :
    ∀ row ∈ rows.head?, row.indent = indent := by
  rintro row member
  cases branches with
  | done =>
    obtain rfl := lays
    cases member
  | orElse body =>
    obtain ⟨_, _, _, _, rfl⟩ := lays
    cases member
    rfl
  | elif condition body rest =>
    obtain ⟨_, _, _, _, _, _, rfl⟩ := lays
    cases member
    rfl

/-! ### One line and the lines inside it -/

variable {line : LogicalLine} {lines inner tail : List LogicalLine} {chain : Option ResolvedClauses}
  {clauses : ResolvedClauses} {nodes more : List Node} {condition : Option Expr} {opener : Opener}

/-- Lines that follow a statement at an indentation: they go back to it, or further. -/
def Back (indent : Nat) (tail : List LogicalLine) : Prop :=
  ∀ line ∈ tail.head?, line.indent ≤ indent

theorem ofLines_cons (deeper : ∀ other ∈ inner, line.indent < other.indent)
    (back : Back line.indent tail) : Layout.ofLines (line :: (inner ++ tail)) =
      .node line (Layout.ofLines inner) :: Layout.ofLines tail := by
  -- The lines inside end at the first that is not indented further.
  have inside : ∀ other ∈ inner, decide (line.indent < other.indent) = true :=
    fun other member => decide_eq_true (deeper other member)
  have outside : tail.takeWhile (fun other => line.indent < other.indent) = [] ∧
      tail.dropWhile (fun other => line.indent < other.indent) = tail := by
    cases tail with
    | nil => exact ⟨rfl, rfl⟩
    | cons first others =>
      have := Nat.not_lt.mpr (back first rfl)
      simp [this]
  rw [Layout.ofLines, List.takeWhile_append_of_pos inside, List.dropWhile_append_of_pos inside,
    outside.1, outside.2, List.append_nil]

/-- What lines inside an opener are read as. There is at least one of them. -/
def Holds (inner : List Layout) (nodes : List Node) : Prop :=
  inner ≠ [] ∧ readLayout (firstIndent inner) none inner = .ok nodes

section

variable {inner rest : List Layout}

theorem readLayout_leaf {node : Node} (level : line.indent = indent)
    (starts : continuesChain line = false) (read : readStatement line = .ok (.node node))
    (later : readLayout indent none rest = .ok more) :
    readLayout indent chain (.node line [] :: rest) = .ok (closeChain chain ++ node :: more) := by
  rw [readLayout, if_neg (not_not.mpr level)]
  simp only [starts, read, Bool.and_false, bind, Except.bind, refuseInner, later]
  rfl

theorem readLayout_loop {head : LoopHead} (level : line.indent = indent)
    (starts : continuesChain line = false) (read : readStatement line = .ok (.loop head none))
    (body : Holds inner nodes) (later : readLayout indent none rest = .ok more) :
    readLayout indent chain (.node line inner :: rest) =
      .ok (closeChain chain ++ .loop head.var head.iterable nodes :: more) := by
  have some : inner.isEmpty = false := by simpa using body.1
  rw [readLayout, if_neg (not_not.mpr level)]
  simp only [starts, read, some, body.2, later, Bool.and_false, bind, Except.bind]
  rfl

/-- An `if` closes the chain in front of it and starts one of its own. -/
theorem readLayout_if (level : line.indent = indent) (starts : continuesChain line = false)
    (read : readStatement line = .ok (.chain [⟨.ifClause, condition, none, opener⟩]))
    (body : Holds inner nodes)
    (later : readLayout indent (some [(condition, nodes)]) rest = .ok more) :
    readLayout indent chain (.node line inner :: rest) = .ok (closeChain chain ++ more) := by
  have some : inner.isEmpty = false := by simpa using body.1
  have step : readLayout indent chain (.node line inner :: rest) = (do
      let more ← readLayout indent (.some [(condition, nodes)]) rest
      return closeChain chain ++ more) := by
    rw [readLayout, if_neg (not_not.mpr level)]
    simp only [starts, read, some, body.2, Bool.and_false, bind, Except.bind]
    rfl
  rw [step, later]
  rfl

/-- An `elif` goes on with the chain in front of it. -/
theorem readLayout_elif (level : line.indent = indent) (continues : continuesChain line = true)
    (read : readStatement line = .ok (.chain [⟨.elifClause, condition, none, opener⟩]))
    (body : Holds inner nodes)
    (later : readLayout indent (some (clauses ++ [(condition, nodes)])) rest = .ok more) :
    readLayout indent (some clauses) (.node line inner :: rest) = .ok more := by
  have some : inner.isEmpty = false := by simpa using body.1
  have step : readLayout indent (.some clauses) (.node line inner :: rest) = (do
      let more ← readLayout indent (.some (clauses ++ [(condition, nodes)])) rest
      return [] ++ more) := by
    rw [readLayout, if_neg (not_not.mpr level)]
    simp only [continues, read, some, body.2, Bool.and_true, bind, Except.bind]
    rfl
  rw [step, later]
  rfl

/-- An `else` ends the chain in front of it. -/
theorem readLayout_else (level : line.indent = indent) (continues : continuesChain line = true)
    (read : readStatement line = .ok (.chain [⟨.elseClause, condition, none, opener⟩]))
    (body : Holds inner nodes) (later : readLayout indent none rest = .ok more) :
    readLayout indent (some clauses) (.node line inner :: rest) =
      .ok (closeChain (some (clauses ++ [(condition, nodes)])) ++ more) := by
  have some : inner.isEmpty = false := by simpa using body.1
  rw [readLayout, if_neg (not_not.mpr level)]
  simp only [continues, read, some, body.2, later, Bool.and_true, bind, Except.bind]
  rfl

end

/-! ### Chains -/

/-- The clauses of a chain behind its first body. -/
def Branches.resolved : Branches → ResolvedClauses
  | .done => []
  | .orElse body => [(none, body.nodes)]
  | .elif condition body rest => (some condition.expr, body.nodes) :: rest.resolved

theorem foldr_resolved (branches : Branches) :
    branches.resolved.foldr foldClause none = branches.alternative := by
  match branches with
  | .done => rfl
  | .orElse body => rfl
  | .elif condition body rest =>
    rw [Branches.resolved, List.foldr_cons, foldr_resolved rest]
    rfl

theorem closeChain_resolved (condition : Condition) (body : Body) (rest : Branches) :
    closeChain (some ((some condition.expr, body.nodes) :: rest.resolved)) =
      [(Tree.chain condition body rest).node] := by
  simp only [closeChain, Option.getD_some, foldChain, List.foldr_cons, foldr_resolved]
  rfl

/-! ### Reading a layout -/

theorem Stands.split {others : List Row}
    (stand : List.Forall₂ Stands (rows ++ others) lines) :
    ∃ inner tail, lines = inner ++ tail ∧ List.Forall₂ Stands rows inner ∧
      List.Forall₂ Stands others tail := by
  induction rows generalizing lines with
  | nil => exact ⟨[], lines, rfl, .nil, stand⟩
  | cons row more ih =>
    obtain ⟨line, behind, here, later, rfl⟩ := List.forall₂_cons_left_iff.mp stand
    obtain ⟨inner, tail, rfl, front, back⟩ := ih later
    exact ⟨line :: inner, tail, rfl, .cons here front, back⟩

theorem Stands.forall_indent {deeper : Nat} (stand : List.Forall₂ Stands rows inner)
    (fits : Fits deeper rows) : ∀ other ∈ inner, deeper ≤ other.indent := by
  induction stand with
  | nil => nofun
  | cons here _ ih =>
    obtain ⟨first, others⟩ := List.forall_mem_cons.mp fits
    exact List.forall_mem_cons.mpr ⟨here.indent ▸ first.2, ih others⟩

theorem firstIndent_ofLines (line : LogicalLine) (others : List LogicalLine) :
    firstIndent (Layout.ofLines (line :: others)) = line.indent := by
  rw [Layout.ofLines]
  rfl

/-- An opener and its body are a line and the lines inside it. -/
theorem ofLines_opener (level : line.indent = indent) (further : indent < deeper)
    (lays : body.Lays deeper rows) (stand : List.Forall₂ Stands rows inner)
    (read : readLayout deeper none (Layout.ofLines inner) = .ok nodes) (back : Back indent tail) :
    Layout.ofLines (line :: (inner ++ tail)) =
        .node line (Layout.ofLines inner) :: Layout.ofLines tail ∧
      Holds (Layout.ofLines inner) nodes := by
  subst level
  have inside := Stands.forall_indent stand lays.fits
  refine ⟨ofLines_cons (fun other member => further.trans_le (inside other member)) back, ?_⟩
  obtain ⟨row, more, rfl, rfl, _⟩ := lays.first
  obtain ⟨first, others, here, _, rfl⟩ := List.forall₂_cons_left_iff.mp stand
  rw [← here.indent, ← firstIndent_ofLines first others] at read
  refine ⟨?_, read⟩
  rw [Layout.ofLines]
  exact List.cons_ne_nil _ _

theorem Back.append {others : List LogicalLine} (lays : branches.Lays indent rows)
    (stand : List.Forall₂ Stands rows others) (back : Back indent tail) :
    Back indent (others ++ tail) := by
  cases stand with
  | nil => exact back
  | cons here _ =>
    rintro _ ⟨⟩
    exact (here.indent.trans (lays.first _ rfl)).le

theorem Back.of_body (lays : body.Lays indent rows) (stand : List.Forall₂ Stands rows lines) :
    Back indent lines := by
  obtain ⟨row, more, rfl, rfl, _⟩ := lays.first
  obtain ⟨first, others, here, _, rfl⟩ := List.forall₂_cons_left_iff.mp stand
  rintro _ ⟨⟩
  exact here.indent.le

/-- An opener with a body and branches behind it, as the lines that stand for its rows. -/
theorem exists_opener {content : List Char} {within others : List Row} (further : indent < deeper)
    (lays : body.Lays deeper within) (lays' : branches.Lays indent others)
    (stand : List.Forall₂ Stands (⟨indent, content⟩ :: (within ++ others)) lines)
    (read : ∀ inner, List.Forall₂ Stands within inner →
      readLayout deeper none (Layout.ofLines inner) = .ok nodes)
    (back : Back indent tail) :
    ∃ line inner outer, Stands ⟨indent, content⟩ line ∧ List.Forall₂ Stands others outer ∧
      Holds inner nodes ∧
        Layout.ofLines (lines ++ tail) = .node line inner :: Layout.ofLines (outer ++ tail) := by
  obtain ⟨line, below, here, stand', rfl⟩ := List.forall₂_cons_left_iff.mp stand
  obtain ⟨inner, outer, rfl, inside, behind⟩ := Stands.split stand'
  obtain ⟨shape, holds⟩ :=
    ofLines_opener here.indent further lays inside (read inner inside) (back.append lays' behind)
  rw [List.cons_append, List.append_assoc]
  exact ⟨line, _, outer, here, behind, holds, shape⟩

/-- What follows a statement: it is read as some nodes, and leaves a chain in front of it as it is. -/
def Follows (indent : Nat) (tail : List LogicalLine) (nodes : List Node) : Prop :=
  Back indent tail ∧
    ∀ chain, readLayout indent chain (Layout.ofLines tail) = .ok (closeChain chain ++ nodes)

theorem Follows.nil (indent : Nat) : Follows indent [] [] := by
  refine ⟨nofun, fun chain => ?_⟩
  rw [Layout.ofLines, readLayout, List.append_nil]

-- The three inductions are on the tree. A chain in front stays open until a line does not continue it, so
-- what follows is taken with any chain in front, and so is the statement.

mutual

/-- The lines of a statement are read as its node, in front of what follows. -/
theorem Tree.Lays.read (tree : Tree) {indent : Nat} {rows : List Row} (lays : tree.Lays indent rows)
    {lines tail : List LogicalLine} (stand : List.Forall₂ Stands rows lines) {nodes : List Node}
    (follows : Follows indent tail nodes) (chain : Option ResolvedClauses) :
    readLayout indent chain (Layout.ofLines (lines ++ tail)) =
      .ok (closeChain chain ++ tree.node :: nodes) := by
  obtain ⟨back, later⟩ := follows
  cases tree with
  | leaf leaf =>
    obtain rfl := lays
    obtain ⟨line, _, here, nothing, rfl⟩ := List.forall₂_cons_left_iff.mp stand
    cases nothing
    have level : line.indent = indent := here.indent
    have statement := leaf.stands.2.2 line here.text
    have shape : Layout.ofLines (line :: ([] ++ tail)) = .node line [] :: Layout.ofLines tail := by
      rw [ofLines_cons (List.forall_mem_nil _) (level.symm ▸ back), Layout.ofLines]
    rw [List.cons_append, shape]
    exact readLayout_leaf level (leaf.continues here.text) statement (later none)
  | loop head body =>
    obtain ⟨deeper, inner, further, lays, rfl⟩ := lays
    obtain ⟨line, inside, here, within, rfl⟩ := List.forall₂_cons_left_iff.mp stand
    have read := Body.Lays.read body lays within none
    obtain ⟨shape, holds⟩ := ofLines_opener here.indent further lays within read back
    obtain ⟨opener, statement⟩ := head.read here.text
    rw [List.cons_append, shape]
    exact readLayout_loop here.indent (head.continues here.text) statement holds (later none)
  | chain condition body rest =>
    obtain ⟨deeper, inner, others, further, lays, lays', rfl⟩ := lays
    have read (inner : List LogicalLine) (stand : List.Forall₂ Stands _ inner) :=
      Body.Lays.read body lays stand none
    obtain ⟨line, inside, outside, here, behind, holds, shape⟩ :=
      exists_opener further lays lays' stand read back
    obtain ⟨opener, statement⟩ := condition.read here.text nofun
    have starts := condition.continues here.text
    -- The chain that the branches go on with is the first clause alone.
    have whole := Branches.Lays.read rest lays' behind ⟨back, later⟩
      [(some condition.expr, body.nodes)]
    rw [shape]
    rw [List.singleton_append, closeChain_resolved, List.singleton_append] at whole
    exact readLayout_if here.indent starts statement holds whole

/-- The lines of a body are read as its nodes: each statement is what follows the one above. -/
theorem Body.Lays.read (body : Body) {indent : Nat} {rows : List Row} (lays : body.Lays indent rows)
    {lines : List LogicalLine} (stand : List.Forall₂ Stands rows lines)
    (chain : Option ResolvedClauses) :
    readLayout indent chain (Layout.ofLines lines) = .ok (closeChain chain ++ body.nodes) := by
  cases body with
  | last tree =>
    have read := Tree.Lays.read tree lays stand (.nil indent) chain
    rwa [List.append_nil] at read
  | cons tree body =>
    obtain ⟨first, others, lays, lays', rfl⟩ := lays
    obtain ⟨here, below, rfl, front, behind⟩ := Stands.split stand
    have read := Body.Lays.read body lays' behind
    exact Tree.Lays.read tree lays front ⟨.of_body lays' behind, read⟩ chain

/-- The lines of branches are read as clauses of the chain in front. -/
theorem Branches.Lays.read (branches : Branches) {indent : Nat} {rows : List Row}
    (lays : branches.Lays indent rows) {lines tail : List LogicalLine}
    (stand : List.Forall₂ Stands rows lines) {nodes : List Node}
    (follows : Follows indent tail nodes) (clauses : ResolvedClauses) :
    readLayout indent (some clauses) (Layout.ofLines (lines ++ tail)) =
      .ok (closeChain (some (clauses ++ branches.resolved)) ++ nodes) := by
  obtain ⟨back, later⟩ := follows
  cases branches with
  | done =>
    obtain rfl := lays
    cases stand
    rw [Branches.resolved, List.append_nil]
    exact later (some clauses)
  | orElse body =>
    obtain ⟨deeper, inner, further, lays, rfl⟩ := lays
    obtain ⟨line, inside, here, within, rfl⟩ := List.forall₂_cons_left_iff.mp stand
    have read := Body.Lays.read body lays within none
    obtain ⟨shape, holds⟩ := ofLines_opener here.indent further lays within read back
    obtain ⟨opener, statement⟩ := read_else here.text
    rw [List.cons_append, shape]
    -- Behind `else` no chain is open any more.
    exact readLayout_else here.indent (continues_else here.text) statement holds (later none)
  | elif condition body rest =>
    obtain ⟨deeper, inner, others, further, lays, lays', rfl⟩ := lays
    have read (inner : List LogicalLine) (stand : List.Forall₂ Stands _ inner) :=
      Body.Lays.read body lays stand none
    obtain ⟨line, inside, outside, here, behind, holds, shape⟩ :=
      exists_opener further lays lays' stand read back
    obtain ⟨opener, statement⟩ := condition.read here.text nofun
    have continues := condition.continues here.text
    have whole := Branches.Lays.read rest lays' behind ⟨back, later⟩
      (clauses ++ [(some condition.expr, body.nodes)])
    rw [shape]
    rw [List.append_assoc] at whole
    exact readLayout_elif here.indent continues statement holds whole

end

/-! ### Whole templates -/

variable {text : List Char}

theorem not_isBlankLine {content blanks : List Char} (isLine : IsLine content) :
    isBlankLine ⟨0, blanks ++ content⟩ = false := by
  obtain ⟨c, more, rfl⟩ := List.exists_cons_of_ne_nil isLine.ne_nil
  have member : c ∈ trim (blanks ++ c :: more) :=
    mem_trim (List.mem_append_right blanks List.mem_cons_self) (isLine.start c rfl)
  simpa [isBlankLine] using List.ne_nil_of_mem member

/-- Rows of which the first opens no metadata are all body. -/
theorem readPreamble_written {first : Row} {more : List Row} (written : Written (first :: more) text)
    (isLine : IsLine first.content) (body : IsBody first.content) :
    readPreamble text = .ok (.empty, 0) := by
  have front (blanks tail : List Char) (indents : ∀ c ∈ blanks, isIndent c = true)
      (ends : EndsLine tail) : readPreamble (blanks ++ first.content ++ tail) = .ok (.empty, 0) := by
    have single : '\n' ∉ blanks ++ first.content := by
      rw [List.mem_append, not_or]
      exact ⟨fun member => absurd (indents '\n' member) (by decide), isLine.single⟩
    exact readPreamble_append single ends (not_isBlankLine isLine) (body.indented indents)
  cases written with
  | @last _ blanks indents _ =>
    have whole := front blanks [] indents nofun
    rwa [List.append_nil] at whole
  | @cons _ blanks text _ indents _ _ =>
    have whole := front blanks ('\n' :: text) indents (.newline text)
    rwa [List.append_assoc] at whole

theorem min_indent {first : LogicalLine} {others : List LogicalLine}
    (least : ∀ line ∈ first :: others, first.indent ≤ line.indent) :
    ((first :: others).map (·.indent)).min? = some first.indent := by
  refine List.min?_eq_some_iff.mpr ⟨List.mem_cons_self, fun n member => ?_⟩
  obtain ⟨line, inside, rfl⟩ := List.mem_map.mp member
  exact least line inside

theorem readTemplate_of_lays (lays : body.Lays indent rows) (written : Written rows text) :
    readTemplate text = .ok ⟨.empty, body.nodes⟩ := by
  have fits := Body.Lays.fits body lays
  obtain ⟨lines, logical, stand⟩ := written.readsAs (fun row member => (fits row member).1) 0
  have read := Body.Lays.read body lays stand none
  have deep := Stands.forall_indent stand fits
  -- The first row has the least indentation, and with it that of all statements of the template.
  obtain ⟨first, more, rfl, rfl, isBody⟩ := lays.first
  obtain ⟨line, others, here, _, rfl⟩ := List.forall₂_cons_left_iff.mp stand
  rw [← here.indent] at read deep
  have preamble := readPreamble_written written (fits first List.mem_cons_self).1 isBody
  simp only [readTemplate, preamble, List.drop_zero, logical, min_indent deep, Option.getD_some, read,
    bind, Except.bind]
  rfl

end PromptScript.Source

namespace PromptScript

open Source

/-- A tree of statements that is laid out in lines is what the lines are parsed as, with each `elif` as
the only node of the alternative in front of it. In particular it makes no difference whether an `elif` is
written as such, or as an `else` with an `if` inside. -/
theorem Template.parse_layout (body : Body) {indent : Nat} {rows : List Row} {text : List Char}
    (lays : body.Lays indent rows) (written : Written rows text) :
    Template.parse (.ofList text) = .ok ⟨.empty, body.nodes⟩ ∧
      ∀ (other : Body) (indent' : Nat) (rows' : List Row) (text' : List Char),
        other.spelled = body.spelled → other.Lays indent' rows' → Written rows' text' →
          Template.parse (.ofList text') = Template.parse (.ofList text) := by
  have parsed {body : Body} {indent : Nat} {rows : List Row} {text : List Char}
      (lays : body.Lays indent rows) (written : Written rows text) :
      Template.parse (.ofList text) = .ok ⟨.empty, body.nodes⟩ := by
    refine Computation.mapError_ok_iff.mpr ?_
    rw [String.toList_ofList]
    exact readTemplate_of_lays lays written
  refine ⟨parsed lays written, fun other indent' rows' text' same lays' written' => ?_⟩
  rw [parsed lays written, parsed lays' written', ← body.nodes_spelled, ← same, other.nodes_spelled]

theorem Template.parse_block : Template.parse (.ofList ['<', '<', 'a', '>', '>']) =
    .ok ⟨.empty, [.block [.text "a\n"]]⟩ := by
  with_unfolding_all rfl

theorem Expr.parse_name : Expr.parse (.ofList ['x']) = .ok (.path ⟨"x", []⟩) := by
  with_unfolding_all rfl

/-- A chain inside a loop, once with an `elif` and once without. -/
theorem Template.parse_layout_elif :
    let block : Node := .block [.text "a\n"]
    let path : Expr := .path ⟨"x", []⟩
    let text := "for n in x:\n  if x:\n    <<a>>\n  elif x:\n\t<<a>>"
    Template.parse text = .ok ⟨.empty, [.loop "n" path
        [.conditional [(path, [block])] (some [.conditional [(path, [block])] none])]]⟩ ∧
      Template.parse "for n in x:\n if x:\n  <<a>>\n else:\n   if x:\n    <<a>>\n" =
        Template.parse text := by
  intro block path text
  let leaf : Leaf :=
    ⟨['<', '<', 'a', '>', '>'], block, by decide, Text.bars_cons (by decide), parse_block, rfl⟩
  let x : Condition := ⟨['x'], path, by decide, Expr.parse_name⟩
  let head : Iteration := ⟨['n'], ['x'], path, by decide +kernel, by decide, Expr.parse_name, rfl⟩
  let body : Body := .last (.leaf leaf)
  let tree : Body := .last (.loop head (.last (.chain x body (.elif x body .done))))
  let other : Body :=
    .last (.loop head (.last (.chain x body (.orElse (.last (.chain x body .done))))))
  have lays : tree.Lays 0 [⟨0, head.line⟩, ⟨2, x.line .ifClause⟩, ⟨4, leaf.text⟩,
      ⟨2, x.line .elifClause⟩, ⟨4, leaf.text⟩] :=
    ⟨2, _, by decide, ⟨4, [_], [_, _], by decide, rfl, ⟨4, [_], [], by decide, rfl, rfl, rfl⟩, rfl⟩,
      rfl⟩
  have written :=
    @Written.cons ⟨0, head.line⟩ [] _ _ (List.forall_mem_nil _) rfl <|
      @Written.cons ⟨2, x.line .ifClause⟩ [' ', ' '] _ _ (by simp [isIndent]) rfl <|
        @Written.cons ⟨4, leaf.text⟩ [' ', ' ', ' ', ' '] _ _ (by simp [isIndent]) rfl <|
          @Written.cons ⟨2, x.line .elifClause⟩ [' ', ' '] _ _ (by simp [isIndent]) rfl <|
            @Written.last ⟨4, leaf.text⟩ ['\t'] (by simp [isIndent]) rfl
  have lays' : other.Lays 0 [⟨0, head.line⟩, ⟨1, x.line .ifClause⟩, ⟨2, leaf.text⟩, ⟨1, elseLine⟩,
      ⟨3, x.line .ifClause⟩, ⟨4, leaf.text⟩] :=
    ⟨1, _, by decide, ⟨2, [_], [_, _, _], by decide, rfl,
      ⟨3, [_, _], by decide, ⟨4, [_], [], by decide, rfl, rfl, rfl⟩, rfl⟩, rfl⟩, rfl⟩
  have written' :=
    @Written.cons ⟨0, head.line⟩ [] _ _ (List.forall_mem_nil _) rfl <|
      @Written.cons ⟨1, x.line .ifClause⟩ [' '] _ _ (by simp [isIndent]) rfl <|
        @Written.cons ⟨2, leaf.text⟩ [' ', ' '] _ _ (by simp [isIndent]) rfl <|
          @Written.cons ⟨1, elseLine⟩ [' '] _ _ (by simp [isIndent]) rfl <|
            @Written.cons ⟨3, x.line .ifClause⟩ [' ', ' ', ' '] _ _ (by simp [isIndent]) rfl <|
              @Written.cons ⟨4, leaf.text⟩ [' ', ' ', ' ', ' '] _ _ (by simp [isIndent]) rfl .nil
  obtain ⟨parsed, same⟩ := Template.parse_layout tree lays written
  exact ⟨parsed, same other 0 _ _ rfl lays' written'⟩

end PromptScript
