import PromptScript.Proofs.Computation
import PromptScript.Source.Template

/-!
What holds of all nodes of a template. Nodes are read from blocks, markers, directives and imports, and
they are put together to conditionals and loops; what holds of the former, and is handed on to the latter
by the nodes in their bodies, holds of every template that is read.
-/
namespace PromptScript.Source

/-- What holds of a result, if there is one. -/
def Yields {α : Type} (P : α → Prop) (result : Except Fault α) : Prop :=
  ∀ a, result = .ok a → P a

namespace Yields

variable {α β : Type} {P : α → Prop} {Q : β → Prop} {result : Except Fault α}

theorem ok {a : α} (holds : P a) : Yields P (.ok a) := by
  rintro _ ⟨⟩
  exact holds

theorem error (fault : Fault) : Yields P (.error fault) :=
  nofun

theorem bind {f : α → Except Fault β} (h : Yields P result) (next : ∀ a, P a → Yields Q (f a)) :
    Yields Q (result >>= f) := by
  intro b read
  obtain ⟨a, here, later⟩ := Computation.except_bind_ok_iff.mp read
  exact next a (h a here) b later

theorem map {f : α → β} (h : Yields P result) (next : ∀ a, P a → Q (f a)) :
    Yields Q (result.map f) := by
  intro b read
  obtain ⟨a, here, rfl⟩ := Computation.except_map_ok_iff.mp read
  exact next a (h a here)

theorem any : Yields (fun _ => True) result :=
  fun _ _ => trivial

theorem self : Yields (fun a => result = .ok a) result :=
  fun _ read => read

end Yields

/-- An expression that is read from a text. -/
def IsRead (e : Expr) : Prop :=
  ∃ s, readExpr s = .ok e

/-- A property of what nodes are read from, that is handed on to conditionals and loops by the nodes in
their bodies. -/
structure Hereditary (P : Node → Prop) : Prop where
  block {indent taken : Nat} {isInline : Bool} {s : Span} {node : Node} :
    readBlockMark indent isInline s = .ok (some node, taken) → P node
  marker {s : Span} {target : Include} {taken : Nat} :
    readInclude s = .ok (target, taken) → P (.include target)
  directive {s : Span} {node : Node} : readDirective s = .ok node → P node
  functionImport {s : Span} {node : Node} : readImport s = .ok (some node) → P node
  conditional {condition : Expr} {body : List Node} {orElse : Option (List Node)} :
    IsRead condition → (∀ node ∈ body, P node) → (∀ other ∈ orElse, ∀ node ∈ other, P node) →
      P (.conditional [(condition, body)] orElse)
  loop {s : Span} {head : LoopHead} {length : Nat} {body : List Node} :
    readLoopHead s = .ok (head, length) → (∀ node ∈ body, P node) →
      P (.loop head.var head.iterable body)

namespace Hereditary

variable {P : Node → Prop}

/-- A clause whose condition is read from a text, and of the nodes of whose body something holds, as far
as it is known. -/
structure OfClause (P : Node → Prop) (clause : Clause) : Prop where
  condition : ∀ e ∈ clause.condition, IsRead e
  body : ∀ body ∈ clause.body, ∀ node ∈ body, P node

theorem OfClause.getD {clause : Clause} (holds : OfClause P clause) :
    ∀ node ∈ clause.body.getD [], P node := by
  cases known : clause.body with
  | none => exact nofun
  | some body => exact holds.body body known

def OfChain (P : Node → Prop) (chain : ResolvedClauses) : Prop :=
  ∀ clause ∈ chain, (∀ e ∈ clause.1, IsRead e) ∧ ∀ node ∈ clause.2, P node

/-- What holds of a chain that may be under way. -/
def OfPending (P : Node → Prop) (chain : Option ResolvedClauses) : Prop :=
  OfChain P (chain.getD [])

theorem ofPending_none : OfPending P none :=
  List.forall_mem_nil _

theorem foldr_foldClause (h : Hereditary P) {chain : ResolvedClauses} (holds : OfChain P chain) :
    ∀ body ∈ chain.foldr foldClause none, ∀ node ∈ body, P node := by
  induction chain with
  | nil => nofun
  | cons clause rest ih =>
    obtain ⟨here, later⟩ := List.forall_mem_cons.mp holds
    obtain ⟨condition, body⟩ := clause
    cases condition with
    | none =>
      rintro _ ⟨⟩
      exact here.2
    | some condition =>
      rintro _ ⟨⟩ node member
      obtain rfl := List.mem_singleton.mp member
      exact h.conditional (here.1 condition rfl) here.2 (ih later)

theorem foldChain (h : Hereditary P) {chain : ResolvedClauses} (holds : OfChain P chain) :
    ∀ node ∈ (foldChain chain).toList, P node := by
  intro node member
  obtain ⟨body, folded, last⟩ := Option.bind_eq_some_iff.mp (Option.mem_toList.mp member)
  exact h.foldr_foldClause holds body folded node (List.mem_of_getLast? last)

theorem closeChain (h : Hereditary P) {chain : Option ResolvedClauses} (holds : OfPending P chain) :
    ∀ node ∈ closeChain chain, P node :=
  h.foldChain holds

/-! ### Bodies on the line of their opener -/

theorem readCondition (kind : ClauseKind) (s : Span) (colon : Nat) :
    Yields (fun condition => ∀ e ∈ condition, IsRead e) (readCondition kind s colon) := by
  unfold Source.readCondition
  split
  · split
    · exact .ok nofun
    · exact .error _
  · refine Yields.self.map fun e read => ?_
    rintro _ ⟨⟩
    exact ⟨_, read⟩

mutual

theorem readClauses (h : Hereditary P) (indent : Nat) (nested isFirst : Bool) (s : Span) :
    Yields (fun found => ∀ clause ∈ found.value, OfClause P clause)
      (readClauses indent nested isFirst s) := by
  rw [Source.readClauses.eq_def]
  split
  · exact .ok nofun
  next kind known =>
  split
  · exact .ok nofun
  refine Yields.any.bind fun colon _ => (readCondition kind _ colon).bind fun condition reads => ?_
  have shorter := length_after_lt (word_ne_nil_of_kind known) (s.word.length + colon)
  dsimp only
  split
  · split
    · exact .error _
    · exact .ok (List.forall_mem_singleton.mpr ⟨reads, nofun⟩)
  refine (readInline h _ _).bind fun ⟨nodes, rest, within⟩ holds => ?_
  have within := Span.length_trimStart_le rest
  have here (opener : Opener) : OfClause P ⟨kind, condition, some nodes, opener⟩ := by
    refine ⟨reads, ?_⟩
    rintro _ ⟨⟩
    exact holds
  dsimp only
  split
  · refine (readClauses h _ _ _ _).bind fun more others => ?_
    exact .ok (List.forall_mem_cons.mpr ⟨here _, others⟩)
  · exact .ok (List.forall_mem_cons.mpr ⟨here _, nofun⟩)
termination_by 2 * s.text.length

theorem readInline (h : Hereditary P) (indent : Nat) (s : Span) :
    Yields (fun found => ∀ node ∈ found.value, P node) (readInline indent s) := by
  unfold Source.readInline
  split
  · refine Yields.self.bind fun (found, taken) read => .ok fun node member => ?_
    obtain rfl := Option.mem_toList.mp member
    exact h.block read
  · exact Yields.self.bind fun (target, taken) read => .ok (by simpa using h.marker read)
  · refine Yields.self.bind fun node read => .ok ?_
    simpa using h.directive read
  · split
    · refine (readClauses h _ _ _ _).bind fun found clauses => .ok (h.foldChain fun clause member => ?_)
      obtain ⟨read, among, rfl⟩ := List.mem_map.mp member
      exact ⟨(clauses read among).condition, (clauses read among).getD⟩
    split
    · next word =>
      refine Yields.self.bind fun (head, length) read => ?_
      have shorter := length_after_lt (s := s) (by simp [word, forWord]) length
      dsimp only
      split
      · exact .error _
      · refine (readInline h _ _).bind fun found nodes => .ok ?_
        simpa using h.loop read nodes
    · exact .error _
termination_by 2 * s.text.length + 1

end

/-! ### Lines -/

/-- What holds of the nodes of a statement, as far as they are known. -/
def OfStatement (P : Node → Prop) : Statement → Prop
  | .node node => P node
  | .nothing => True
  | .chain clauses => ∀ clause ∈ clauses, OfClause P clause
  | .loop head body => (∃ s length, readLoopHead s = .ok (head, length)) ∧
      ∀ nodes ∈ body, ∀ node ∈ nodes, P node

theorem expectEnd {α : Type} {Q : α → Prop} {a : α} (s : Span) (holds : Q a) :
    Yields Q (expectEnd s a) := by
  unfold Source.expectEnd
  split
  · exact .ok holds
  · exact .error _

theorem readStatement (h : Hereditary P) (line : LogicalLine) : Yields (OfStatement P) (readStatement line) := by
  have ofNode (found : Option Node) (holds : ∀ node ∈ found, P node) :
      OfStatement P ((found.map Statement.node).getD .nothing) := by
    cases found with
    | none => trivial
    | some node => exact holds node rfl
  unfold Source.readStatement
  dsimp only
  split
  · refine Yields.self.bind fun (found, taken) read => expectEnd _ (ofNode found fun node known => ?_)
    cases known
    exact h.block read
  · exact Yields.self.bind fun (target, taken) read => expectEnd _ (h.marker read)
  · exact Yields.self.map fun node read => h.directive read
  · split
    · exact (h.readClauses _ _ _ _).bind fun found clauses => expectEnd _ clauses
    split
    · unfold readLoop
      refine Yields.self.bind fun (head, length) read => ?_
      dsimp only
      split
      · exact .ok ⟨⟨_, _, read⟩, nofun⟩
      · refine (h.readInline _ _).bind fun found nodes => expectEnd _ ⟨⟨_, _, read⟩, ?_⟩
        rintro _ ⟨⟩
        exact nodes
    split
    · refine Yields.self.map fun found read => ofNode found fun node known => ?_
      cases known
      exact h.functionImport read
    · exact .ok trivial

theorem resolveClauses {inner : Except Fault (Option (List Node))} {clauses : List Clause}
    (body : Yields (fun found => ∀ nodes ∈ found, ∀ node ∈ nodes, P node) inner)
    (holds : ∀ clause ∈ clauses, OfClause P clause) :
    Yields (OfChain P) (resolveClauses inner clauses) := by
  induction clauses with
  | nil => exact .ok nofun
  | cons clause rest ih =>
    obtain ⟨here, later⟩ := List.forall_mem_cons.mp holds
    unfold Source.resolveClauses
    split
    · next known =>
      have first := And.intro here.condition (here.body _ known)
      exact (ih later).bind fun others more => .ok (List.forall_mem_cons.mpr ⟨first, more⟩)
    · refine body.bind fun found nodes => ?_
      cases found with
      | none => exact .error _
      | some found =>
        have first := And.intro here.condition (nodes found rfl)
        exact (ih later).bind fun others more => .ok (List.forall_mem_cons.mpr ⟨first, more⟩)

theorem readLayout (h : Hereditary P) (indent : Nat) (chain : Option ResolvedClauses)
    (layouts : List Layout) (known : OfPending P chain) :
    Yields (fun nodes => ∀ node ∈ nodes, P node) (readLayout indent chain layouts) := by
  match layouts with
  | [] =>
    rw [Source.readLayout]
    exact .ok (h.closeChain known)
  | .node line inner :: rest =>
    have body : Yields (fun found => ∀ nodes ∈ found, ∀ node ∈ nodes, P node)
        (if inner.isEmpty then .ok none
          else (Source.readLayout (firstIndent inner) none inner).map some) := by
      split
      · exact .ok (by simp)
      · refine (readLayout h (firstIndent inner) none inner ofPending_none).map fun nodes holds => ?_
        simpa using holds
    rw [Source.readLayout]
    split
    · exact .error _
    have closed : ∀ node ∈ (if chain.isSome && continuesChain line then []
        else Source.closeChain chain), P node := by
      split
      · exact List.forall_mem_nil _
      · exact h.closeChain known
    -- A node that is complete stands behind the chain that it closes.
    have behind (node : Node) (holds : P node) :
        Yields (fun nodes => ∀ node ∈ nodes, P node)
          (do return (if chain.isSome && continuesChain line then [] else Source.closeChain chain) ++
            node :: (← Source.readLayout indent none rest)) :=
      (readLayout h indent none rest ofPending_none).bind fun nodes others =>
        .ok (List.forall_mem_append.mpr ⟨closed, List.forall_mem_cons.mpr ⟨holds, others⟩⟩)
    refine (h.readStatement line).bind fun statement stated => ?_
    cases statement with
    | nothing =>
      refine Yields.any.bind fun _ _ => ?_
      refine (readLayout h indent none rest ofPending_none).bind fun nodes others => ?_
      exact .ok (List.forall_mem_append.mpr ⟨closed, others⟩)
    | node node => exact Yields.any.bind fun _ _ => behind node stated
    | chain clauses =>
      have opened : OfChain P (if chain.isSome && continuesChain line then chain.getD [] else []) := by
        split
        · exact known
        · exact List.forall_mem_nil _
      dsimp only
      split
      case' isTrue => refine Yields.any.bind fun _ _ => ?_
      all_goals
        refine (resolveClauses body stated).bind fun resolved holds => ?_
        have all := List.forall_mem_append.mpr ⟨opened, holds⟩
        split
        case' isTrue => refine Yields.any.bind fun _ _ => ?_
        all_goals
          split
          · refine (readLayout h indent none rest ofPending_none).bind fun nodes others => .ok ?_
            have chained : ∀ node ∈ Source.closeChain (some _), P node := h.closeChain all
            exact List.forall_mem_append.mpr ⟨List.forall_mem_append.mpr ⟨closed, chained⟩, others⟩
          · exact (readLayout h indent (some _) rest all).bind fun nodes others =>
              .ok (List.forall_mem_append.mpr ⟨closed, others⟩)
    | loop head opened =>
      obtain ⟨⟨s, length, read⟩, inside⟩ := stated
      cases opened with
      | some nodes => exact Yields.any.bind fun _ _ => behind _ (h.loop read (inside nodes rfl))
      | none =>
        refine body.bind fun found nodes => ?_
        cases found with
        | none => exact .error _
        | some found => exact behind _ (h.loop read (nodes found rfl))
termination_by sizeOf layouts
decreasing_by
  all_goals
    simp only [List.cons.sizeOf_spec, Layout.node.sizeOf_spec]
    omega

/-- It holds of every node of a template. -/
theorem readTemplate (h : Hereditary P) (source : List Char) :
    Yields (fun template => ∀ node ∈ template.nodes, P node) (readTemplate source) := by
  unfold Source.readTemplate
  refine Yields.any.bind fun preamble _ => ?_
  refine Yields.any.bind fun lines _ => ?_
  exact (h.readLayout _ none _ ofPending_none).bind fun nodes holds => .ok holds

end Hereditary

end PromptScript.Source
