import PromptScript.Proofs.Source.Name
import PromptScript.Proofs.Source.Segment

/-!
Templates as they are read. What the later stages rely on without a check holds of every node, at any depth:
conditionals have one branch, loops go over paths and ranges, prose stands in blocks and nowhere else, and
all paths are those of their texts.
-/
namespace PromptScript

open Source Text

/-- A path that its text is read as. -/
structure VarPath.WellFormed (path : VarPath) : Prop where
  read : ofText? path.text.toList = some path
  root : isIdentifier path.root.toList = true

/-- An expression with well-formed paths. A range with a step has a start. -/
inductive Expr.WellFormed : Expr → Prop
  | literal (value : Value) : WellFormed (.literal value)
  | path {path : VarPath} : path.WellFormed → WellFormed (.path path)
  | compare {op : CompareOp} {lhs rhs : Expr} :
    WellFormed lhs → WellFormed rhs → WellFormed (.compare op lhs rhs)
  | membership {negated : Bool} {needle haystack : Expr} :
    WellFormed needle → WellFormed haystack → WellFormed (.membership negated needle haystack)
  | not {operand : Expr} : WellFormed operand → WellFormed (.not operand)
  | and {lhs rhs : Expr} : WellFormed lhs → WellFormed rhs → WellFormed (.and lhs rhs)
  | or {lhs rhs : Expr} : WellFormed lhs → WellFormed rhs → WellFormed (.or lhs rhs)
  | rangeTo {stop : Expr} : WellFormed stop → WellFormed (.range none stop none)
  | range {start stop : Expr} {step : Option Expr} :
    WellFormed start → WellFormed stop → (∀ e ∈ step, WellFormed e) →
      WellFormed (.range (some start) stop step)

structure Include.WellFormed (target : Include) : Prop where
  path : ∀ path, target.path = .dynamic path → path.WellFormed
  bindings : ∀ binding ∈ target.bindings,
    isIdentifier binding.1.toList = true ∧ binding.2.WellFormed

def Effect.WellFormed : Effect → Prop
  | .call _ args _ => ∀ e ∈ args, e.WellFormed
  | .registerTools names => ∀ name ∈ names, isIdentifier name.toList = true
  | .run | .clearContext | .clearTools => True

def Node.isText : Node → Bool
  | .text _ => true
  | _ => false

/-- What a block holds: a text that is not empty, or an interpolation. -/
inductive Node.IsPiece : Node → Prop
  | text {text : String} : text ≠ "" → IsPiece (.text text)
  | interpolation {path : VarPath} : path.WellFormed → IsPiece (.interpolation path)

/-- Pieces of which no text is next to another. -/
structure ArePieces (body : List Node) : Prop where
  each : ∀ node ∈ body, node.IsPiece
  apart : body.IsChain fun node next => ¬(node.isText = true ∧ next.isText = true)

/-- A node as it stands in a template, with all nodes inside. Texts and interpolations are none: they stand in
blocks only. -/
inductive Node.WellFormed : Node → Prop
  | conditional {condition : Expr} {body : List Node} {orElse : Option (List Node)} :
    condition.WellFormed → (∀ node ∈ body, WellFormed node) →
      (∀ other ∈ orElse, ∀ node ∈ other, WellFormed node) →
      WellFormed (.conditional [(condition, body)] orElse)
  | loop {var : String} {iterable : Expr} {body : List Node} :
    isIdentifier var.toList = true → iterable.isIterable = true → iterable.WellFormed →
      (∀ node ∈ body, WellFormed node) → WellFormed (.loop var iterable body)
  | include {target : Include} : target.WellFormed → WellFormed (.include target)
  /-- A line `from module import names`. -/
  | fromImport {line : Span} {module words : List Char} {names : List String} :
    fromParts? line = some (module, words) → (∀ name ∈ names, isIdentifier name.toList = true) →
      WellFormed (.functionImport names (.ofList module))
  /-- A line `import module`: the last part of the module is imported. -/
  | plainImport {line : Span} {module name : List Char} :
    fromParts? line = none → (pieces (· = '.') module).getLast? = some name →
      WellFormed (.functionImport [.ofList name] (.ofList module))
  | effect {effect : Effect} : effect.WellFormed → WellFormed (.effect effect)
  | stateAssign {name : String} {value : Expr} :
    value.WellFormed → WellFormed (.stateAssign name value)
  | block {body : List Node} : body ≠ [] → ArePieces body → WellFormed (.block body)

variable {text : List Char} {s : Span} {e : Expr} {node : Node}

/-! ### Expressions -/

theorem VarPath.isValid_of_ofText? {path : VarPath} (h : ofText? text = some path) :
    path.isValid = true := by
  unfold ofText? at h
  split at h
  · split at h
    · next valid =>
      cases h
      rw [Bool.and_eq_true] at valid
      simpa [isValid, List.all_map, Function.comp_def] using valid
    · cases h
  · cases h

theorem VarPath.wellFormed_of_ofText? {path : VarPath} (h : ofText? text = some path) :
    path.WellFormed := by
  have valid := isValid_of_ofText? h
  refine ⟨ofText?_text valid, ?_⟩
  rw [isValid, Bool.and_eq_true] at valid
  exact valid.1

/-- What the grammar derives is well formed. -/
theorem Source.Derives.wellFormed {level : Level} {ts : List Token} (derived : Derives level ts e) :
    e.WellFormed := by
  induction derived with
  | conjunction _ ih | negation _ ih | comparison _ ih | operand _ ih | parentheses _ ih => exact ih
  | or _ _ lhs rhs => exact .or lhs rhs
  | and _ _ lhs rhs => exact .and lhs rhs
  | not _ operand => exact .not operand
  | compare _ _ lhs rhs => exact .compare lhs rhs
  | member _ _ needle haystack | notMember _ _ needle haystack => exact .membership needle haystack
  | literal => exact .literal _
  | path _ read => exact .path (VarPath.wellFormed_of_ofText? read)
  | rangeTo _ stop => exact .rangeTo stop
  | rangeFrom _ _ start stop => exact .range start stop nofun
  | rangeBy _ _ _ start stop step =>
    refine .range start stop ?_
    rintro _ ⟨⟩
    exact step

theorem Source.IsRead.wellFormed (h : IsRead e) : e.WellFormed := by
  obtain ⟨s, read⟩ := h
  obtain ⟨ts, _, derived⟩ := readExpr_ok_iff.mp read
  exact derived.wellFormed

namespace Source

/-! ### Blocks -/

theorem arePieces_flush (pending : List Char) : ArePieces (flush pending) := by
  unfold flush
  split
  · exact ⟨List.forall_mem_nil _, .nil⟩
  · next nonempty =>
    exact ⟨List.forall_mem_singleton.mpr (.text (by simpa using nonempty)), .singleton _⟩

/-- An interpolation parts the text that is pending from what comes behind it. -/
theorem arePieces_flush_interpolation {path : VarPath} {more : List Node} (pending : List Char)
    (formed : path.WellFormed) (pieces : ArePieces more) :
    ArePieces (flush pending ++ .interpolation path :: more) := by
  -- An interpolation is no text, whatever follows it.
  have behind : ArePieces (.interpolation path :: more) :=
    ⟨List.forall_mem_cons.mpr ⟨.interpolation formed, pieces.each⟩,
      List.isChain_cons.mpr ⟨fun _ _ both => Bool.false_ne_true both.1, pieces.apart⟩⟩
  refine ⟨List.forall_mem_append.mpr ⟨(arePieces_flush pending).each, behind.each⟩, ?_⟩
  refine List.isChain_append.mpr ⟨(arePieces_flush pending).apart, behind.apart, ?_⟩
  rintro _ _ _ ⟨⟩ ⟨_, second⟩
  cases second

theorem arePieces_of_interpolate {pending : List Char} {chars : List LocatedChar} {nodes : List Node}
    (h : interpolate pending chars = .ok nodes) : ArePieces nodes := by
  fun_induction interpolate pending chars generalizing nodes with
  | case1 pending =>
    cases h
    exact arePieces_flush pending
  | case2 _ _ _ _ _ ih | case6 _ _ _ _ _ ih | case7 _ _ _ _ _ ih => exact ih h
  | case3 | case5 => cases h
  | case4 pending _ _ _ _ _ _ read =>
    rename_i ih
    obtain ⟨more, later, same⟩ := Computation.except_bind_ok_iff.mp h
    cases same
    exact arePieces_flush_interpolation pending (VarPath.wellFormed_of_ofText? read) (ih later)

/-- No character is lost without a trace. -/
theorem ne_nil_of_interpolate {pending : List Char} {chars : List LocatedChar} {nodes : List Node}
    (h : interpolate pending chars = .ok nodes) (nonempty : pending ≠ [] ∨ chars ≠ []) : nodes ≠ [] := by
  -- A character that is passed over is pending, and what is pending is written out.
  fun_induction interpolate pending chars generalizing nodes with
  | case1 pending =>
    cases h
    simpa [flush] using nonempty
  | case2 _ _ _ _ _ ih | case6 _ _ _ _ _ ih | case7 _ _ _ _ _ ih =>
    exact ih h (.inl (List.cons_ne_nil _ _))
  | case3 | case5 => cases h
  | case4 =>
    obtain ⟨more, _, same⟩ := Computation.except_bind_ok_iff.mp h
    cases same
    simp

theorem wellFormed_of_readBlockMark {indent taken : Nat} {isInline : Bool}
    (h : readBlockMark indent isInline s = .ok (some node, taken)) : node.WellFormed := by
  unfold readBlockMark at h
  split at h
  · cases h
  · obtain ⟨found, read, same⟩ := Computation.except_bind_ok_iff.mp h
    cases same
    simp only [readTextBlock] at read
    generalize (if isInline then _ else _) = chars at read
    split at read
    · cases read
    · next nonempty =>
      obtain ⟨nodes, split, same⟩ := Computation.except_map_ok_iff.mp read
      cases same
      have some : chars ≠ [] := by simpa using nonempty
      exact .block (ne_nil_of_interpolate split (.inr some)) (arePieces_of_interpolate split)

/-! ### Includes -/

theorem wellFormed_of_readIncludePath {path : IncludePath} (h : readIncludePath s = .ok path)
    {place : VarPath} (dynamic : path = .dynamic place) : place.WellFormed := by
  subst dynamic
  unfold readIncludePath at h
  split at h
  · split at h
    · dsimp only at h
      split at h
      · next read =>
        cases h
        exact VarPath.wellFormed_of_ofText? read
      · cases h
    · cases h
  · cases h

theorem wellFormed_of_readBinding {binding : String × Expr} (h : readBinding s = .ok binding) :
    isIdentifier binding.1.toList = true ∧ binding.2.WellFormed := by
  unfold readBinding at h
  split at h
  · split at h
    · next valid =>
      obtain ⟨value, read, same⟩ := Computation.except_bind_ok_iff.mp h
      cases same
      rw [String.toList_ofList]
      exact ⟨valid.1, IsRead.wellFormed ⟨_, read⟩⟩
    · cases h
  · cases h

/-- What holds of everything that is read holds of all results of reading a list. -/
theorem forall_of_mapM {α β : Type} {read : α → Except Fault β} {p : β → Prop}
    (each : ∀ {a b}, read a = .ok b → p b) {items : List α} {results : List β}
    (h : items.mapM read = .ok results) : ∀ b ∈ results, p b := by
  have reads := mapM_ok_iff_forall₂.mp h
  clear h
  induction reads with
  | nil => exact List.forall_mem_nil _
  | cons here _ ih => exact List.forall_mem_cons.mpr ⟨each here, ih⟩

theorem wellFormed_of_readInclude {target : Include} {taken : Nat}
    (h : readInclude s = .ok (target, taken)) : target.WellFormed := by
  unfold readInclude at h
  split at h
  · cases h
  obtain ⟨found, read, same⟩ := Computation.except_bind_ok_iff.mp h
  cases same
  unfold readIncludeWords at read
  split at read
  · cases read
  obtain ⟨path, first, read⟩ := Computation.except_bind_ok_iff.mp read
  obtain ⟨bindings, others, same⟩ := Computation.except_bind_ok_iff.mp read
  cases same
  exact ⟨fun place dynamic => wellFormed_of_readIncludePath first dynamic,
    forall_of_mapM wellFormed_of_readBinding others⟩

/-! ### Directives and imports -/

theorem wellFormed_of_readArguments {args : List Expr} (h : readArguments s = .ok args) :
    ∀ e ∈ args, e.WellFormed := by
  unfold readArguments at h
  split at h
  · cases h
    exact List.forall_mem_nil _
  · exact forall_of_mapM (fun read => IsRead.wellFormed ⟨_, read⟩) h

theorem wellFormed_of_readEffect {effect : Effect} (h : readEffect s = .ok effect) :
    effect.WellFormed := by
  have named := wellNamed_of_readEffect h
  cases effect with
  | run | clearContext | clearTools => exact True.intro
  | registerTools => exact named
  | call name args target =>
    unfold readEffect at h
    simp only at h
    split at h
    · cases h
    split at h
    · cases h
    split at h
    · next clear =>
      -- What is cleared is no call.
      cases h
      simp only [clearEffect?, Option.bind_eq_bind, Option.bind_eq_some_iff] at clear
      obtain ⟨_, _, clear⟩ := clear
      split_ifs at clear <;> cases clear
    split at h
    · obtain ⟨found, read, same⟩ := Computation.except_bind_ok_iff.mp h
      cases same
      exact wellFormed_of_readArguments read
    split at h
    · cases h
    · cases h

theorem wellFormed_of_readDirective (h : readDirective s = .ok node) : node.WellFormed := by
  unfold readDirective at h
  simp only at h
  split at h
  · split at h
    · obtain ⟨e, read, same⟩ := Computation.except_bind_ok_iff.mp h
      cases same
      exact .stateAssign (IsRead.wellFormed ⟨_, read⟩)
    · cases h
  · split at h
    · obtain ⟨effect, read, same⟩ := Computation.except_bind_ok_iff.mp h
      cases same
      exact .effect (wellFormed_of_readEffect read)
    · cases h

/-- The names behind `import` on a line that starts with `from` are identifiers. -/
theorem exists_of_fromParts? {module words : List Char} (parts : fromParts? s = some (module, words))
    (h : readImport s = .ok (some node)) : ∃ names, node = .functionImport names (.ofList module) ∧
      ∀ name ∈ names, isIdentifier name.toList = true := by
  unfold readImport at h
  rw [parts] at h
  dsimp only at h
  split at h
  · next read =>
    cases h
    exact ⟨_, rfl, isIdentifier_of_readNames? read⟩
  · cases h

theorem wellFormed_of_readImport (h : readImport s = .ok (some node)) : node.WellFormed := by
  cases parts : fromParts? s with
  | some found =>
    obtain ⟨names, rfl, identifiers⟩ := exists_of_fromParts? parts h
    exact .fromImport parts identifiers
  | none =>
    unfold readImport at h
    rw [parts] at h
    obtain ⟨module, _, found⟩ := Option.bind_eq_some_iff.mp (Except.ok.inj h)
    obtain ⟨name, last, same⟩ := Option.bind_eq_some_iff.mp found
    cases same
    exact .plainImport parts last

/-! ### Templates -/

theorem wellFormed_of_readLoopHead {head : LoopHead} {length : Nat}
    (h : readLoopHead s = .ok (head, length)) :
    head.iterable.isIterable = true ∧ head.iterable.WellFormed := by
  unfold readLoopHead at h
  simp only at h
  split at h
  · cases h
  split at h
  · cases h
  obtain ⟨colon, _, h⟩ := Computation.except_bind_ok_iff.mp h
  obtain ⟨iterable, read, h⟩ := Computation.except_bind_ok_iff.mp h
  have formed : iterable.WellFormed := IsRead.wellFormed ⟨_, read⟩
  split at h
  · cases h
    exact ⟨rfl, formed⟩
  · cases h
    exact ⟨rfl, formed⟩
  · cases h

theorem hereditary_wellFormed : Hereditary Node.WellFormed where
  block := wellFormed_of_readBlockMark
  marker read := .include (wellFormed_of_readInclude read)
  directive := wellFormed_of_readDirective
  functionImport := wellFormed_of_readImport
  conditional read inside otherwise := .conditional read.wellFormed inside otherwise
  loop read inside :=
    have iterable := wellFormed_of_readLoopHead read
    .loop (isIdentifier_of_readLoopHead read) iterable.1 iterable.2 inside

end Source

/-- Every node of a template is well formed, at any depth, and a line that starts with `from` imports
identifiers. -/
theorem Template.parse_wellFormed {source : String} {template : Template}
    (h : Template.parse source = .ok template) :
    (∀ node ∈ template.nodes, node.WellFormed) ∧
    ∀ (line : Span) (module words : List Char) (node : Node),
      fromParts? line = some (module, words) → readImport line = .ok (some node) →
        ∃ names, node = .functionImport names (.ofList module) ∧
          ∀ name ∈ names, isIdentifier name.toList = true :=
  ⟨hereditary_wellFormed.readTemplate source.toList template (Computation.mapError_ok_iff.mp h),
    fun _ _ _ _ => exists_of_fromParts?⟩

/-- A loop over a range, a chain with an include and a block with an interpolation, an import, and tools. -/
theorem Template.parse_wellFormed_loop :
    let source := "for i in range(2, n.k):\n  if i in xs: <<$\x7bi\x7d: $$\x7b>>\n  else: [[ t a=i ]]\n" ++
      "from m import f, g\n@effect tools f, g"
    ∃ template, Template.parse source = .ok template ∧ template.nodes.length = 3 ∧
      ∀ node ∈ template.nodes, node.WellFormed := by
  intro source
  have read : (Template.parse source).toOption.map (·.nodes.length) = some 3 := by decide +kernel
  cases parsed : Template.parse source with
  | error e =>
    rw [parsed] at read
    cases read
  | ok template =>
    rw [parsed] at read
    exact ⟨template, rfl, Option.some.inj read, (parse_wellFormed parsed).1⟩

end PromptScript
