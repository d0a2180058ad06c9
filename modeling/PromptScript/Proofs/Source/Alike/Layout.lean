import PromptScript.Proofs.Source.Alike.Statement

/-!
Lines that are nested in the same way. How lines are grouped depends only on which of two lines is
indented further, so that every strictly increasing change of the indentation keeps it.
-/
namespace PromptScript.Source

open Text

variable {R : Nat → Nat → Prop} {b : Break} {f : Nat → Nat} {lines lines' : List LogicalLine}
  {line line' : LogicalLine} {layouts layouts' inner inner' : List Layout}

/-- The same line elsewhere, with its indentation changed. If the line goes on over a newline, the change is
the margin of the lines in it. -/
structure LineAlike (R : Nat → Nat → Prop) (b : Break) (f : Nat → Nat) (line line' : LogicalLine) :
    Prop where
  indent : line'.indent = f line.indent
  span : Remains R b (line'.indent = line.indent + b.margin) line.span line'.span

/-- The same lines in the same groups. -/
inductive Reshaped (R : Nat → Nat → Prop) (b : Break) (f : Nat → Nat) :
    List Layout → List Layout → Prop
  | nil : Reshaped R b f [] []
  | cons {line line' : LogicalLine} {inner inner' rest rest' : List Layout} :
    LineAlike R b f line line' → Reshaped R b f inner inner' → Reshaped R b f rest rest' →
    Reshaped R b f (.node line inner :: rest) (.node line' inner' :: rest')

/-! ### Groups of lines -/

theorem LineAlike.indented {first first' : LogicalLine} (mono : StrictMono f)
    (h : LineAlike R b f first first') (h' : LineAlike R b f line line') :
    decide (first.indent < line.indent) = decide (first'.indent < line'.indent) := by
  rw [h.indent, h'.indent, decide_eq_decide]
  exact mono.lt_iff_lt.symm

theorem ofLines_reshaped (mono : StrictMono f) (h : List.Forall₂ (LineAlike R b f) lines lines') :
    Reshaped R b f (Layout.ofLines lines) (Layout.ofLines lines') := by
  induction lines using Layout.ofLines.induct generalizing lines' with
  | case1 =>
    cases h
    rw [Layout.ofLines]
    exact .nil
  | case2 line rest ih ih' =>
    cases h with
    | cons here others =>
      rw [Layout.ofLines, Layout.ofLines]
      have same (next next' : LogicalLine) (related : LineAlike R b f next next') :=
        here.indented mono related
      exact .cons here (ih (forall₂_takeWhile same others)) (ih' (forall₂_dropWhile same others))

/-! ### Reading groups of lines -/

theorem expectIf_alike {clauses clauses' : List Clause}
    (h : List.Forall₂ (ClauseAlike R) clauses clauses') :
    Alike R Eq (expectIf clauses) (expectIf clauses') := by
  cases h with
  | nil => exact .ok rfl
  | cons here _ =>
    simp only [expectIf, ← here.kind]
    split
    · exact .ok rfl
    · exact .error ⟨rfl, here.place⟩

theorem resolveClauses_alike {result result' : Except Fault (Option (List Node))}
    {clauses clauses' : List Clause} (body : Alike R Eq result result')
    (h : List.Forall₂ (ClauseAlike R) clauses clauses') :
    Alike R Eq (resolveClauses result clauses) (resolveClauses result' clauses') := by
  induction h with
  | nil => exact .ok rfl
  | @cons clause clause' rest rest' here _ ih =>
    unfold resolveClauses
    rw [← here.body, ← here.condition]
    split
    · exact ih.bind fun _ _ same => .ok (by rw [same])
    · refine body.bind fun found found' same => ?_
      subst same
      cases found with
      | none => exact .error ⟨rfl, here.place⟩
      | some nodes => exact ih.bind fun _ _ same => .ok (by rw [same])

theorem refuseInner_alike (h : Reshaped R b f inner inner') :
    Alike R Eq (refuseInner inner) (refuseInner inner') := by
  cases h with
  | nil => exact .ok rfl
  | cons here => exact here.span.fault rfl

theorem Reshaped.isEmpty (h : Reshaped R b f inner inner') : inner.isEmpty = inner'.isEmpty := by
  cases h <;> rfl

theorem Reshaped.firstIndent (h : Reshaped R b f inner inner') (nonempty : inner ≠ []) :
    firstIndent inner' = f (firstIndent inner) := by
  cases h with
  | nil => exact absurd rfl nonempty
  | cons here => exact here.indent

theorem ClauseAlike.all_body {clauses clauses' : List Clause}
    (h : List.Forall₂ (ClauseAlike R) clauses clauses') :
    clauses.all (·.body.isSome) = clauses'.all (·.body.isSome) := by
  induction h with
  | nil => rfl
  | cons here _ ih => rw [List.all_cons, List.all_cons, here.body, ih]

theorem ClauseAlike.last_kind {clauses clauses' : List Clause}
    (h : List.Forall₂ (ClauseAlike R) clauses clauses') :
    clauses.getLast?.any (·.kind = .elseClause) = clauses'.getLast?.any (·.kind = .elseClause) := by
  induction h with
  | nil => rfl
  | cons here others ih =>
    cases others with
    | nil => simp [here.kind]
    | cons => rwa [List.getLast?_cons_cons, List.getLast?_cons_cons]

theorem readLayout_alike (mono : StrictMono f) (h : Reshaped R b f layouts layouts') (indent : Nat)
    (chain : Option ResolvedClauses) :
    Alike R Eq (readLayout indent chain layouts) (readLayout (f indent) chain layouts') := by
  induction h generalizing indent chain with
  | nil =>
    rw [readLayout, readLayout]
    exact .ok rfl
  | @cons line line' inner inner' rest rest' here inside others ihInside ihRest =>
    have indents : line'.indent ≠ f indent ↔ line.indent ≠ indent := by
      rw [here.indent, mono.injective.ne_iff]
    have continues : continuesChain line' = continuesChain line := by
      rw [continuesChain, continuesChain, here.span.word]
    have body : Alike R Eq
        (if inner.isEmpty then .ok none else (readLayout (firstIndent inner) none inner).map some)
        (if inner'.isEmpty then .ok none else (readLayout (firstIndent inner') none inner').map some) := by
      rw [← inside.isEmpty]
      split
      · exact .ok rfl
      · next nonempty =>
        rw [inside.firstIndent (mt List.isEmpty_iff.mpr nonempty)]
        exact (ihInside _ _).map fun _ _ => congrArg some
    rw [readLayout, readLayout]
    simp only [indents, continues]
    split
    · exact here.span.fault rfl
    refine (readStatement_alike here.span).bind fun statement statement' related => ?_
    cases related with
    | nothing =>
      refine (refuseInner_alike inside).bind fun _ _ _ => ?_
      exact (ihRest _ _).bind fun _ _ same => .ok (by rw [same])
    | node =>
      refine (refuseInner_alike inside).bind fun _ _ _ => ?_
      exact (ihRest _ _).bind fun _ _ same => .ok (by rw [same])
    | chain clauses =>
      simp only [← ClauseAlike.all_body clauses, ← ClauseAlike.last_kind clauses]
      split
      case' isTrue => refine (expectIf_alike clauses).bind fun _ _ _ => ?_
      all_goals
        refine (resolveClauses_alike body clauses).bind fun resolved _ same => ?_
        subst same
        split
        case' isTrue => refine (refuseInner_alike inside).bind fun _ _ _ => ?_
        all_goals
          split
          all_goals exact (ihRest _ _).bind fun _ _ same => .ok (by rw [same])
    | loop nodes head =>
      cases nodes with
      | some nodes =>
        refine (refuseInner_alike inside).bind fun _ _ _ => ?_
        exact (ihRest _ _).bind fun _ _ same => .ok (by rw [same, head.var, head.iterable])
      | none =>
        refine body.bind fun found found' same => ?_
        subst same
        cases found with
        | none => exact .error ⟨rfl, head.place⟩
        | some nodes =>
          exact (ihRest _ _).bind fun _ _ same => .ok (by rw [same, head.var, head.iterable])

end PromptScript.Source
