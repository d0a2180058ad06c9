import PromptScript.Proofs.Source.Alike.Layout
import PromptScript.Proofs.Source.Bytes.Locate
import PromptScript.Proofs.Source.Bytes.Preamble

/-!
Templates read by bytes. The reading gives a result for every source: each slice that it takes is there, and
no number of open brackets becomes negative. The result is the template that is read by characters, or the
same error at the same line and column.
-/
namespace PromptScript.Source.Bytes

open Text
open Command (byteLength)

/-- A line with the lines below it that are indented further. -/
inductive Block
  | node (line : Line) (inner : List Block)
deriving Repr, Inhabited

/-- Groups lines by indentation: a line is followed by the lines inside it. -/
def Block.ofLines : List Line → List Block
  | [] => []
  | line :: rest =>
    .node line (ofLines (rest.takeWhile fun other => line.indent < other.indent))
      :: ofLines (rest.dropWhile fun other => line.indent < other.indent)
termination_by lines => lines.length
decreasing_by
  · exact Nat.lt_succ_of_le (List.takeWhile_sublist _).length_le
  · exact Nat.lt_succ_of_le (List.dropWhile_sublist _).length_le

/-- Whether a line continues a chain that may be under way above it. -/
def continuesChain (source : List Char) (chain : Option ResolvedClauses) (line : Line) : Checked Bool :=
  if chain.isSome then do
    let word ← line.span.word source
    return word = elifWord || word = elseWord
  else pure false

/-- The clauses of one line, the last of which may take its body from inside the line. -/
def resolveClauses (inner : Checked (Option (List Node))) : List Clause → Checked ResolvedClauses
  | [] => return []
  | clause :: rest =>
    match clause.body with
    | some body => do
      return (clause.condition, body) :: (← resolveClauses inner rest)
    | none => do
      match ← inner with
      | some body => return (clause.condition, body) :: (← resolveClauses inner rest)
      | none => missingBody clause.opener

/-- Refuses lines inside a line that does not take them. -/
def refuseInner : List Block → Checked Unit
  | [] => return ()
  | .node line _ :: _ => fault line.span.start .unexpectedIndent

/-- The indentation that the first of some lines sets for the others. -/
def firstIndent : List Block → Nat
  | [] => 0
  | .node line _ :: _ => line.indent

/-- Refuses a clause that continues no chain. -/
def expectIf (clauses : List Clause) : Checked Unit :=
  match clauses with
  | first :: _ =>
    if first.kind = .ifClause then return ()
    else fault first.opener.offset (.orphanBranch first.kind.keyword)
  | [] => return ()

/-- The nodes of lines that must all be indented by `indent`. A chain under way is continued or closed by
the first of them. -/
def readLayout (source : List Char) (indent : Nat) (chain : Option ResolvedClauses) :
    List Block → Checked (List Node)
  | [] => return closeChain chain
  | .node line inner :: rest =>
    if line.indent ≠ indent then fault line.span.start .unexpectedIndent
    else do
      let body := if inner.isEmpty then pure none
        else some <$> readLayout source (firstIndent inner) none inner
      let continued ← continuesChain source chain line
      let closed := if continued then [] else closeChain chain
      match ← readStatement source line with
      | .chain clauses =>
        -- What continues a chain cannot open with `if`.
        if !continued then expectIf clauses
        let resolved ← resolveClauses body clauses
        -- Inner lines belong to a clause that has no body on its line.
        if clauses.all (·.body.isSome) then refuseInner inner
        let all := (if continued then chain.getD [] else []) ++ resolved
        if clauses.getLast?.any (·.kind = .elseClause) then
          return closed ++ closeChain (some all) ++ (← readLayout source indent none rest)
        else return closed ++ (← readLayout source indent (some all) rest)
      | .loop head (some nodes) =>
        refuseInner inner
        return closed ++ .loop head.var head.iterable nodes :: (← readLayout source indent none rest)
      | .loop head none =>
        match ← body with
        | some nodes =>
          return closed ++ .loop head.var head.iterable nodes :: (← readLayout source indent none rest)
        | none => missingBody head.opener
      | .node node =>
        refuseInner inner
        return closed ++ node :: (← readLayout source indent none rest)
      | .nothing =>
        refuseInner inner
        return closed ++ (← readLayout source indent none rest)
termination_by lines => sizeOf lines
decreasing_by
  all_goals
    simp only [List.cons.sizeOf_spec, Block.node.sizeOf_spec]
    omega

def readTemplate (source : List Char) : Checked Template := do
  let (metadata, start) ← readPreamble source
  let lines ← logicalLines source start
  let indent := ((lines.map (·.indent)).min?).getD 0
  return ⟨metadata, ← readLayout source indent none (Block.ofLines lines)⟩

/-- Reads the source of a template. There is no result if the reading, or the search for the place of a
fault, takes a slice that is not there or lets a number of open brackets become negative. -/
def parse (source : List Char) : Option (Except ParseError Template) := do
  match ← (readTemplate source).run with
  | .ok template => return .ok template
  | .error fault =>
    let (line, column) ← locate source fault.offset
    return .error ⟨fault.cause, line, column⟩

variable {source : List Char} {line : Line} {line' : LogicalLine} {lines : List Line}
  {lines' : List LogicalLine} {blocks inner : List Block} {layouts inner' : List Layout}

/-! ### Groups of lines -/

/-- The same lines in the same groups. -/
inductive SameLayout (source : List Char) : List Block → List Layout → Prop
  | nil : SameLayout source [] []
  | cons {line : Line} {line' : LogicalLine} {inner rest : List Block} {inner' rest' : List Layout} :
    SameLine source line line' → SameLayout source inner inner' → SameLayout source rest rest' →
    SameLayout source (.node line inner :: rest) (.node line' inner' :: rest')

theorem ofLines_same (h : List.Forall₂ (SameLine source) lines lines') :
    SameLayout source (Block.ofLines lines) (Layout.ofLines lines') := by
  induction lines using Block.ofLines.induct generalizing lines' with
  | case1 =>
    cases h
    rw [Block.ofLines, Layout.ofLines]
    exact .nil
  | case2 line rest ih ih' =>
    cases h with
    | @cons _ line' _ rest' here others =>
      rw [Block.ofLines, Layout.ofLines]
      have same (next : Line) (next' : LogicalLine) (related : SameLine source next next') :
          decide (line.indent < next.indent) = decide (line'.indent < next'.indent) := by
        rw [here.indent, related.indent]
      exact .cons here (ih (forall₂_takeWhile same others)) (ih' (forall₂_dropWhile same others))

/-! ### Reading groups of lines -/

theorem continuesChain_eq (h : SameLine source line line') (chain : Option ResolvedClauses) :
    continuesChain source chain line = pure (chain.isSome && Source.continuesChain line') := by
  rw [continuesChain, h.span.word_eq, pure_bind, Source.continuesChain]
  cases chain <;> rfl

theorem expectIf_follows {clauses clauses' : List Clause}
    (h : List.Forall₂ (SameClause source) clauses clauses') :
    Follows source Eq (expectIf clauses) (Source.expectIf clauses') := by
  cases h with
  | nil => exact .ok rfl
  | cons here _ =>
    rw [expectIf, Source.expectIf, here.kind]
    split
    · exact .ok rfl
    · exact .fault _ here.place

theorem resolveClauses_follows {reading : Checked (Option (List Node))}
    {result : Except Fault (Option (List Node))} {clauses clauses' : List Clause}
    (body : Follows source Eq reading result) (h : List.Forall₂ (SameClause source) clauses clauses') :
    Follows source Eq (resolveClauses reading clauses) (Source.resolveClauses result clauses') := by
  induction h with
  | nil => exact .ok rfl
  | @cons clause clause' rest rest' here _ ih =>
    rw [resolveClauses, Source.resolveClauses, here.body, here.condition]
    cases clause'.body with
    | some nodes => exact ih.bind fun _ _ same => .ok (by rw [same])
    | none =>
      refine body.bind fun found found' same => ?_
      subst same
      cases found with
      | none => exact missingBody_follows here.text here.place
      | some nodes => exact ih.bind fun _ _ same => .ok (by rw [same])

theorem refuseInner_follows (h : SameLayout source inner inner') :
    Follows source Eq (refuseInner inner) (Source.refuseInner inner') := by
  cases h with
  | nil => exact .ok rfl
  | cons here => exact here.span.fault _

theorem SameLayout.isEmpty (h : SameLayout source inner inner') : inner.isEmpty = inner'.isEmpty := by
  cases h <;> rfl

theorem SameLayout.firstIndent (h : SameLayout source inner inner') :
    firstIndent inner = Source.firstIndent inner' := by
  cases h with
  | nil => rfl
  | cons here => exact here.indent

/-- The nodes of lines that are read by bytes are those that are read by characters. -/
theorem readLayout_follows (h : SameLayout source blocks layouts) (indent : Nat)
    (chain : Option ResolvedClauses) :
    Follows source Eq (readLayout source indent chain blocks) (Source.readLayout indent chain layouts) := by
  induction h generalizing indent chain with
  | nil =>
    rw [readLayout, Source.readLayout]
    exact .ok rfl
  | @cons line line' inner rest inner' rest' here inside _ ihInside ihRest =>
    have body : Follows source Eq
        (if inner.isEmpty then pure none
          else some <$> readLayout source (firstIndent inner) none inner)
        (if inner'.isEmpty then .ok none
          else (Source.readLayout (Source.firstIndent inner') none inner').map some) := by
      rw [inside.isEmpty, inside.firstIndent]
      split
      · exact .ok rfl
      · exact (ihInside _ _).map fun _ _ => congrArg some
    rw [readLayout, Source.readLayout, here.indent]
    simp only [continuesChain_eq here, pure_bind]
    split
    · exact here.span.fault _
    refine (readStatement_follows here).bind fun statement statement' related => ?_
    cases related with
    | nothing =>
      refine (refuseInner_follows inside).bind fun _ _ _ => ?_
      exact (ihRest _ _).bind fun _ _ same => .ok (by rw [same])
    | node =>
      refine (refuseInner_follows inside).bind fun _ _ _ => ?_
      exact (ihRest _ _).bind fun _ _ same => .ok (by rw [same])
    | chain clauses =>
      -- The clauses have bodies on the same places, so that both readings ask the same of the inner lines.
      have alike := clauses.imp fun _ _ clause => clause.toClauseAlike
      simp only [ClauseAlike.all_body alike, ClauseAlike.last_kind alike]
      split
      case' isTrue => refine (expectIf_follows clauses).bind fun _ _ _ => ?_
      all_goals
        refine (resolveClauses_follows body clauses).bind fun resolved _ same => ?_
        subst same
        split
        case' isTrue => refine (refuseInner_follows inside).bind fun _ _ _ => ?_
        all_goals
          split
          all_goals exact (ihRest _ _).bind fun _ _ same => .ok (by rw [same])
    | loop nodes head =>
      cases nodes with
      | some nodes =>
        refine (refuseInner_follows inside).bind fun _ _ _ => ?_
        exact (ihRest _ _).bind fun _ _ same => .ok (by rw [same, head.var, head.iterable])
      | none =>
        refine body.bind fun found found' same => ?_
        subst same
        cases found with
        | none => exact missingBody_follows head.text head.place
        | some nodes =>
          exact (ihRest _ _).bind fun _ _ same => .ok (by rw [same, head.var, head.iterable])

/-! ### Templates -/

theorem SameLine.indents (h : List.Forall₂ (SameLine source) lines lines') :
    lines.map (·.indent) = lines'.map (·.indent) := by
  induction h with
  | nil => rfl
  | cons here _ ih => rw [List.map_cons, List.map_cons, here.indent, ih]

/-- The template that is read by bytes is the one that is read by characters. -/
theorem readTemplate_follows (source : List Char) :
    Follows source Eq (readTemplate source) (Source.readTemplate source) := by
  refine (readPreamble_follows source).bind ?_
  rintro ⟨metadata, start⟩ ⟨_, start'⟩ ⟨rfl, m, place, body⟩
  have lines := logicalLines_follows place
  rw [body] at lines
  refine lines.bind fun lines lines' related => ?_
  rw [SameLine.indents related]
  exact (readLayout_follows (ofLines_same related) _ _).bind fun _ _ same => .ok (by rw [same])

/-- The reading by bytes gives a result, which is that of the reading by characters. -/
theorem parse_eq (source : List Char) :
    parse source = some (located source (Source.readTemplate source)) := by
  obtain ⟨found, run, related⟩ := readTemplate_follows source
  rw [parse, run]
  generalize Source.readTemplate source = result at related
  cases related with
  | ok same =>
    subst same
    rfl
  | @error fault fault' same =>
    -- A fault is at a character, so that the search for its line does not fail either.
    simp only [Option.bind_eq_bind, Option.bind_some, same.offset, locate_byteOffset, same.cause]
    rfl

end PromptScript.Source.Bytes

namespace PromptScript

open Text
open Command (byteLength)

theorem exists_fault_of_located {α : Type} {source : List Char} {result : Except Fault α} {e : ParseError}
    (h : located source result = .error e) : ∃ fault : Fault, e = fault.locate source := by
  cases result with
  | ok => cases h
  | error fault =>
    cases h
    exact ⟨fault, rfl⟩

/-- Every source is read, by offsets in bytes, without a slice that is not there and without a negative
number of open brackets. An error is on a line of the source, in one of its columns or right behind them; and
the place of any offset between two characters is found from the newlines in front of it and the characters
behind the last of them. -/
theorem Template.parse_located (source : String) :
    Source.Bytes.parse source.toList = some (Template.parse source) ∧
      (∀ e, Template.parse source = .error e → 1 ≤ e.line ∧ 1 ≤ e.column ∧
        ∃ line, (pieces (· = '\n') source.toList)[e.line - 1]? = some line ∧ e.column ≤ line.length + 1) ∧
      ∀ before after, source.toList = before ++ after →
        Source.Bytes.locate source.toList (byteLength before) =
          some (before.count '\n' + 1, (before.reverse.takeWhile (· ≠ '\n')).length + 1) := by
  refine ⟨Source.Bytes.parse_eq source.toList, fun e failed => ?_, fun before after split => ?_⟩
  · obtain ⟨fault, rfl⟩ := exists_fault_of_located failed
    exact ⟨Nat.succ_pos _, Nat.succ_pos _, Source.Bytes.exists_line_of_locate source.toList fault.offset⟩
  · rw [split]
    exact Source.Bytes.locate_append before after

/-- Behind a character of two bytes, a directive without a meaning is found at its line and column. -/
theorem Template.parse_located_directive :
    let source := "<<é>>\n  \n@x"
    ∃ e, Template.parse source = .error e ∧ (e.line, e.column) = (3, 1) ∧
      Source.Bytes.parse source.toList = some (.error e) ∧
      Source.Bytes.locate source.toList 10 = some (e.line, e.column) := by
  intro source
  have read : (match Template.parse source with
      | .ok _ => none
      | .error e => some (e.line, e.column)) = some (3, 1) := by decide +kernel
  obtain ⟨same, -, locates⟩ := parse_located source
  cases parsed : Template.parse source with
  | ok template =>
    rw [parsed] at read
    cases read
  | error e =>
    rw [parsed] at read same
    have place := Option.some.inj read
    refine ⟨e, rfl, place, same, ?_⟩
    have found := locates "<<é>>\n  \n".toList "@x".toList (by decide)
    rw [show byteLength "<<é>>\n  \n".toList = 10 by decide] at found
    rw [found, place]
    decide

end PromptScript
