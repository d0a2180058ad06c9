import PromptScript.Source.Preamble
import PromptScript.Source.Statement

/-!
Templates from their source: a preamble, then statements nested by indentation.
-/
namespace PromptScript.Source

/-- Whether a line continues a chain above it. -/
def continuesChain (line : LogicalLine) : Bool :=
  line.span.word = elifWord || line.span.word = elseWord

/-- Clauses of a chain whose bodies are known, in order. -/
abbrev ResolvedClauses := List (Option Expr × List Node)

/-- The nodes of a chain that may be under way. -/
def closeChain (chain : Option ResolvedClauses) : List Node :=
  ((chain.getD []) |> foldChain).toList

/-- The clauses of one line, the last of which may take its body from inside the line. -/
def resolveClauses (inner : Except Fault (Option (List Node))) :
    List Clause → Except Fault ResolvedClauses
  | [] => .ok []
  | clause :: rest =>
    match clause.body with
    | some body => do
      return (clause.condition, body) :: (← resolveClauses inner rest)
    | none => do
      match ← inner with
      | some body => return (clause.condition, body) :: (← resolveClauses inner rest)
      | none => clause.opener.missingBody

/-- Refuses lines inside a line that does not take them. -/
def refuseInner : List Layout → Except Fault Unit
  | [] => .ok ()
  | .node line _ :: _ => line.span.fault .unexpectedIndent

/-- The indentation that the first of some lines sets for the others. -/
def firstIndent : List Layout → Nat
  | [] => 0
  | .node line _ :: _ => line.indent

/-- Refuses a clause that continues no chain. -/
def expectIf (clauses : List Clause) : Except Fault Unit :=
  match clauses with
  | first :: _ =>
    if first.kind = .ifClause then .ok ()
    else .error ⟨.orphanBranch first.kind.keyword, first.opener.offset⟩
  | [] => .ok ()

/-- The nodes of lines that must all be indented by `indent`. A chain under way is continued or
closed by the first of them. -/
def readLayout (indent : Nat) (chain : Option ResolvedClauses) :
    List Layout → Except Fault (List Node)
  | [] => .ok (closeChain chain)
  | .node line inner :: rest =>
    if line.indent ≠ indent then line.span.fault .unexpectedIndent
    else do
      let body := if inner.isEmpty then .ok none
        else (readLayout (firstIndent inner) none inner).map some
      let continued := chain.isSome && continuesChain line
      let closed := if continued then [] else closeChain chain
      match ← readStatement line with
      | .chain clauses =>
        -- What continues a chain cannot open with `if`.
        if !continued then expectIf clauses
        let resolved ← resolveClauses body clauses
        -- Inner lines belong to a clause that has no body on its line.
        if clauses.all (·.body.isSome) then refuseInner inner
        let all := (if continued then chain.getD [] else []) ++ resolved
        if clauses.getLast?.any (·.kind = .elseClause) then
          return closed ++ closeChain (some all) ++ (← readLayout indent none rest)
        else return closed ++ (← readLayout indent (some all) rest)
      | .loop head (some nodes) =>
        refuseInner inner
        return closed ++ .loop head.var head.iterable nodes :: (← readLayout indent none rest)
      | .loop head none =>
        match ← body with
        | some nodes =>
          return closed ++ .loop head.var head.iterable nodes :: (← readLayout indent none rest)
        | none => head.opener.missingBody
      | .node node =>
        refuseInner inner
        return closed ++ node :: (← readLayout indent none rest)
      | .nothing =>
        refuseInner inner
        return closed ++ (← readLayout indent none rest)
termination_by lines => sizeOf lines
decreasing_by
  all_goals
    simp only [List.cons.sizeOf_spec, Layout.node.sizeOf_spec]
    omega

def readTemplate (source : List Char) : Except Fault Template := do
  let (metadata, start) ← readPreamble source
  let lines ← logicalLines ⟨start, source.drop start⟩
  let indent := ((lines.map (·.indent)).min?).getD 0
  return ⟨metadata, ← readLayout indent none (Layout.ofLines lines)⟩

end PromptScript.Source

namespace PromptScript

/-- Reads the source of a template or a script. -/
def Template.parse (source : String) : Except ParseError Template :=
  located source.toList (Source.readTemplate source.toList)

end PromptScript
