import PromptScript.Source.Expression
import PromptScript.Source.Scan
import PromptScript.Template.Node

/-!
Include markers: `[[ path key=value ... ]]`.
-/
namespace PromptScript.Source

/-- The text between a quote at both ends, if there is one. -/
def unquote? (quote : Char) : List Char → Option (List Char)
  | c :: rest =>
    if c = quote ∧ rest.getLast? = some quote then some rest.dropLast else none
  | [] => none

/-- The target of an include: a variable in a dollar and braces, or a path that may be quoted. -/
def readIncludePath (word : Span) : Except Fault IncludePath :=
  match word.text with
  | '$' :: '\x7b' :: inner =>
    if inner.getLast? = some '\x7d' then
      let name := Text.trim inner.dropLast
      match VarPath.ofText? name with
      | some path => .ok (.dynamic path)
      | none => word.fault (.invalidPath (.ofList name))
    else word.fault .unterminatedInterpolation
  | text =>
    let path := ((unquote? '"' text).or (unquote? '\'' text)).getD text
    .ok (.literal (.ofList path))

def readBinding (word : Span) : Except Fault (String × Expr) :=
  match Text.splitOnce? '=' word.text with
  | some (key, value) =>
    if isIdentifier key ∧ value ≠ [] then do
      return (.ofList key, ← readExpr (word.drop (key.length + 1)))
    else word.fault (.malformedBinding (.ofList word.text))
  | none => word.fault (.malformedBinding (.ofList word.text))

/-- The include that the text between the brackets of a marker describes. -/
def readIncludeWords (marker : Span) (content : Span) : Except Fault Include :=
  match (content.splitTopLevel Text.isBlank).filter fun word => !word.text.isEmpty with
  | [] => marker.fault .missingIncludePath
  | path :: parameters => do
    let path ← readIncludePath path
    let bindings ← parameters.mapM readBinding
    return ⟨path, bindings⟩

/-- Reads the marker at the start of a span; the second part of the result is its length. -/
def readInclude (s : Span) : Except Fault (Include × Nat) :=
  match includeEnd none (s.text.drop 2) with
  | none => s.fault .unterminatedInclude
  | some length => do
    let target ← readIncludeWords s ((s.drop 2).take length)
    return (target, length + 4)

end PromptScript.Source
