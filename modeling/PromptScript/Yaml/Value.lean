import PromptScript.Yaml.Document
import PromptScript.Yaml.Plain

/-!
The values that documents stand for. A quoted scalar is a string; a plain one is what its text
spells, and a tag may say of either what it is.
-/
namespace PromptScript.Yaml

/-- The tags of the kinds of scalars that are not strings. -/
inductive CoreTag
  | null
  | bool
  | int
  | float
deriving DecidableEq, Repr, Inhabited

def CoreTag.name : CoreTag → String
  | .null => "null"
  | .bool => "bool"
  | .int => "int"
  | .float => "float"

def CoreTag.text (tag : CoreTag) : List Char :=
  ("tag:yaml.org,2002:" ++ tag.name).toList

def CoreTag.ofText? (text : List Char) : Option CoreTag :=
  [null, bool, int, float].find? (·.text = text)

/-- The value of a scalar that a tag describes, if its text spells such a value. -/
def CoreTag.value? (tag : CoreTag) (text : List Char) : Option Value :=
  match tag with
  | .null => if isNull text ∧ text ≠ [] then some .null else none
  | .bool => (bool? text).map .bool
  | .int => ((int? text).filter fitsInteger).map .int
  | .float =>
    match decimal? text with
    | some x => some (.num (.float x))
    | none => if isNotFinite text then some .null else none

/-- Whether a tag is one that the document makes up itself. -/
def isOwnTag (tag : Option (List Char)) : Bool :=
  tag.any (·.head? = some '!')

/-- The value of a scalar. A tag of the document's own has none. -/
def scalarValue? (style : Style) (tag : Option (List Char)) (text : List Char) : Option Value :=
  match tag with
  | none => if style = .plain then plainValue? text else some (.str (.ofList text))
  | some name =>
    if isOwnTag tag then none
    else
      match CoreTag.ofText? name with
      | some core => core.value? text
      | none => some (.str (.ofList text))

namespace Document

/-- How many lists and mappings may enclose a node. -/
def maxDepth : Nat := 128

/-- How many references are followed at most. -/
def maxFollowed (d : Document) : Nat :=
  100 * d.root.size

/-- The node that a node stands for; counts the references that are followed. -/
def follow (d : Document) (node : Yaml) : StateT Nat Option Yaml := do
  if let .alias _ := node then
    modify (· + 1)
    if d.maxFollowed < (← get) then failure
  d.content? node

def keyText (d : Document) (node : Yaml) : StateT Nat Option String := do
  match ← d.follow node with
  | .scalar _ _ text => return .ofList text
  | _ => failure

/-- The value that a node stands for, with all its entries and at most `depth` levels. -/
def rawValue (d : Document) : (depth : Nat) → Yaml → StateT Nat Option Value
  | 0, node => do
    match ← d.follow node with
    | .scalar style tag text => scalarValue? style tag text
    | _ => failure
  | depth + 1, node => do
    match ← d.follow node with
    | .scalar style tag text => scalarValue? style tag text
    | .list tag items =>
      if isOwnTag tag then failure
      return .list (← items.mapM (rawValue d depth))
    | .map tag entries =>
      if isOwnTag tag then failure
      return .map (← entries.mapM fun (key, value) => do
        return (← d.keyText key, ← rawValue d depth value))
    | _ => failure

/-- The value that a document stands for. -/
def toValue? (d : Document) : Option Value :=
  ((d.rawValue maxDepth d.root).run' 0).map Value.merged

end Document

end PromptScript.Yaml
