import PromptScript.Yaml.Layout
import PromptScript.Yaml.Node

/-!
Documents. A text holds one document; a blank one if there is nothing in it.
-/
namespace PromptScript.Yaml

structure Document where
  root : Yaml
  /-- The numbered nodes; of several with one number the first counts. -/
  anchors : List (Nat × Yaml)
deriving Repr, Inhabited

namespace Document

def ofRoot (root : Yaml) : Document := ⟨root, root.anchors.reverse⟩

/-- The handles that are known without directives. -/
def usualHandles : Handles :=
  [(['!'], ['!']), (['!', '!'], "tag:yaml.org,2002:".toList)]

/-- The handles that directives give. At most one of them names a version, which is one of two; no
handle is given twice. -/
def handles? (directives : List Directive) : Option Handles :=
  let versions := directives.filterMap fun
    | .version major minor => some (major, minor)
    | _ => none
  let given := directives.filterMap fun
    | .tag handle start => some (handle, start)
    | _ => none
  let isKnown : Bool := match versions with
    | [] => true
    | [(major, minor)] => major = 1 && (minor = 1 || minor = 2)
    | _ => false
  if isKnown ∧ (given.map (·.1)).Nodup then some (given ++ usualHandles) else none

/-- The directives at the start of some tokens. -/
def readDirectives : List Token → List Directive × List Token
  | .directive content :: rest =>
    let (more, rest) := readDirectives rest
    (content :: more, rest)
  | rest => ([], rest)

/-- Whether a token does not belong to the content of a document. -/
def isOutside : Token → Bool
  | .directive _ | .documentStart | .documentEnd => true
  | _ => false

/-- The content of a document, which stands behind a mark if there are directives. -/
def readRoot (tokens : List Token) : Option (Yaml × List Token) := do
  let (directives, rest) := readDirectives tokens
  let handles ← handles? directives
  let readNode := readNode handles (rest.length + 1) true false
  match rest with
  | .documentStart :: rest =>
    if rest.isEmpty then return (blank, []) else readOr isOutside readNode rest
  | rest =>
    if !directives.isEmpty then none
    else if rest.isEmpty then return (blank, [])
    else readNode rest

/-- The only document that a text spells. -/
def ofText? (text : List Char) : Option Document := do
  let (root, rest) ← readRoot (← tokens? text)
  if rest.all (· = .documentEnd) then return ofRoot root else none

/-- The node that a node stands for. -/
def content? (d : Document) : Yaml → Option Yaml
  | .alias id => d.anchors.lookup id
  | .anchored _ node => some node
  | node => some node

end Document

end PromptScript.Yaml
