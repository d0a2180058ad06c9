import PromptScript.Yaml.Token

/-!
Documents as trees. A node that other places refer to has a number; the places that refer to it hold
this number.
-/
namespace PromptScript

inductive Yaml
  | scalar (style : Yaml.Style) (tag : Option (List Char)) (text : List Char)
  | list (tag : Option (List Char)) (items : List Yaml)
  | map (tag : Option (List Char)) (entries : List (Yaml × Yaml))
  | anchored (id : Nat) (node : Yaml)
  | alias (id : Nat)
deriving Repr, Inhabited

namespace Yaml

/-- The node that stands where nothing is written. -/
def blank : Yaml := .scalar .plain none []

def isBlank : Yaml → Bool
  | .scalar .plain _ [] => true
  | _ => false

mutual

/-- How many parts a node has: a list and a mapping count at both ends. -/
def size : Yaml → Nat
  | .scalar .. | .alias _ => 1
  | .list _ items => itemsSize items + 2
  | .map _ entries => entriesSize entries + 2
  | .anchored _ node => size node

def itemsSize : List Yaml → Nat
  | [] => 0
  | item :: rest => size item + itemsSize rest

def entriesSize : List (Yaml × Yaml) → Nat
  | [] => 0
  | (key, value) :: rest => size key + size value + entriesSize rest

end

mutual

/-- The numbered nodes in the order in which they begin. -/
def anchors : Yaml → List (Nat × Yaml)
  | .scalar .. | .alias _ => []
  | .list _ items => itemAnchors items
  | .map _ entries => entryAnchors entries
  | .anchored id node => (id, node) :: anchors node

def itemAnchors : List Yaml → List (Nat × Yaml)
  | [] => []
  | item :: rest => anchors item ++ itemAnchors rest

def entryAnchors : List (Yaml × Yaml) → List (Nat × Yaml)
  | [] => []
  | (key, value) :: rest => anchors key ++ anchors value ++ entryAnchors rest

end

end Yaml

end PromptScript
