import PromptScript.Yaml.Text

/-!
The tokens of a document. Tokens without a text of their own stand for what indentation says: where
lists and mappings that are laid out in lines begin and end, and what is a key.
-/
namespace PromptScript.Yaml

inductive Style
  | plain
  | quoted
  /-- In lines of their own, whose breaks are kept. -/
  | literal
  | folded
deriving DecidableEq, Repr, Inhabited

/-- What a document says about how to read it. -/
inductive Directive
  | version (major minor : Nat)
  /-- A handle stands for what tags with it start with. -/
  | tag (handle start : List Char)
deriving DecidableEq, Repr, Inhabited

inductive Token
  | directive (content : Directive)
  | documentStart
  | documentEnd
  /-- The start of a list in lines, of a mapping in lines, and the end of either. -/
  | listBlock
  | mapBlock
  | blockEnd
  | openBracket
  | closeBracket
  | openBrace
  | closeBrace
  | dash
  | comma
  | key
  | value
  /-- A number that a node gets, and one that stands for the node that has it. -/
  | anchor (id : Nat)
  | alias (id : Nat)
  /-- A tag; there is no handle in one that is written out. -/
  | tag (handle : Option (List Char)) (suffix : List Char)
  | scalar (style : Style) (text : List Char)
deriving DecidableEq, Repr, Inhabited

end PromptScript.Yaml
