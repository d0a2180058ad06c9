import PromptScript.Text.Trim

/-!
Names of variables and functions, and the dotted paths that reach into values.
-/
namespace PromptScript

/-- Whether a text is the name of a variable or a function. -/
def isIdentifier : List Char → Bool
  | [] => false
  | c :: rest => Text.isNameStart c && rest.all Text.isNameChar

/-- A dotted reference such as `user.profile.name`: a variable, then keys of mappings or indices of
lists. -/
structure VarPath where
  root : String
  rest : List String
deriving DecidableEq, Repr, Inhabited

namespace VarPath

def segments (path : VarPath) : List String :=
  path.root :: path.rest

def text (path : VarPath) : String :=
  ".".intercalate path.segments

/-- Whether a text may follow a point in a path. -/
def isSegment (text : List Char) : Bool :=
  !text.isEmpty && text.all Text.isNameChar

/-- Reads a dotted path: an identifier, then segments. -/
def ofText? (text : List Char) : Option VarPath :=
  match Text.pieces (· = '.') text with
  | root :: rest =>
    if isIdentifier root && rest.all isSegment then
      some ⟨.ofList root, rest.map .ofList⟩
    else none
  | [] => none

end VarPath

end PromptScript
