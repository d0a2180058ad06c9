import PromptScript.Text.Trim

/-!
Templates of command lines. A name in braces stands for a value, and two braces of one kind for that
brace; values are put in as they are and not looked at again.
-/
namespace PromptScript

/-- What is wrong with a template. Positions count bytes. -/
inductive CommandError
  | unknownPlaceholder (name : String) (position : Nat)
  | unclosed (position : Nat)
  /-- Braces with nothing between them. -/
  | empty (position : Nat)
deriving DecidableEq, Repr, Inhabited

def CommandError.message : CommandError → String
  | .unknownPlaceholder name position =>
    "unknown placeholder '\x7b" ++ name ++ "\x7d' at position " ++ toString position
  | .unclosed position => "unclosed '\x7b' at position " ++ toString position
  | .empty position => "empty placeholder '\x7b\x7d' at position " ++ toString position

namespace Command

def byteLength (text : List Char) : Nat :=
  (String.ofList text).utf8ByteSize

/-- The text that a template stands for, when it starts at a position of a longer one. A closing
brace that nothing opened stands for itself. -/
def expandFrom (values : List (String × String)) (position : Nat) :
    List Char → Except CommandError (List Char)
  | [] => .ok []
  | '{' :: '{' :: rest => return '{' :: (← expandFrom values (position + 2) rest)
  | '}' :: '}' :: rest => return '}' :: (← expandFrom values (position + 2) rest)
  | '{' :: rest =>
    let inside := rest.takeWhile (· ≠ '}')
    if _ : inside.length < rest.length then
      let name := Text.trim inside
      if name.isEmpty then .error (.empty position)
      else
        match values.lookup (.ofList name) with
        | none => .error (.unknownPlaceholder (.ofList name) position)
        | some value => do
          return value.toList ++ (← expandFrom values (position + byteLength inside + 2)
            (rest.drop (inside.length + 1)))
    else .error (.unclosed position)
  | c :: rest => return c :: (← expandFrom values (position + c.utf8Size) rest)
termination_by text => text.length
decreasing_by all_goals simp only [List.length_drop, List.length_cons]; omega

/-- The command line that a template stands for. -/
def expand (values : List (String × String)) (template : String) : Except CommandError String :=
  (expandFrom values 0 template.toList).map .ofList

end Command

end PromptScript
