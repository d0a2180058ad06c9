import PromptScript.Value.Reader

/-!
Records whose fields are read one by one. The text of a record is first divided into the texts of
its fields, of which only the shape counts; a field is read when its name is known. So what an
unknown field holds needs no more than that shape.
-/
namespace PromptScript

namespace Value

/-! ### Values of which only the shape counts -/

/-- How many characters spell an escape behind the backslash, whatever it stands for. -/
def escapeLength? : List Char → Option Nat
  | 'u' :: digits => (readHex4 digits).map fun _ => 5
  | c :: _ => if "\"\\/bfnrt".contains c then some 1 else none
  | [] => none

/-- The text behind the closing quote of a string. -/
def skipString (text : List Char) : Option (List Char) :=
  match text with
  | [] => none
  | '"' :: rest => some rest
  | '\\' :: escaped =>
    match escapeLength? escaped with
    | none => none
    | some taken => skipString (escaped.drop taken)
  | c :: rest => if c.toNat < 0x20 then none else skipString rest
termination_by text.length
decreasing_by all_goals simp only [List.length_drop, List.length_cons]; omega

/-- The text behind a number of any size. -/
def skipNumber (text : List Char) : Option (List Char) := do
  let text := match text with
    | '-' :: text => text
    | text => text
  let (_, text) ← readWhole text
  let (_, text) ← readFraction text
  let (_, text) ← readExponent text
  return text

/-- The text behind a value that is not a list or a mapping. -/
def skipScalar : List Char → Option (List Char)
  | 'n' :: 'u' :: 'l' :: 'l' :: rest => some rest
  | 't' :: 'r' :: 'u' :: 'e' :: rest => some rest
  | 'f' :: 'a' :: 'l' :: 's' :: 'e' :: rest => some rest
  | '"' :: rest => skipString rest
  | text => skipNumber text

/-- The text behind a key, a colon and a value. -/
def skipEntry (skipOne : List Char → Option (List Char)) (text : List Char) :
    Option (List Char) :=
  match skipBlanks text with
  | '"' :: rest => do
    match skipBlanks (← skipString rest) with
    | ':' :: rest => skipOne rest
    | _ => none
  | _ => none

/-- A reader that gives the text it takes. -/
def taken (skipOne : List Char → Option (List Char)) (text : List Char) :
    Option (List Char × List Char) :=
  (skipOne text).map fun rest => (text.take (text.length - rest.length), rest)

/-- The text behind a value with at most `depth` levels of lists and mappings. -/
def skipValue (depth : Nat) (text : List Char) : Option (List Char) :=
  match depth, skipBlanks text with
  | 0, '[' :: _ | 0, '{' :: _ => none
  | depth + 1, '[' :: rest => (readEnclosed (taken (skipValue depth)) ']' rest).map (·.2)
  | depth + 1, '{' :: rest =>
    (readEnclosed (taken (skipEntry (skipValue depth))) '}' rest).map (·.2)
  | _, text => skipScalar text

/-- The text of a value, and what follows it. A value cannot have more levels than characters. -/
def readText (text : List Char) : Option (List Char × List Char) :=
  taken (skipValue text.length) text

end Value

/-- The parts of a list or a record as texts. -/
inductive Outline
  | list (items : List (List Char))
  | record (fields : List (String × List Char))
deriving DecidableEq, Repr, Inhabited

namespace Outline

/-- The outline of the list or the record that a text spells. -/
def ofText? (text : List Char) : Option Outline := do
  let (outline, rest) ← match Value.skipBlanks text with
    | '[' :: rest => (Value.readEnclosed Value.readText ']' rest).map fun (items, rest) =>
      (list items, rest)
    | '{' :: rest =>
      (Value.readEnclosed (Value.readEntry Value.readText) '}' rest).map fun (fields, rest) =>
        (record fields, rest)
    | _ => none
  if (Value.skipBlanks rest).isEmpty then return outline else none

/-- The texts of the fields with the given names. A list holds them in the order of the names. None
comes twice, some may be missing, and unknown ones do not count. -/
def fields? (names : List String) : Outline → Option (List (String × List Char))
  | .list items => if items.length ≤ names.length then some (names.zip items) else none
  | .record fields =>
    let known := fields.filter fun (name, _) => names.contains name
    if (known.map (·.1)).Nodup then some known else none

end Outline

end PromptScript
