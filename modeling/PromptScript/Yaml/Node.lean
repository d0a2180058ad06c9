import PromptScript.Yaml.Basic

/-!
How tokens become nodes. What is left out where a node could stand is blank.
-/
namespace PromptScript.Yaml

abbrev Handles := List (List Char × List Char)

/-- The tag that is spelled with a handle, if the handle is known. -/
def Handles.tag? (handles : Handles) (handle : Option (List Char)) (suffix : List Char) :
    Option (List Char) :=
  match handle with
  | none => some suffix
  | some handle => (handles.lookup handle).map (· ++ suffix)

structure Properties where
  anchor : Option Nat
  tag : Option (List Char)
deriving DecidableEq, Repr, Inhabited

namespace Properties

def none : Properties := ⟨.none, .none⟩

/-- The properties at the start of some tokens, in either order, and the tokens behind them. -/
def read (handles : Handles) : List Token → Option (Properties × List Token)
  | .anchor id :: .tag handle suffix :: rest | .tag handle suffix :: .anchor id :: rest => do
    return (⟨some id, some (← handles.tag? handle suffix)⟩, rest)
  | .anchor id :: rest => some (⟨some id, .none⟩, rest)
  | .tag handle suffix :: rest => do
    return (⟨.none, some (← handles.tag? handle suffix)⟩, rest)
  | rest => some (none, rest)

/-- A scalar with these properties. The tag that says nothing is dropped. -/
def scalar (p : Properties) (style : Style) (text : List Char) : Yaml :=
  .scalar style (p.tag.filter (· ≠ ['!'])) text

/-- A node with its number, if it has one. -/
def number (p : Properties) (node : Yaml) : Yaml :=
  match p.anchor with
  | some id => .anchored id node
  | .none => node

end Properties

/-- A reader of a node at the start of some tokens. -/
abbrev NodeReader := List Token → Option (Yaml × List Token)

/-- A node, or blank where a token says that none is written. -/
def readOr (isEnd : Token → Bool) (readNode : NodeReader) (tokens : List Token) :
    Option (Yaml × List Token) :=
  if tokens.head?.any isEnd then some (blank, tokens) else readNode tokens

/-- The value behind a key, if the token that starts it follows. -/
def readValue (isEnd : Token → Bool) (readNode : NodeReader) (tokens : List Token) :
    Option (Yaml × List Token) :=
  match tokens with
  | .value :: rest => readOr isEnd readNode rest
  | tokens => some (blank, tokens)

/-! ### Lists and mappings in lines -/

/-- The items of a list up to the end of its block. -/
def readBlockItems (readNode : NodeReader) (tokens : List Token) :
    Option (List Yaml × List Token) :=
  match tokens with
  | .blockEnd :: rest => some ([], rest)
  | .dash :: rest =>
    match readOr (fun t => t = .dash || t = .blockEnd) readNode rest with
    | none => none
    | some (item, left) =>
      if _ : left.length < (Token.dash :: rest).length then
        (readBlockItems readNode left).map fun (items, left) => (item :: items, left)
      else none
  | _ => none
termination_by tokens.length
decreasing_by all_goals simp only [List.length_cons] at *; omega

/-- Whether a token ends a key or a value in a mapping in lines. -/
def endsBlockEntry (t : Token) : Bool :=
  t = .key || t = .value || t = .blockEnd

/-- The items of a list whose dashes stand in the column of the key that it belongs to. -/
def readLevelItems (readNode : NodeReader) (tokens : List Token) :
    Option (List Yaml × List Token) :=
  match tokens with
  | .dash :: rest =>
    match readOr (fun t => t = .dash || endsBlockEntry t) readNode rest with
    | none => none
    | some (item, left) =>
      if _ : left.length < (Token.dash :: rest).length then
        (readLevelItems readNode left).map fun (items, left) => (item :: items, left)
      else none
  | tokens => some ([], tokens)
termination_by tokens.length
decreasing_by all_goals simp only [List.length_cons] at *; omega

/-- The entries of a mapping up to the end of its block. -/
def readBlockEntries (readNode : NodeReader) (tokens : List Token) :
    Option (List (Yaml × Yaml) × List Token) :=
  match tokens with
  | .blockEnd :: rest => some ([], rest)
  | .key :: rest =>
    match readOr endsBlockEntry readNode rest with
    | none => none
    | some (key, behind) =>
      match readValue endsBlockEntry readNode behind with
      | none => none
      | some (value, left) =>
        if _ : left.length < (Token.key :: rest).length then
          (readBlockEntries readNode left).map fun (entries, left) =>
            ((key, value) :: entries, left)
        else none
  | _ => none
termination_by tokens.length
decreasing_by all_goals simp only [List.length_cons] at *; omega

/-! ### Lists and mappings in brackets -/

/-- Parts between commas up to a closing bracket. A comma may stand behind the last one. -/
def readParts {α : Type} (close : Token) (readPart : List Token → Option (α × List Token))
    (tokens : List Token) : Option (List α × List Token) :=
  match tokens with
  | [] => none
  | token :: rest =>
    if token = close then some ([], rest)
    else
      match readPart (token :: rest) with
      | none => none
      | some (part, left) =>
        match left with
        | [] => none
        | next :: more =>
          if next = close then some ([part], more)
          else if next = .comma then
            if _ : more.length < (token :: rest).length then
              (readParts close readPart more).map fun (parts, left) => (part :: parts, left)
            else none
          else none
termination_by tokens.length
decreasing_by all_goals simp only [List.length_cons] at *; omega

/-- Whether a token ends the value of a pair in a list. -/
def endsItem (t : Token) : Bool :=
  t = .comma || t = .closeBracket

/-- An item of a list in brackets; a key starts a mapping of one entry. Where the key is left out,
the token in its place does not count. -/
def readItem (readNode : NodeReader) : NodeReader
  | .key :: rest => do
    let (key, rest) ←
      if rest.head?.any fun t => t = .value || endsItem t then some (blank, rest.drop 1)
      else readNode rest
    let (value, rest) ← readValue endsItem readNode rest
    return (.map none [(key, value)], rest)
  | tokens => readNode tokens

/-- Whether a token ends the value of an entry in braces. -/
def endsEntry (t : Token) : Bool :=
  t = .comma || t = .closeBrace

/-- An entry of a mapping in braces; a node that is not marked as a key is one without a value. -/
def readEntry (readNode : NodeReader) (tokens : List Token) :
    Option ((Yaml × Yaml) × List Token) :=
  match tokens with
  | .key :: rest => do
    let (key, rest) ← readOr (fun t => t = .value || endsEntry t) readNode rest
    let (value, rest) ← readValue endsEntry readNode rest
    return ((key, value), rest)
  | tokens => do
    let (key, rest) ← readNode tokens
    return ((key, blank), rest)

/-! ### Nodes -/

/-- What a node holds, behind its properties. `inLines` tells whether it may be laid out in lines,
and `atKey` whether its dashes may stand in the column of a key; `readNode` reads the nodes
inside. -/
def readContent (readNode : (inLines atKey : Bool) → NodeReader) (inLines atKey : Bool)
    (properties : Properties) (tokens : List Token) : Option (Yaml × List Token) :=
  let list (result : Option (List Yaml × List Token)) : Option (Yaml × List Token) :=
    result.map fun (items, rest) => (.list properties.tag items, rest)
  let map (result : Option (List (Yaml × Yaml) × List Token)) : Option (Yaml × List Token) :=
    result.map fun (entries, rest) => (.map properties.tag entries, rest)
  match tokens, inLines, atKey with
  | .scalar style text :: rest, _, _ => some (properties.scalar style text, rest)
  | .openBracket :: rest, _, _ =>
    list (readParts .closeBracket (readItem (readNode false false)) rest)
  | .openBrace :: rest, _, _ =>
    map (readParts .closeBrace (readEntry (readNode false false)) rest)
  | .dash :: rest, _, true => list (readLevelItems (readNode true false) (.dash :: rest))
  | .listBlock :: rest, true, _ => list (readBlockItems (readNode true false) rest)
  | .mapBlock :: rest, true, _ => map (readBlockEntries (readNode true true) rest)
  | tokens, _, _ =>
    if properties = .none then none else some (.scalar .plain properties.tag [], tokens)

/-- A node at the start of some tokens, with at most `depth` levels. -/
def readNode (handles : Handles) : (depth : Nat) → (inLines atKey : Bool) → NodeReader
  | 0, _, _, _ => none
  | _, _, _, .alias id :: rest => some (.alias id, rest)
  | depth + 1, inLines, atKey, tokens => do
    let (properties, rest) ← Properties.read handles tokens
    let (node, rest) ← readContent (readNode handles depth) inLines atKey properties rest
    return (properties.number node, rest)

end PromptScript.Yaml
