import PromptScript.Yaml.Scalar

/-!
What can be written before a node, and before a document: names that other places refer to, tags,
and directives.
-/
namespace PromptScript.Yaml

def isWordChar (c : Char) : Bool :=
  c.isAlphanum || c = '_' || c = '-'

/-- The name behind an ampersand or an asterisk. -/
def readName? (text : Rest) : Option (List Char × Rest) :=
  let (name, rest) := span text isWordChar
  if name.isEmpty then none
  else if atGap rest ∨ nextIs rest (fun c => "?:,]\x7d%@\x60".contains c) then some (name, rest)
  else none

/-! ### Tags -/

/-- The characters of the suffix of a tag; in one that is written out some more are allowed. -/
def isTagChar (writtenOut : Bool) (c : Char) : Bool :=
  isWordChar c || ";/?:@&=+$.!~*'()".contains c || (writtenOut && ",[]".contains c)

/-- How many octets the encoding of a character has that starts with a given one. -/
def encodedLength? (octet : Nat) : Option Nat :=
  if octet < 0x80 then some 1
  else if octet < 0xC0 then none
  else if octet < 0xE0 then some 2
  else if octet < 0xF0 then some 3
  else if octet < 0xF8 then some 4
  else none

/-- The octet behind a percent sign, if its two digits follow there. -/
def readOctet? : Rest → Option (Nat × Rest)
  | percent :: high :: low :: rest =>
    if percent.char = '%' then (digits? 16 [high.char, low.char]).map (·, rest) else none
  | _ => none

/-- Octets that go on with the encoding of a character. -/
def readOctets? : Nat → Rest → Option (List Nat × Rest)
  | 0, rest => some ([], rest)
  | n + 1, rest => do
    let (octet, rest) ← readOctet? rest
    if 0x80 ≤ octet ∧ octet < 0xC0 then
      let (octets, rest) ← readOctets? n rest
      return (octet :: octets, rest)
    else none

/-- The octets of a character, written with percent signs, each as a character. -/
def readEncoded? (text : Rest) : Option (List Char × Rest) := do
  let (first, rest) ← readOctet? text
  let (more, rest) ← readOctets? ((← encodedLength? first) - 1) rest
  return ((first :: more).map Char.ofNat, rest)

/-- The suffix of a tag, of which nothing may be written. -/
def readSuffix? (writtenOut : Bool) (text : Rest) : Option (List Char × Rest) :=
  match text with
  | [] => some ([], [])
  | spot :: behind =>
    if spot.char = '%' then
      match readEncoded? (spot :: behind) with
      | none => none
      | some (encoded, rest) =>
        if _ : rest.length < (spot :: behind).length then
          (readSuffix? writtenOut rest).map fun (suffix, rest) => (encoded ++ suffix, rest)
        else none
    else if isTagChar writtenOut spot.char then
      (readSuffix? writtenOut behind).map fun (suffix, rest) => (spot.char :: suffix, rest)
    else some ([], spot :: behind)
termination_by text.length
decreasing_by all_goals simp only [List.length_cons] at *; omega

/-- A suffix of which something is written. -/
def readFullSuffix? (writtenOut : Bool) (text : Rest) : Option (List Char × Rest) :=
  (readSuffix? writtenOut text).filter fun (suffix, _) => !suffix.isEmpty

/-- A tag behind its exclamation mark: one that is written out, one with a handle between two such
marks, one that is only a suffix, or the mark alone. -/
def readTag? (text : Rest) : Option (Token × Rest) :=
  if nextIs text (· = '<') then do
    let (suffix, rest) ← readFullSuffix? true (text.drop 1)
    if nextIs rest (· = '>') then return (.tag none suffix, rest.drop 1) else none
  else do
    let (handle, rest) := span text isWordChar
    if nextIs rest (· = '!') then
      let (suffix, rest) ← readFullSuffix? false (rest.drop 1)
      return (.tag (some ('!' :: handle ++ ['!'])) suffix, rest)
    else
      let (suffix, rest) ← readSuffix? false rest
      if handle.isEmpty ∧ suffix.isEmpty then return (.tag none ['!'], rest)
      else return (.tag (some ['!']) (handle ++ suffix), rest)

/-- A tag that ends with a word, or inside brackets with a comma. -/
def readWholeTag? (inFlow : Bool) (text : Rest) : Option (Token × Rest) :=
  (readTag? text).filter fun (_, rest) => atGap rest || (inFlow && nextIs rest (· = ','))

/-! ### Directives -/

def dropBlanks (text : Rest) : Rest :=
  text.dropWhile fun spot => isSpace spot.char

/-- A number of at most nine digits. -/
def readCount? (text : Rest) : Option (Nat × Rest) :=
  let (digits, rest) := span text Char.isDigit
  if digits.isEmpty ∨ 9 < digits.length then none else some (Value.digitsValue digits, rest)

def readVersion? (text : Rest) : Option (Directive × Rest) := do
  let (major, rest) ← readCount? (dropBlanks text)
  if nextIs rest (· = '.') then
    let (minor, rest) ← readCount? (rest.drop 1)
    return (.version major minor, rest)
  else none

/-- A handle between exclamation marks, which may be a single one, and what it stands for. -/
def readHandle? (text : Rest) : Option (Directive × Rest) := do
  let rest := dropBlanks text
  if nextIs rest (· = '!') then
    let (name, rest) := span (rest.drop 1) isWordChar
    let closed := nextIs rest (· = '!')
    let rest := if closed then rest.drop 1 else rest
    if (closed ∨ name.isEmpty) ∧ nextIs rest isSpace then
      let (start, rest) ← readFullSuffix? true (dropBlanks rest)
      if atGap rest then
        return (.tag ('!' :: name ++ (if closed then ['!'] else [])) start, rest)
      else none
    else none
  else none

/-- A directive behind its percent sign, and the lines that follow it. -/
def readDirective? (text : Rest) : Option (Directive × Rest) := do
  let (name, rest) := span text isWordChar
  if atGap rest then
    let (directive, rest) ← match String.ofList name with
      | "YAML" => readVersion? rest
      | "TAG" => readHandle? rest
      | _ => none
    return (directive, ← endLine? rest)
  else none

end PromptScript.Yaml
