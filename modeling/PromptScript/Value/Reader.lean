import PromptScript.Value.Printer

/-!
Reading JSON text. Lists and mappings nest at most `maxDepth` levels deep. A value is first read with
all entries that are written; then a repeated key keeps its first place and takes its last value.
-/
namespace PromptScript.Value

/-- How many lists and mappings may enclose a value. -/
def maxDepth : Nat := 127

/-- The blanks that may stand between the parts of JSON text. -/
def isJsonBlank (c : Char) : Bool :=
  c = ' ' || c = '\n' || c = '\t' || c = '\r'

def skipBlanks (text : List Char) : List Char :=
  text.dropWhile isJsonBlank

/-- The value of a hexadecimal digit of either case. -/
def hexValue? (c : Char) : Option Nat :=
  if c.isDigit then some (c.toNat - '0'.toNat)
  else if 'a' ≤ c ∧ c ≤ 'f' then some (c.toNat - 'a'.toNat + 10)
  else if 'A' ≤ c ∧ c ≤ 'F' then some (c.toNat - 'A'.toNat + 10)
  else none

/-- The code unit that four hexadecimal digits spell. -/
def readHex4 : List Char → Option Nat
  | a :: b :: c :: d :: _ => do
    return ((((← hexValue? a) * 16 + (← hexValue? b)) * 16 + (← hexValue? c)) * 16 + (← hexValue? d))
  | _ => none

/-- The second half of a surrogate pair, as an escape of its own. -/
def readLowSurrogate : List Char → Option Nat
  | '\\' :: 'u' :: digits => (readHex4 digits).filter fun unit => 0xDC00 ≤ unit && unit < 0xE000
  | _ => none

/-- The character that an escape of four digits stands for, and how many characters spell it. Two
escapes spell a character beyond U+FFFF; half of such a pair is refused. -/
def readUnicodeEscape (text : List Char) : Option (Char × Nat) := do
  let unit ← readHex4 text
  if 0xD800 ≤ unit ∧ unit < 0xDC00 then
    let low ← readLowSurrogate (text.drop 4)
    return (Char.ofNat (0x10000 + (unit - 0xD800) * 0x400 + (low - 0xDC00)), 10)
  else if 0xDC00 ≤ unit ∧ unit < 0xE000 then none
  else return (Char.ofNat unit, 4)

/-- The character of an escape, and how many characters behind the backslash spell it. -/
def readEscape : List Char → Option (Char × Nat)
  | '"' :: _ => some ('"', 1)
  | '\\' :: _ => some ('\\', 1)
  | '/' :: _ => some ('/', 1)
  | 'b' :: _ => some ('\x08', 1)
  | 'f' :: _ => some ('\x0c', 1)
  | 'n' :: _ => some ('\n', 1)
  | 'r' :: _ => some ('\r', 1)
  | 't' :: _ => some ('\t', 1)
  | 'u' :: digits => (readUnicodeEscape digits).map fun (c, taken) => (c, taken + 1)
  | _ => none

/-- The content of a string and the text behind its closing quote. -/
def readString : List Char → Option (List Char × List Char)
  | [] => none
  | '"' :: rest => some ([], rest)
  | '\\' :: escaped =>
    match readEscape escaped with
    | none => none
    | some (c, taken) =>
      (readString (escaped.drop taken)).map fun (content, rest) => (c :: content, rest)
  | c :: rest =>
    if c.toNat < 0x20 then none
    else (readString rest).map fun (content, rest) => (c :: content, rest)
termination_by text => text.length
decreasing_by all_goals simp only [List.length_drop, List.length_cons]; omega

/-- The digits at the start of a text and what follows them. -/
def spanDigits (text : List Char) : List Char × List Char :=
  (text.takeWhile Char.isDigit, text.dropWhile Char.isDigit)

def digitsValue (digits : List Char) : Nat :=
  digits.foldl (fun n c => n * 10 + (c.toNat - '0'.toNat)) 0

/-- The fraction part of a number, with its point; empty when there is none. -/
def readFraction : List Char → Option (List Char × List Char)
  | '.' :: text =>
    let (digits, rest) := spanDigits text
    if digits.isEmpty then none else some (digits, rest)
  | text => some ([], text)

/-- The exponent part of a number; `none` inside means that there is none. -/
def readExponent : List Char → Option (Option Int × List Char)
  | c :: text =>
    if c = 'e' ∨ c = 'E' then
      let (negative, text) := match text with
        | '-' :: text => (true, text)
        | '+' :: text => (false, text)
        | text => (false, text)
      let (digits, rest) := spanDigits text
      if digits.isEmpty then none
      else
        let power : Int := digitsValue digits
        some (some (if negative then -power else power), rest)
    else some (none, c :: text)
  | [] => some (none, [])

/-- A number from the parts of its text. An integer beyond 64 bits, and the negative zero, are
floating-point numbers; a number beyond their range is refused. -/
def makeNumber (negative : Bool) (whole fraction : List Char) (exponent : Option Int) :
    Option Number :=
  let integer : Int := if negative then -digitsValue whole else digitsValue whole
  if fraction.isEmpty ∧ exponent.isNone ∧ fitsInteger integer ∧ ¬(negative ∧ integer = 0) then
    some (.int integer)
  else
    (Binary64.ofDecimal negative (digitsValue (whole ++ fraction))
      (exponent.getD 0 - fraction.length)).map .float

/-- The whole part of a number: no digit follows a leading zero. -/
def readWhole : List Char → Option (List Char × List Char)
  | '0' :: rest =>
    match rest with
    | [] => some (['0'], [])
    | c :: more => if c.isDigit then none else some (['0'], c :: more)
  | text =>
    let (digits, rest) := spanDigits text
    if digits.isEmpty then none else some (digits, rest)

def readNumber (text : List Char) : Option (Number × List Char) := do
  let (negative, text) := match text with
    | '-' :: text => (true, text)
    | text => (false, text)
  let (whole, text) ← readWhole text
  let (fraction, text) ← readFraction text
  let (exponent, text) ← readExponent text
  return (← makeNumber negative whole fraction exponent, text)

/-- Items between commas up to a closing character, at least one of them. Every item takes a part
of the text. -/
def readSeparated {α : Type} (readOne : List Char → Option (α × List Char)) (close : Char)
    (text : List Char) : Option (List α × List Char) :=
  match readOne text with
  | none => none
  | some (item, rest) =>
    match skipBlanks rest with
    | [] => none
    | c :: more =>
      if c = close then some ([item], more)
      else if c = ',' then
        if _ : more.length < text.length then
          (readSeparated readOne close more).map fun (items, rest) => (item :: items, rest)
        else none
      else none
termination_by text.length

/-- Like `readSeparated`, but there may be nothing before the closing character. -/
def readEnclosed {α : Type} (readOne : List Char → Option (α × List Char)) (close : Char)
    (text : List Char) : Option (List α × List Char) :=
  match skipBlanks text with
  | [] => none
  | c :: rest => if c = close then some ([], rest) else readSeparated readOne close (c :: rest)

/-- A key, a colon and a value. -/
def readEntry {α : Type} (readOne : List Char → Option (α × List Char)) (text : List Char) :
    Option ((String × α) × List Char) :=
  match skipBlanks text with
  | '"' :: rest => do
    let (key, rest) ← readString rest
    match skipBlanks rest with
    | ':' :: rest =>
      let (value, rest) ← readOne rest
      return ((.ofList key, value), rest)
    | _ => none
  | _ => none

/-- A value that is not a list or a mapping. -/
def readScalar : List Char → Option (Value × List Char)
  | 'n' :: 'u' :: 'l' :: 'l' :: rest => some (.null, rest)
  | 't' :: 'r' :: 'u' :: 'e' :: rest => some (.bool true, rest)
  | 'f' :: 'a' :: 'l' :: 's' :: 'e' :: rest => some (.bool false, rest)
  | '"' :: rest => (readString rest).map fun (content, rest) => (.str (.ofList content), rest)
  | text => (readNumber text).map fun (n, rest) => (.num n, rest)

/-- A value at the start of a text, with at most `depth` levels of lists and mappings. -/
def readValue (depth : Nat) (text : List Char) : Option (Value × List Char) :=
  match depth, skipBlanks text with
  | 0, '[' :: _ | 0, '{' :: _ => none
  | depth + 1, '[' :: rest =>
    (readEnclosed (readValue depth) ']' rest).map fun (items, rest) => (.list items, rest)
  | depth + 1, '{' :: rest =>
    (readEnclosed (readEntry (readValue depth)) '}' rest).map fun (entries, rest) =>
      (.map entries, rest)
  | _, text => readScalar text

/-- The value that a text spells, when nothing but blanks follows it and it has at most `depth`
levels. -/
def ofTextWithin? (depth : Nat) (text : List Char) : Option Value :=
  match readValue depth text with
  | some (value, rest) => if (skipBlanks rest).isEmpty then some value.merged else none
  | none => none

/-- The value that a text spells, when nothing but blanks follows it. -/
def ofText? (text : List Char) : Option Value :=
  ofTextWithin? maxDepth text

end PromptScript.Value
