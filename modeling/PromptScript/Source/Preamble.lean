import PromptScript.Source.Fault
import PromptScript.Template.Node

/-!
The metadata in front of a template. It is written either as lines `@key: value`, or as lines
`key: value` between two lines `---`.
-/
namespace PromptScript.Source

/-- Consecutive lines, of which the first starts at an offset. -/
def lineSpans (start : Nat) : List (List Char) → List Span
  | [] => []
  | line :: rest => ⟨start, line⟩ :: lineSpans (start + line.length + 1) rest

/-- The lines of a source, without their newlines. -/
def physicalLines (source : List Char) : List Span :=
  lineSpans 0 (Text.pieces (· = '\n') source)

def isBlankLine (line : Span) : Bool :=
  (Text.trim line.text).isEmpty

/-- A line that opens or closes a metadata block, but for blanks. -/
def isFence (text : List Char) : Bool :=
  text = ['-', '-', '-']

/-- Whether a text may be a key inside a metadata block. -/
def isMetadataKey (key : List Char) : Bool :=
  !key.isEmpty && key.head? ≠ some '@'
    && key.all fun c => Text.isNameChar c || c = '-' || c = '.'

/-- The key and the value of a line inside a metadata block. -/
def blockEntry? (line : List Char) : Option (List Char × List Char) := do
  let (key, value) ← Text.splitOnce? ':' line
  let key := Text.trim key
  if isMetadataKey key then some (key, Text.trim value) else none

/-- The key and the value of a line `@key: value`. -/
def markedEntry? : List Char → Option (List Char × List Char)
  | '@' :: first :: rest =>
    let continues (c : Char) := Text.isWordChar c || c = '.' || c = '-'
    match Text.isPlainNameStart first, rest.dropWhile continues with
    | true, ':' :: value => some (first :: rest.takeWhile continues, Text.trim value)
    | _, _ => none
  | _ => none

/-- Whether a line starts like `@key:` without being an entry: an at sign, and a colon before the
first blank. -/
def looksMarked : List Char → Bool
  | '@' :: rest => (rest.takeWhile fun c => !Text.isBlank c).contains ':'
  | _ => false

/-- Reads a metadata block up to its closing fence. The result is the metadata and the offset behind
the fence. -/
def readBlock (opening : Nat) (metadata : Metadata) : List Span → Except Fault (Metadata × Nat)
  | [] => .error ⟨.unclosedMetadata, opening⟩
  | line :: rest =>
    let content := Text.trim line.text
    -- The body starts behind the newline of the fence.
    if isFence content then .ok (metadata, line.finish + 1)
    else if content.isEmpty then readBlock opening metadata rest
    else match blockEntry? content with
      | some (key, value) => readBlock opening (metadata.insert (.ofList key) (.ofList value)) rest
      | none => line.fault (.malformedMetadata (.ofList content))

/-- Reads lines `@key: value` up to the first other line. The result is the metadata and the offset
of that line. -/
def readMarked (metadata : Metadata) (finish : Nat) : List Span → Except Fault (Metadata × Nat)
  | [] => .ok (metadata, finish)
  | line :: rest =>
    let content := Text.trimEndOf (· = '\r') line.text
    match markedEntry? content with
    | some (key, value) =>
      readMarked (metadata.insert (.ofList key) (.ofList value)) (line.finish + 1) rest
    | none =>
      if looksMarked content then line.fault (.malformedMetadata (.ofList content))
      else .ok (metadata, line.start)

/-- The metadata of a source and the offset at which its body starts. Blank lines may come first. -/
def readPreamble (source : List Char) : Except Fault (Metadata × Nat) :=
  match (physicalLines source).dropWhile isBlankLine with
  | [] => .ok (.empty, source.length)
  | first :: rest =>
    if isFence (Text.trimEnd first.text) then readBlock first.start .empty rest
    else readMarked .empty first.start (first :: rest)

end PromptScript.Source
