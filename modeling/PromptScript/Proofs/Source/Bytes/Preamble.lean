import PromptScript.Proofs.Source.Bytes.Line

/-!
The preamble read by bytes. The body of a source starts behind the newline of the last line of its metadata.
Where carriage returns stand in front of that newline, it starts behind the first of them instead; that makes
no difference, as there is only a blank line more.
-/
namespace PromptScript.Source.Bytes

open Text
open Command (byteLength)

/-- Consecutive lines, of which the first starts at an offset. -/
def lineSpans (offset : Nat) : List (List Char) → List Span
  | [] => []
  | line :: rest => ⟨offset, line⟩ :: lineSpans (offset + byteLength line + 1) rest

/-- Reads a metadata block up to its closing fence. The result is the metadata and the offset behind the
fence, which is at most `finish`. -/
def readBlock (finish opening : Nat) (metadata : Metadata) : List Span → Checked (Metadata × Nat)
  | [] => fault opening .unclosedMetadata
  | line :: rest =>
    let content := trim line.text
    if isFence content then return (metadata, min (line.start + byteLength line.text + 1) finish)
    else if content.isEmpty then readBlock finish opening metadata rest
    else match blockEntry? content with
      | some (key, value) => readBlock finish opening (metadata.insert (.ofList key) (.ofList value)) rest
      | none => fault line.start (.malformedMetadata (.ofList content))

/-- Reads lines `@key: value` up to the first other line. The result is the metadata and the offset of that
line, or the offset behind the last line. -/
def readMarked (finish : Nat) (metadata : Metadata) (behind : Nat) : List Span → Checked (Metadata × Nat)
  | [] => return (metadata, behind)
  | line :: rest =>
    let content := trimEndOf (· = '\r') line.text
    match markedEntry? content with
    | some (key, value) =>
      let behind := min (line.start + byteLength content + 1) finish
      readMarked finish (metadata.insert (.ofList key) (.ofList value)) behind rest
    | none =>
      if looksMarked content then fault line.start (.malformedMetadata (.ofList content))
      else return (metadata, line.start)

def readPreamble (source : List Char) : Checked (Metadata × Nat) :=
  match (lineSpans 0 (pieces (· = '\n') source)).dropWhile isBlankLine with
  | [] => return (.empty, byteLength source)
  | first :: rest =>
    if isFence (trimEnd first.text) then readBlock (byteLength source) first.start .empty rest
    else readMarked (byteLength source) .empty first.start (first :: rest)

variable {source text tail : List Char} {line line' : Span} {lines lines' : List Span} {offset n m : Nat}
  {metadata : Metadata}

/-! ### Physical lines -/

/-- A line that is found by bytes where it is found by characters. -/
structure SamePhysical (source : List Char) (line line' : Span) : Prop where
  text : line.text = line'.text
  start : SamePlace source line.start line'.start
  stands : ∃ tail, source.drop line'.start = line'.text ++ tail ∧ EndsLine tail

theorem lineSpans_follows (h : source.drop n = text) :
    List.Forall₂ (SamePhysical source) (lineSpans (byteOffset source n) (pieces (· = '\n') text))
      (physicalLinesFrom n text) := by
  induction size : text.length using Nat.strongRecOn generalizing text n with
  | ind size ih =>
    subst size
    obtain ⟨line, tail, rfl, single, ends⟩ := exists_line text
    have here : SamePhysical source ⟨byteOffset source n, line⟩ ⟨n, line⟩ := ⟨rfl, rfl, tail, h, ends⟩
    cases tail with
    | nil =>
      rw [List.append_nil, physicalLinesFrom_single single, pieces_of_forall (ne_newline_of_mem single)]
      exact .cons here .nil
    | cons c rest =>
      obtain rfl := ends c rfl
      have behind : source.drop (n + line.length + 1) = rest := by
        rw [← List.drop_drop, ← List.drop_drop, h, List.drop_left]
        rfl
      have offset : byteOffset source n + byteLength line + 1 = byteOffset source (n + line.length + 1) := by
        rw [byteOffset_add, byteOffset_add, h, byteOffset_append, ← List.drop_drop, h, List.drop_left]
        rfl
      have shorter : rest.length < (line ++ '\n' :: rest).length := by
        rw [List.length_append, List.length_cons]
        omega
      rw [physicalLinesFrom_newline single, pieces_append_cons (ne_newline_of_mem single) (by decide),
        lineSpans, offset]
      exact .cons here (ih _ shorter behind rfl)

/-! ### The start of the body -/

/-- A body whose lines are found by bytes where they are found by characters. -/
def Begins (source : List Char) (offset n : Nat) : Prop :=
  ∃ m, At source offset m ∧
    Source.logicalLines ⟨m, source.drop m⟩ = Source.logicalLines ⟨n, source.drop n⟩

theorem At.begins (h : At source offset n) : Begins source offset n :=
  ⟨n, h, rfl⟩

theorem At.min (h : At source offset n) : At source (min offset (byteLength source)) n := by
  rcases h with rfl | ⟨behind, reached⟩
  · have inside := byteOffset_mono source (Nat.le_max_left n source.length)
    rw [byteOffset_of_length_le (Nat.le_max_right n _)] at inside
    exact .inl (Nat.min_eq_left inside)
  · exact .inr ⟨(Nat.min_eq_right behind).ge, reached⟩

namespace SamePhysical

theorem finish (h : SamePhysical source line line') :
    At source (line.start + byteLength line.text + 1) (line'.finish + 1) := by
  obtain ⟨tail, behind, ends⟩ := h.stands
  have offset : line.start + byteLength line.text = byteOffset source line'.finish := by
    rw [h.start, h.text, Span.finish, byteOffset_add, behind, byteOffset_append]
  rw [offset]
  refine .of_endsLine ?_
  rwa [Span.finish, ← List.drop_drop, behind, List.drop_left]

/-- Carriage returns at the end of a line make no more than a blank line. -/
theorem begins (h : SamePhysical source line line') :
    Begins source (line.start + byteLength (trimEndOf (· = '\r') line.text) + 1) (line'.finish + 1) := by
  obtain ⟨tail, behind, ends⟩ := h.stands
  obtain ⟨returns, split, all⟩ := exists_trimEndOf (· = '\r') line.text
  generalize trimEndOf (· = '\r') line.text = content at split ⊢
  cases returns with
  | nil =>
    rw [List.append_nil] at split
    rw [← split]
    exact h.finish.begins
  | cons c more =>
    -- The body starts behind the first carriage return, and the others are a line of blanks.
    obtain rfl : c = '\r' := of_decide_eq_true (all c List.mem_cons_self)
    have rest : source.drop (line'.start + content.length) = '\r' :: (more ++ tail) := by
      rw [← List.drop_drop, behind, ← h.text, split, List.append_assoc, List.drop_left, List.cons_append]
    have offset : line.start + byteLength content + 1 =
        byteOffset source (line'.start + content.length + 1) := by
      rw [byteOffset_add, byteOffset_add, rest, h.start, behind, ← h.text, split, List.append_assoc,
        byteOffset_append]
      rfl
    have blank : ∀ c ∈ more, isBlank c = true := by
      intro c member
      rw [of_decide_eq_true (all c (List.mem_cons_of_mem _ member))]
      decide
    have single : '\n' ∉ more := fun member => by
      simpa using all '\n' (List.mem_cons_of_mem _ member)
    have silent : isSilent (contentOf more) = true :=
      isSilent_of_blank fun c member => blank c ((List.dropWhile_suffix isIndent).mem member)
    have place : line'.finish + 1 = line'.start + content.length + 1 + more.length + 1 := by
      rw [Span.finish, ← h.text, split, List.length_append, List.length_cons]
      omega
    have after : source.drop (line'.start + content.length + 1) = more ++ tail := by
      rw [← List.drop_drop, rest]
      rfl
    refine ⟨line'.start + content.length + 1, .inl offset, ?_⟩
    rw [after, logicalLines_silent single ends silent, place, ← List.drop_drop, ← List.drop_drop, after,
      List.drop_left]

end SamePhysical

theorem Begins.min (h : Begins source offset n) : Begins source (min offset (byteLength source)) n := by
  obtain ⟨m, place, same⟩ := h
  exact ⟨m, place.min, same⟩

/-! ### Metadata -/

/-- The same metadata, and the same body behind it. -/
def SamePreamble (source : List Char) (found found' : Metadata × Nat) : Prop :=
  found.1 = found'.1 ∧ Begins source found.2 found'.2

theorem readBlock_follows {opening opening' : Nat} (start : SamePlace source opening opening')
    (h : List.Forall₂ (SamePhysical source) lines lines') (metadata : Metadata) :
    Follows source (SamePreamble source) (readBlock (byteLength source) opening metadata lines)
      (Source.readBlock opening' metadata lines') := by
  induction h generalizing metadata with
  | nil => exact .fault _ start
  | @cons line line' rest rest' here _ ih =>
    have behind := here.finish.min.begins
    rw [here.text] at behind
    rw [readBlock, Source.readBlock, here.text]
    split
    · exact .ok ⟨rfl, behind⟩
    split
    · exact ih metadata
    · cases blockEntry? (trim line'.text) with
      | some entry => exact ih _
      | none => exact .fault _ here.start

theorem readMarked_follows (begins : Begins source offset n)
    (h : List.Forall₂ (SamePhysical source) lines lines') (metadata : Metadata) :
    Follows source (SamePreamble source) (readMarked (byteLength source) metadata offset lines)
      (Source.readMarked metadata n lines') := by
  induction h generalizing metadata offset n with
  | nil => exact .ok ⟨rfl, begins⟩
  | @cons line line' rest rest' here _ ih =>
    have behind := here.begins.min
    rw [here.text] at behind
    rw [readMarked, Source.readMarked, here.text]
    cases markedEntry? (trimEndOf (· = '\r') line'.text) with
    | some entry => exact ih behind _
    | none =>
      simp only
      split
      · exact .fault _ here.start
      · exact .ok ⟨rfl, At.begins (.inl here.start)⟩

/-- The metadata that is read by bytes is what is read by characters. -/
theorem readPreamble_follows (source : List Char) :
    Follows source (SamePreamble source) (readPreamble source) (Source.readPreamble source) := by
  have lines : List.Forall₂ (SamePhysical source) (lineSpans 0 (pieces (· = '\n') source))
      (physicalLines source) := byteOffset_zero source ▸ lineSpans_follows List.drop_zero
  have visible := forall₂_dropWhile (p := isBlankLine) (q := isBlankLine)
    (fun line line' same => by rw [isBlankLine, isBlankLine, same.text]) lines
  rw [readPreamble, Source.readPreamble]
  generalize (lineSpans 0 _).dropWhile isBlankLine = lines,
    (physicalLines source).dropWhile isBlankLine = lines' at visible
  cases visible with
  | nil => exact .ok ⟨rfl, At.begins (.inl (byteOffset_of_length_le (Nat.le_refl _)).symm)⟩
  | @cons first first' rest rest' here others =>
    simp only [here.text]
    split
    · exact readBlock_follows here.start others _
    · exact readMarked_follows (At.begins (.inl here.start)) (.cons here others) _

end PromptScript.Source.Bytes
