import PromptScript.Proofs.Text.Slice
import PromptScript.Proofs.Text.Span

/-!
Templates of command lines that are written from their parts: texts, in which braces are doubled, and
names in braces, which may have blanks around them. Expanding one gives the texts and the values of
the names as they are, or the first name that has no value and where it stands.
-/
namespace PromptScript.Command

open Text

/-- A name with blanks around it, as it stands between braces. Another brace in front would be taken
for one that is doubled. -/
structure Placeholder where
  before : List Char
  name : List Char
  behind : List Char
  blankBefore : ∀ c ∈ before, isBlank c = true
  blankBehind : ∀ c ∈ behind, isBlank c = true
  nonempty : name ≠ []
  trimmed : trim name = name
  unclosed : '}' ∉ name
  undoubled : name.head? ≠ some '{'

inductive Piece
  | literal (text : List Char)
  | placeholder (p : Placeholder)

/-- A text with its braces doubled. -/
def escape (text : List Char) : List Char :=
  text.flatMap fun c => if c = '{' ∨ c = '}' then [c, c] else [c]

def Placeholder.inside (p : Placeholder) : List Char :=
  p.before ++ p.name ++ p.behind

namespace Piece

/-- A piece as it is written in a template. -/
def source : Piece → List Char
  | .literal text => escape text
  | .placeholder p => '{' :: (p.inside ++ ['}'])

/-- Whether a piece names nothing that has no value. -/
def IsKnown (values : List (String × String)) : Piece → Prop
  | .literal _ => True
  | .placeholder p => (values.lookup (.ofList p.name)).isSome

/-- What a piece stands for. -/
def text (values : List (String × String)) : Piece → List Char
  | .literal text => text
  | .placeholder p => ((values.lookup (.ofList p.name)).getD "").toList

end Piece

def writePieces (pieces : List Piece) : List Char :=
  pieces.flatMap Piece.source

variable {values : List (String × String)} {text rest : List Char} {c : Char} {p : Placeholder}
  {pieces : List Piece}

/-! ### One piece in front of more -/

theorem expandFrom_doubled (brace : c = '{' ∨ c = '}') (position : Nat) (rest : List Char) :
    expandFrom values position (c :: c :: rest) =
      (expandFrom values (position + byteLength [c, c]) rest).map (c :: ·) := by
  rcases brace with rfl | rfl
  · have two : byteLength ['{', '{'] = 2 := by decide
    rw [expandFrom, two]
    cases expandFrom values (position + 2) rest <;> rfl
  · have two : byteLength ['}', '}'] = 2 := by decide
    rw [expandFrom, two]
    cases expandFrom values (position + 2) rest <;> rfl

theorem expandFrom_other (plain : ¬(c = '{' ∨ c = '}')) (position : Nat) (rest : List Char) :
    expandFrom values position (c :: rest) =
      (expandFrom values (position + byteLength [c]) rest).map (c :: ·) := by
  rw [not_or] at plain
  have size : byteLength [c] = c.utf8Size := byteLength_cons c []
  rw [expandFrom, size]
  · cases expandFrom values (position + c.utf8Size) rest <;> rfl
  · exact fun _ same => absurd same plain.1
  · exact fun _ same => absurd same plain.2
  · exact fun same => absurd same plain.1

theorem expandFrom_escape (text : List Char) (position : Nat) (rest : List Char) :
    expandFrom values position (escape text ++ rest) =
      (expandFrom values (position + byteLength (escape text)) rest).map (text ++ ·) := by
  induction text generalizing position with
  | nil =>
    change expandFrom values position rest = (expandFrom values (position + 0) rest).map id
    rw [Except.map_id]
    rfl
  | cons c more ih =>
    have later (front : List Char)
        (here : ∀ position rest, expandFrom values position (front ++ rest) =
          (expandFrom values (position + byteLength front) rest).map (c :: ·)) :
        expandFrom values position (front ++ (escape more ++ rest)) =
          (expandFrom values (position + byteLength (front ++ escape more)) rest).map
            (c :: more ++ ·) := by
      rw [here, ih, byteLength_append, Nat.add_assoc]
      cases expandFrom values (position + (byteLength front + byteLength (escape more))) rest <;> rfl
    by_cases brace : c = '{' ∨ c = '}'
    · have doubled : escape (c :: more) = [c, c] ++ escape more := by simp [escape, brace]
      rw [doubled, List.append_assoc]
      exact later [c, c] fun position rest => expandFrom_doubled brace position rest
    · have single : escape (c :: more) = [c] ++ escape more := by simp [escape, brace]
      rw [single, List.append_assoc]
      exact later [c] fun position rest => expandFrom_other brace position rest

/-- Blanks are no braces, so that the first brace behind a name closes it. -/
theorem Placeholder.closed (p : Placeholder) : ∀ c ∈ p.inside, c ≠ '}' := by
  have noBlank {blanks : List Char} (blank : ∀ c ∈ blanks, isBlank c = true) :
      ∀ c ∈ blanks, c ≠ '}' := by
    rintro _ member rfl
    exact absurd (blank _ member) (by decide)
  intro c member
  rcases List.mem_append.mp member with front | behind
  · rcases List.mem_append.mp front with before | name
    · exact noBlank p.blankBefore c before
    · rintro rfl
      exact p.unclosed name
  · exact noBlank p.blankBehind c behind

/-- Between the braces of a name stands something, and no other brace first. -/
theorem Placeholder.exists_inside (p : Placeholder) :
    ∃ c more, p.inside = c :: more ∧ c ≠ '{' := by
  obtain ⟨before, name, behind, blank, _, nonempty, _, _, undoubled⟩ := p
  cases before with
  | cons c more =>
    refine ⟨c, more ++ name ++ behind, rfl, ?_⟩
    rintro rfl
    exact absurd (blank _ List.mem_cons_self) (by decide)
  | nil =>
    obtain ⟨c, more, rfl⟩ := List.exists_cons_of_ne_nil nonempty
    refine ⟨c, more ++ behind, rfl, ?_⟩
    rintro rfl
    exact undoubled rfl

theorem Placeholder.trim_inside (p : Placeholder) : trim p.inside = p.name := by
  have dropped : (p.before ++ p.name).dropWhile isBlank = p.name.dropWhile isBlank :=
    List.dropWhile_append_of_pos p.blankBefore
  calc trim p.inside
    _ = trim (p.before ++ p.name) := trim_append_of_blank p.blankBehind _
    _ = trim p.name := by rw [trim, trimStart, dropped, trim, trimStart]
    _ = p.name := p.trimmed

/-- What a name in braces does, whether or not it has a value. -/
theorem expandFrom_placeholder (p : Placeholder) (position : Nat) (rest : List Char) :
    expandFrom values position ((Piece.placeholder p).source ++ rest) =
      match values.lookup (.ofList p.name) with
      | none => .error (.unknownPlaceholder (.ofList p.name) position)
      | some value =>
        (expandFrom values (position + byteLength (Piece.placeholder p).source) rest).map
          (value.toList ++ ·) := by
  have split : (Piece.placeholder p).source ++ rest = '{' :: (p.inside ++ '}' :: rest) := by
    simp [Piece.source]
  have size : byteLength (Piece.placeholder p).source = byteLength p.inside + 2 := by
    have opening : Char.utf8Size '{' = 1 := by decide
    have closing : byteLength ['}'] = 1 := by decide
    rw [Piece.source, byteLength_cons, byteLength_append, opening, closing]
    omega
  have taken : (p.inside ++ '}' :: rest).takeWhile (· ≠ '}') = p.inside := by
    refine takeWhile_append_of_bars (fun c member => ?_) (bars_cons (by decide))
    exact decide_eq_true (p.closed c member)
  have behind : (p.inside ++ '}' :: rest).drop (p.inside.length + 1) = rest := by
    rw [← List.drop_drop, List.drop_left]
    rfl
  have within : p.inside.length < (p.inside ++ '}' :: rest).length := by simp
  have named : p.name.isEmpty = false := by simpa using p.nonempty
  rw [split, expandFrom]
  · simp only [taken, dif_pos within, p.trim_inside, named, Bool.false_eq_true, if_false, behind, size]
    cases values.lookup (String.ofList p.name) with
    | none => rfl
    | some value =>
      dsimp only
      rw [← Nat.add_assoc]
      cases expandFrom values (position + byteLength p.inside + 2) rest <;> rfl
  · obtain ⟨c, more, inside, other⟩ := p.exists_inside
    rw [inside]
    intro _ same
    exact other (List.cons.inj same).1

/-! ### Pieces -/

theorem expandFrom_known {piece : Piece} (known : piece.IsKnown values) (position : Nat)
    (rest : List Char) : expandFrom values position (piece.source ++ rest) =
      (expandFrom values (position + byteLength piece.source) rest).map (piece.text values ++ ·) := by
  cases piece with
  | literal text => exact expandFrom_escape text position rest
  | placeholder p =>
    obtain ⟨value, found⟩ := Option.isSome_iff_exists.mp known
    rw [expandFrom_placeholder, Piece.text, found]
    rfl

/-- Pieces without unknown names leave the rest to itself. -/
theorem expandFrom_pieces (known : ∀ piece ∈ pieces, piece.IsKnown values) (position : Nat)
    (rest : List Char) : expandFrom values position (writePieces pieces ++ rest) =
      (expandFrom values (position + byteLength (writePieces pieces)) rest).map
        (pieces.flatMap (Piece.text values) ++ ·) := by
  induction pieces generalizing position with
  | nil =>
    change expandFrom values position rest = (expandFrom values (position + 0) rest).map id
    rw [Except.map_id]
    rfl
  | cons piece others ih =>
    obtain ⟨here, later⟩ := List.forall_mem_cons.mp known
    have first : writePieces (piece :: others) = piece.source ++ writePieces others :=
      List.flatMap_cons
    rw [first, List.append_assoc, expandFrom_known here, ih later, byteLength_append, Nat.add_assoc,
      List.flatMap_cons]
    cases expandFrom values (position + (byteLength piece.source + byteLength (writePieces others))) rest
      with
    | error e => rfl
    | ok text => exact congrArg Except.ok (List.append_assoc ..).symm

/-- A template that is written from pieces stands for their texts, one behind the other: a value takes
the place of its name and is not looked at again. If some names have no value, it fails at the first
of them, where its brace opens. -/
theorem expand_pieces (values : List (String × String)) (pieces : List Piece) :
    ((∀ piece ∈ pieces, piece.IsKnown values) →
      expand values (.ofList (writePieces pieces)) =
        .ok (.ofList (pieces.flatMap (Piece.text values)))) ∧
    ∀ front p behind, pieces = front ++ .placeholder p :: behind →
      (∀ piece ∈ front, piece.IsKnown values) → values.lookup (.ofList p.name) = none →
      expand values (.ofList (writePieces pieces)) =
        .error (.unknownPlaceholder (.ofList p.name)
          (String.ofList (writePieces front)).utf8ByteSize) := by
  constructor
  · intro known
    have expanded := expandFrom_pieces known 0 []
    rw [List.append_nil, expandFrom] at expanded
    rw [expand, String.toList_ofList, expanded]
    simp [Except.map]
  · rintro front p behind rfl known missing
    have split : writePieces (front ++ .placeholder p :: behind) =
        writePieces front ++ ((Piece.placeholder p).source ++ writePieces behind) := by
      simp [writePieces]
    rw [expand, String.toList_ofList, split, expandFrom_pieces known, expandFrom_placeholder, missing,
      Nat.zero_add]
    rfl

end PromptScript.Command
