import PromptScript.Proofs.Source.Alike.Directive
import PromptScript.Proofs.Source.Bytes.Marker
import PromptScript.Proofs.Source.Bytes.TextBlock

/-!
Directives and imports read by bytes. The parts of a directive are matched in its text, and stand in the
source where the text does.
-/
namespace PromptScript.Source.Bytes

open Text
open Command (byteLength)

/-- Where a part of a text stands that starts at an offset. The part counts the characters of the text. -/
def partAt (offset : Nat) (text : List Char) (part : Span) : ByteSpan :=
  ⟨offset + byteOffset text part.start, offset + byteOffset text part.finish⟩

/-- The arguments of a call, between commas. -/
def readArguments (source : List Char) (s : ByteSpan) : Checked (List Expr) := do
  let text ← s.text source
  if (trim text).isEmpty then return []
  else
    let parts ← s.splitTopLevel source (· = ',')
    parts.mapM (readExpr source)

def readEffect (source : List Char) (s : ByteSpan) : Checked Effect := do
  let text ← s.text source
  let malformed := fault s.start (.malformedDirective (.ofList text))
  match (Span.mk 0 text).afterKeyword? ['@', 'e', 'f', 'f', 'e', 'c', 't'] with
  | none => malformed
  | some action =>
    if action.text = ['r', 'u', 'n'] then return .run
    else match clearEffect? action with
      | some effect => return effect
      | none =>
        match callParts? action with
        | some (name, arguments, target) =>
          let args ← readArguments source (partAt s.start text arguments)
          return .call (.ofList name) args (target.map .ofList)
        | none =>
          match (toolNames? action).bind readNames? with
          | some names => return .registerTools names
          | none => malformed

/-- Reads a line that starts with an at sign. -/
def readDirective (source : List Char) (s : ByteSpan) : Checked Node := do
  let text ← s.text source
  -- The at sign takes one byte.
  let behind ← require (slice text 1 (byteLength text))
  let name := behind.takeWhile isNameChar
  if name = ['s', 't', 'a', 't', 'e'] then
    match stateParts? ⟨0, text⟩ with
    | some (name, value) =>
      let e ← readExpr source (partAt s.start text value)
      return .stateAssign (.ofList name) e
    | none => fault s.start (.malformedDirective (.ofList text))
  else if name = ['e', 'f', 'f', 'e', 'c', 't'] then
    let effect ← readEffect source s
    return .effect effect
  else fault s.start (.unknownDirective (.ofList name))

/-- Reads an import. A line that only resembles one is none. -/
def readImport (source : List Char) (s : ByteSpan) : Checked (Option Node) := do
  let text ← s.text source
  ExceptT.mk (some (Source.readImport ⟨s.start, text⟩))

variable {source : List Char} {r : ByteSpan} {s t u : Span} {n : Nat}

/-! ### Parts -/

/-- What is left of a span behind some of its characters. -/
def IsRest (s t : Span) : Prop :=
  ∃ n ≤ s.text.length, t = s.drop n

namespace IsRest

theorem refl (s : Span) : IsRest s s :=
  ⟨0, Nat.zero_le _, rfl⟩

theorem drop (h : IsRest s t) (within : n ≤ t.text.length) : IsRest s (t.drop n) := by
  obtain ⟨m, inside, rfl⟩ := h
  rw [Span.text_drop, List.length_drop] at within
  exact ⟨m + n, by omega, Span.drop_drop s m n⟩

theorem trimStart (h : IsRest s t) : IsRest s t.trimStart :=
  h.drop (List.takeWhile_prefix isBlank).length_le

theorem drop_word (h : IsRest s t) : IsRest s (t.drop t.word.length) :=
  h.drop (List.takeWhile_prefix isNameChar).length_le

theorem afterKeyword? (h : IsRest s t) {keyword : List Char} (found : t.afterKeyword? keyword = some u) :
    IsRest s u := by
  unfold Span.afterKeyword? at found
  simp only at found
  split at found
  · next starts =>
    cases found
    exact (h.drop (List.isPrefixOf_iff_prefix.mp starts.1).length_le).trimStart
  · cases found

end IsRest

theorem length_leadingName? {text name : List Char} (h : leadingName? text = some name) :
    name.length ≤ text.length := by
  unfold leadingName? at h
  split at h
  · split at h
    · cases h
      exact Nat.succ_le_succ (List.takeWhile_prefix isWordChar).length_le
    · cases h
  · cases h

theorem one_le_of_head? {text : List Char} {c : Char} (h : text.head? = some c) : 1 ≤ text.length := by
  obtain ⟨rest, rfl⟩ := List.head?_eq_some_iff.mp h
  exact Nat.succ_le_succ (Nat.zero_le _)

theorem stateParts?_rest {name : List Char} {value : Span} (h : stateParts? s = some (name, value)) :
    IsRest s value := by
  unfold stateParts? at h
  obtain ⟨t, after, h⟩ := Option.bind_eq_some_iff.mp h
  obtain ⟨found, named, h⟩ := Option.bind_eq_some_iff.mp h
  have behind := (((IsRest.refl s).afterKeyword? after).drop (length_leadingName? named)).trimStart
  simp only at h
  split at h
  · next equals =>
    split at h
    · cases h
      exact (behind.drop (one_le_of_head? equals)).trimStart
    · cases h
  · cases h

theorem callParts?_rest (rest : IsRest s t) {name : List Char} {arguments : Span}
    {target : Option (List Char)} (h : callParts? t = some (name, arguments, target)) :
    ∃ u, IsRest s u ∧ ∃ m ≤ u.text.length, arguments = u.take m := by
  unfold callParts? at h
  obtain ⟨u, after, h⟩ := Option.bind_eq_some_iff.mp h
  obtain ⟨found, named, h⟩ := Option.bind_eq_some_iff.mp h
  -- Up to the parenthesis everything is cut off in front; the arguments end at the last one that closes.
  have behind := ((rest.afterKeyword? after).drop (length_leadingName? named)).trimStart
  simp only at h
  split at h
  · next paren =>
    have inner := behind.drop (one_le_of_head? paren)
    obtain ⟨⟨front, back⟩, split, h⟩ := Option.bind_eq_some_iff.mp h
    obtain ⟨target, _, h⟩ := Option.bind_eq_some_iff.mp h
    simp only at h
    split at h
    · cases h
    · cases h
      refine ⟨_, inner, front.length, ?_, rfl⟩
      rw [eq_of_splitLast? split, List.length_append]
      exact Nat.le_add_right _ _
  · cases h

/-- A part that is matched in the text of a span stands where it does in the span. -/
theorem Stands.partAt (h : Stands source r s) (rest : IsRest s t) {m : Nat} (within : m ≤ t.text.length)
    {part : Span} (moved : Moved (fun k n => k ≤ s.text.length ∧ n = s.start + k) .plain part (t.take m)) :
    Stands source (partAt r.start s.text part) (t.take m) := by
  obtain ⟨n, inside, rfl⟩ := rest
  have start : part.start = n := by
    have := moved.start.2
    simp only [Span.take, Span.drop] at this
    omega
  have finish : part.finish = n + m := by
    rw [Span.finish, start, ← moved.plain_text, Span.text_take, List.length_take_of_le within]
  have stands := (h.drop inside).take within
  rw [Bytes.partAt, start, finish, byteOffset_add, ← Nat.add_assoc]
  exact stands

theorem Span.take_length (s : Span) : s.take s.text.length = s := by
  rw [Span.take, List.take_length]

/-! ### Directives -/

theorem readArguments_follows (h : Stands source r s) :
    Follows source Eq (readArguments source r) (Source.readArguments s) := by
  rw [readArguments, h.text_eq, pure_bind, Source.readArguments]
  split
  · exact .ok rfl
  · obtain ⟨parts, split, stands⟩ := h.splitTopLevel (· = ',')
    rw [split, pure_bind]
    refine (Follows.mapM stands fun _ _ => readExpr_follows).mono fun args args' all => ?_
    rwa [List.forall₂_eq_eq_eq] at all

theorem readEffect_follows (h : Stands source r s) :
    Follows source Eq (readEffect source r) (Source.readEffect s) := by
  have malformed : Follows source (Eq (α := Effect))
      (fault r.start (.malformedDirective (.ofList s.text)))
      (s.fault (.malformedDirective (.ofList s.text))) := h.fault _
  -- The parts are matched once in the text, from its first character on, and once in the span.
  have action := afterKeyword?_alike (moved_index s) ['@', 'e', 'f', 'f', 'e', 'c', 't'] rfl
  rw [readEffect, h.text_eq, pure_bind, Source.readEffect]
  generalize found : (Span.mk 0 s.text).afterKeyword? ['@', 'e', 'f', 'f', 'e', 'c', 't'] = here at action
  generalize found' : s.afterKeyword? ['@', 'e', 'f', 'f', 'e', 'c', 't'] = there at action
  cases action with
  | none => exact malformed
  | @some t t' moved =>
    simp only [← moved.plain_text, clearEffect?_alike moved, toolNames?_alike moved]
    split
    · exact .ok rfl
    cases clearEffect? t' with
    | some effect => exact .ok rfl
    | none =>
      have call := callParts?_alike moved
      generalize callParts? t = parts at call
      generalize there : callParts? t' = parts' at call
      cases call with
      | none =>
        simp only
        cases (toolNames? t').bind readNames? with
        | none => exact malformed
        | some names => exact .ok rfl
      | @some parts parts' same =>
        obtain ⟨name, arguments, target⟩ := parts
        obtain ⟨name', arguments', target'⟩ := parts'
        obtain ⟨rfl, rfl, same, -⟩ := same
        obtain ⟨u, rest, m, within, rfl⟩ :=
          callParts?_rest ((IsRest.refl s).afterKeyword? found') there
        exact (readArguments_follows (h.partAt rest within same)).bind fun args args' same =>
          .ok (by rw [same])

theorem readDirective_follows (h : Stands source r s) (starts : Lead.ofText s.text = .directive) :
    Follows source Eq (readDirective source r) (Source.readDirective s) := by
  obtain ⟨inner, text⟩ := exists_of_directive starts
  have name : slice s.text 1 (byteLength s.text) = some (s.drop 1).text := by
    rw [Span.text_drop, text]
    exact slice_behind ['@'] inner
  rw [readDirective, h.text_eq, pure_bind, name, require_some, pure_bind, Source.readDirective]
  have word : (s.drop 1).text.takeWhile isNameChar = (s.drop 1).word := rfl
  simp only [word]
  split
  · have parts := stateParts?_alike (moved_index s)
    generalize stateParts? ⟨0, s.text⟩ = here at parts
    generalize there : stateParts? s = found at parts
    cases parts with
    | none => exact h.fault _
    | @some parts parts' same =>
      obtain ⟨name, value⟩ := parts
      obtain ⟨name', value'⟩ := parts'
      obtain ⟨rfl, moved, -⟩ := same
      have rest := stateParts?_rest there
      rw [← Span.take_length value'] at moved
      have stands := h.partAt rest (Nat.le_refl _) moved
      rw [Span.take_length] at stands
      exact (readExpr_follows stands).bind fun e e' same => .ok (by rw [same])
  split
  · exact (readEffect_follows h).bind fun e e' same => .ok (by rw [same])
  · exact h.fault _

theorem readImport_follows (h : Stands source r s) :
    Follows source Eq (readImport source r) (Source.readImport s) := by
  rw [readImport, h.text_eq, pure_bind]
  have same : Moved (fun _ _ => True) .plain ⟨r.start, s.text⟩ s := .same rfl
  refine .of_related ?_
  rw [Source.readImport, fromParts?_alike same, importSource?_alike same, Source.readImport]
  split
  · split
    · exact .ok rfl
    · exact .error ⟨rfl, h.start⟩
  · exact .ok rfl

end PromptScript.Source.Bytes
