import PromptScript.Proofs.Source.Alike.Marker
import PromptScript.Proofs.Source.Bytes.Token

/-!
Include markers read by bytes. The brackets that close a marker are looked for in all that follows in the
source, so that what stands behind the line of the marker counts.
-/
namespace PromptScript.Source.Bytes

open Text
open Command (byteLength)

/-- The offset of the first `]]` outside quotes. Whether it starts at an offset is seen in the source, which
goes on behind the characters that are gone through. -/
def includeEnd (source : List Char) (quote : Option Char) (offset : Nat) :
    List Char → Checked (Option Nat)
  | [] => pure none
  | c :: rest =>
    match quote with
    | some q => includeEnd source (if c = q then none else some q) (offset + c.utf8Size) rest
    | none =>
      if isQuote c then includeEnd source (some c) (offset + c.utf8Size) rest
      else do
        let behind ← require (slice source offset (byteLength source))
        if [']', ']'].isPrefixOf behind then return some offset
        else includeEnd source none (offset + c.utf8Size) rest

/-- The parts of a text between separators outside brackets and quotes. The text goes on at an offset and
up to `stop`, and the part that is under way started at `first`. -/
def splitTopLevel (separates : Char → Bool) (stop : Nat) (depth : Int) (quote : Option Char)
    (first offset : Nat) : List Char → List ByteSpan
  | [] => [⟨first, stop⟩]
  | c :: rest =>
    let behind := offset + c.utf8Size
    match quote with
    | some q => splitTopLevel separates stop depth (if c = q then none else some q) first behind rest
    | none =>
      if isQuote c then splitTopLevel separates stop depth (some c) first behind rest
      else if bracketStep c = 0 ∧ depth = 0 ∧ separates c then
        ⟨first, offset⟩ :: splitTopLevel separates stop depth none behind behind rest
      else splitTopLevel separates stop (depth + bracketStep c) none first behind rest

/-- The parts of a span between separators outside brackets and quotes. -/
def ByteSpan.splitTopLevel (source : List Char) (s : ByteSpan) (separates : Char → Bool) :
    Checked (List ByteSpan) := do
  let text ← s.text source
  return Bytes.splitTopLevel separates s.stop 0 none s.start s.start text

def readIncludePath (source : List Char) (s : ByteSpan) : Checked IncludePath := do
  let word ← s.text source
  ExceptT.mk (some (Source.readIncludePath ⟨s.start, word⟩))

def readBinding (source : List Char) (s : ByteSpan) : Checked (String × Expr) := do
  let word ← s.text source
  match splitOnce? '=' word with
  | some (key, value) =>
    if isIdentifier key ∧ value ≠ [] then
      let e ← readExpr source ⟨s.start + byteLength key + 1, s.stop⟩
      return (.ofList key, e)
    else fault s.start (.malformedBinding (.ofList word))
  | none => fault s.start (.malformedBinding (.ofList word))

/-- The include that the text between the brackets of a marker describes. -/
def readIncludeWords (source : List Char) (marker : Nat) (content : ByteSpan) : Checked Include := do
  let parts ← content.splitTopLevel source isBlank
  match parts.filter (!·.isEmpty) with
  | [] => fault marker .missingIncludePath
  | path :: parameters =>
    let path ← readIncludePath source path
    let bindings ← parameters.mapM (readBinding source)
    return ⟨path, bindings⟩

/-- Reads the marker at the start of a span. The second part of the result is the offset behind it. -/
def readInclude (source : List Char) (s : ByteSpan) : Checked (Include × Nat) := do
  let rest ← require (slice source (s.start + 2) s.stop)
  match ← includeEnd source none (s.start + 2) rest with
  | none => fault s.start .unterminatedInclude
  | some close =>
    let target ← readIncludeWords source s.start ⟨s.start + 2, close⟩
    return (target, close + 2)

variable {source text behind : List Char} {r : ByteSpan} {s : Span} {separates : Char → Bool}
  {depth : Int} {quote : Option Char} {first offset stop n : Nat}

/-! ### The end of a marker -/

/-- What a line may stand in front of: a blank, or the end of the source. -/
def BlankBehind (source : List Char) (offset : Nat) : Prop :=
  ∃ front behind, source = front ++ behind ∧ offset = byteLength front ∧
    ∀ c ∈ behind.head?, isBlank c = true

/-- What stands behind a span in front of a blank. -/
theorem Stands.exists_behind (h : Stands source r s) (blank : BlankBehind source r.stop) :
    ∃ behind, source = source.take s.start ++ (s.text ++ behind) ∧
      ∀ c ∈ behind.head?, isBlank c = true := by
  obtain ⟨behind, whole⟩ := h.text
  have split : source = source.take s.start ++ (s.text ++ behind) := by
    rw [whole, List.take_append_drop]
  obtain ⟨front, after, split', stop, blank⟩ := blank
  have stop' : r.stop = byteLength (source.take s.start ++ s.text) := by
    rw [h.stop_eq, h.start, byteLength_append, byteOffset]
  have one := splitAtByte_eq_some_iff.mpr ⟨split.trans (List.append_assoc ..).symm, stop'⟩
  rw [splitAtByte_eq_some_iff.mpr ⟨split', stop⟩] at one
  cases one
  exact ⟨behind, split, blank⟩

/-- The second bracket of a pair stands in the text too, as a blank follows that. -/
theorem isPrefixOf_brackets (blank : ∀ c ∈ behind.head?, isBlank c = true) (c : Char)
    (rest : List Char) : [']', ']'].isPrefixOf (c :: rest ++ behind) = true ↔
      c = ']' ∧ rest.head? = some ']' := by
  have second : (rest ++ behind).head? = some ']' ↔ rest.head? = some ']' := by
    cases rest with
    | cons d more => rfl
    | nil =>
      refine ⟨fun bracket => ?_, nofun⟩
      exact absurd (blank ']' bracket) (by decide)
  rw [List.isPrefixOf_iff_prefix, List.cons_append, List.cons_prefix_cons, ← second, eq_comm (a := ']')]
  refine and_congr_right fun _ => ?_
  cases rest ++ behind with
  | nil => simp
  | cons d more => simp [eq_comm]

theorem includeEnd_eq (blank : ∀ c ∈ behind.head?, isBlank c = true) (front text : List Char)
    (quote : Option Char) :
    includeEnd (front ++ (text ++ behind)) quote (byteLength front) text =
      pure ((Source.includeEnd quote text).map fun n => byteLength front + byteOffset text n) := by
  induction text generalizing front quote with
  | nil => rfl
  | cons c rest ih =>
    have step (quote : Option Char) :
        includeEnd (front ++ (c :: rest ++ behind)) quote (byteLength front + c.utf8Size) rest =
          pure (((Source.includeEnd quote rest).map (· + 1)).map
            fun n => byteLength front + byteOffset (c :: rest) n) := by
      have later := ih (front ++ [c]) quote
      rw [List.append_assoc, List.singleton_append, byteLength_concat] at later
      rw [List.cons_append, later, Option.map_map]
      congr 2
      funext n
      rw [Function.comp_apply, byteOffset_cons, Nat.add_assoc]
    cases quote with
    | some q => exact step _
    | none =>
      rw [includeEnd, Source.includeEnd]
      split
      · exact step _
      · rw [slice_behind, require_some, pure_bind]
        simp only [isPrefixOf_brackets blank]
        split
        · rw [Option.map_some, byteOffset_zero, Nat.add_zero]
        · exact step _

/-! ### Parts -/

/-- With the part under way put in front of the first, the parts in bytes are those in characters. -/
theorem splitTopLevel_stands {k : Nat} (pending : List Char)
    (h : Stands source ⟨first, stop⟩ ⟨k, pending ++ text⟩) (here : offset = first + byteLength pending) :
    ∃ part others,
      Source.splitTopLevel separates depth quote (k + pending.length) text = part :: others ∧
      part.start = k + pending.length ∧
      List.Forall₂ (Stands source) (splitTopLevel separates stop depth quote first offset text)
        (⟨k, pending ++ part.text⟩ :: others) := by
  induction text generalizing depth quote first offset k pending with
  | nil => exact ⟨_, [], rfl, rfl, .cons h .nil⟩
  | cons c rest ih =>
    have split : pending ++ c :: rest = pending ++ [c] ++ rest := by
      rw [List.append_assoc, List.singleton_append]
    -- A character that does not separate goes on with the part.
    have step (depth : Int) (quote : Option Char) : ∃ part others,
        extendFirst (k + pending.length) c
          (Source.splitTopLevel separates depth quote (k + pending.length + 1) rest) = part :: others ∧
        part.start = k + pending.length ∧
        List.Forall₂ (Stands source)
          (splitTopLevel separates stop depth quote first (offset + c.utf8Size) rest)
          (⟨k, pending ++ part.text⟩ :: others) := by
      obtain ⟨part, others, found, -, stands⟩ := @ih depth quote first (offset + c.utf8Size) k
        (pending ++ [c]) (split ▸ h) (by rw [here, byteLength_concat, Nat.add_assoc])
      rw [List.length_append, List.length_singleton, ← Nat.add_assoc] at found
      rw [List.append_assoc, List.singleton_append] at stands
      exact ⟨_, others, by rw [found]; rfl, rfl, stands⟩
    cases quote with
    | some q => exact step _ _
    | none =>
      rw [Source.splitTopLevel, splitTopLevel]
      split
      · exact step _ _
      split
      · have within : pending.length ≤ (pending ++ c :: rest).length := by simp
        have behind : Stands source ⟨offset + c.utf8Size, stop⟩ ⟨k + pending.length + 1, [] ++ rest⟩ := by
          have := h.drop (n := (pending ++ [c]).length) (by rw [split]; simp)
          rw [split, byteOffset_append, byteLength_concat, ← Nat.add_assoc, ← here] at this
          simpa [Span.drop, Nat.add_assoc] using this
        obtain ⟨part, others, found, start, stands⟩ :=
          @ih depth none _ (offset + c.utf8Size) _ [] behind (by rw [byteLength_nil, Nat.add_zero])
        have before : Stands source ⟨first, offset⟩ ⟨k, pending ++ []⟩ := by
          have := h.take within
          rwa [byteOffset_append, ← here, Span.take, List.take_left, ← List.append_nil pending] at this
        rw [List.length_nil, Nat.add_zero] at found start
        refine ⟨_, part :: others, by rw [found], rfl, .cons before ?_⟩
        rwa [List.nil_append, ← start] at stands
      · exact step _ _

theorem Stands.splitTopLevel (h : Stands source r s) (separates : Char → Bool) : ∃ parts,
    r.splitTopLevel source separates = pure parts ∧
      List.Forall₂ (Stands source) parts (s.splitTopLevel separates) := by
  obtain ⟨part, others, found, start, stands⟩ :=
    @splitTopLevel_stands source s.text separates 0 none r.start r.start r.stop s.start [] h rfl
  refine ⟨_, by rw [ByteSpan.splitTopLevel, h.text_eq, pure_bind], ?_⟩
  rw [List.length_nil, Nat.add_zero] at found start
  rw [List.nil_append, ← start] at stands
  rwa [Span.splitTopLevel, found]

/-! ### Includes -/

theorem readIncludePath_follows (h : Stands source r s) :
    Follows source Eq (readIncludePath source r) (Source.readIncludePath s) := by
  rw [readIncludePath, h.text_eq, pure_bind]
  refine .of_related ?_
  unfold Source.readIncludePath
  simp only
  split
  · split
    · split
      · exact .ok rfl
      · exact .error ⟨rfl, h.start⟩
    · exact .error ⟨rfl, h.start⟩
  · exact .ok rfl

theorem splitOnce?_eq_some {c : Char} {before after : List Char}
    (h : splitOnce? c text = some (before, after)) : text = before ++ c :: after := by
  induction text generalizing before with
  | nil => cases h
  | cons d rest ih =>
    rw [splitOnce?] at h
    split at h
    · next same =>
      cases h
      rw [same, List.nil_append]
    · obtain ⟨⟨front, back⟩, read, same⟩ := Option.map_eq_some_iff.mp h
      cases same
      rw [ih read, List.cons_append]

theorem readBinding_follows (h : Stands source r s) :
    Follows source Eq (readBinding source r) (Source.readBinding s) := by
  rw [readBinding, h.text_eq, pure_bind, Source.readBinding]
  cases found : splitOnce? '=' s.text with
  | none => exact h.fault _
  | some parts =>
    obtain ⟨key, value⟩ := parts
    have whole := splitOnce?_eq_some found
    simp only
    split
    · have behind : Stands source ⟨r.start + (byteLength key + 1), r.stop⟩ (s.drop (key.length + 1)) := by
        refine h.drop_bytes (length_of_splitOnce? found) ?_
        rw [whole, byteOffset_add, byteOffset_append, List.drop_left]
        rfl
      rw [← Nat.add_assoc] at behind
      exact (readExpr_follows behind).bind fun e e' same => .ok (by rw [same])
    · exact h.fault _

theorem readIncludeWords_follows {marker : Span} (place : first = byteOffset source marker.start)
    (h : Stands source r s) :
    Follows source Eq (readIncludeWords source first r) (Source.readIncludeWords marker s) := by
  obtain ⟨parts, split, stands⟩ := h.splitTopLevel isBlank
  have words : List.Forall₂ (Stands source) (parts.filter (!·.isEmpty))
      ((s.splitTopLevel isBlank).filter fun word => !word.text.isEmpty) := by
    refine List.rel_filter (fun t t' stands => ?_) stands
    simp only [stands.isEmpty]
  rw [readIncludeWords, split, pure_bind, Source.readIncludeWords]
  generalize parts.filter _ = found, (s.splitTopLevel isBlank).filter _ = found' at words
  cases words with
  | nil => exact .fault _ place
  | cons path parameters =>
    refine (readIncludePath_follows path).bind fun target _ same => ?_
    refine (Follows.mapM parameters fun _ _ => readBinding_follows).bind fun bindings bindings' all => ?_
    rw [List.forall₂_eq_eq_eq] at all
    exact .ok (by rw [same, all])

/-- The brackets that close a marker are looked for behind its own line as well, but not found there. -/
theorem readInclude_follows (h : Stands source r s) (blank : BlankBehind source r.stop)
    (starts : Lead.ofText s.text = .marker) :
    Follows source (SameEnd source r s) (readInclude source r) (Source.readInclude s) := by
  obtain ⟨inner, text⟩ := exists_of_marker starts
  have behind : Stands source ⟨r.start + 2, r.stop⟩ (s.drop 2) :=
    h.drop_bytes (by simp [text]) (by rw [text]; rfl)
  have rest : slice source (r.start + 2) r.stop = some (s.text.drop 2) := behind.slice_text
  have close : includeEnd source none (r.start + 2) (s.text.drop 2) =
      pure ((Source.includeEnd none (s.text.drop 2)).map
        fun n => r.start + 2 + byteOffset (s.text.drop 2) n) := by
    obtain ⟨after, whole, blank⟩ := behind.exists_behind blank
    have found := includeEnd_eq blank (source.take (s.drop 2).start) (s.drop 2).text none
    have start : byteLength (source.take (s.drop 2).start) = r.start + 2 := behind.start.symm
    rwa [← whole, start] at found
  rw [readInclude, rest, require_some, pure_bind, close, pure_bind, Source.readInclude]
  cases found : Source.includeEnd none (s.text.drop 2) with
  | none => exact h.fault _
  | some length =>
    obtain ⟨more, brackets⟩ := prefix_of_includeEnd found
    have within : length + 2 ≤ (s.drop 2).text.length := by
      have := congrArg List.length brackets
      simp only [Span.text_drop, List.length_append, List.length_drop, List.length_cons,
        List.length_nil] at this ⊢
      omega
    have content := behind.take (n := length) (by omega)
    refine (readIncludeWords_follows h.start content).bind fun target _ same => .ok ⟨same, ?_⟩
    have after := behind.drop_bytes (m := byteOffset (s.text.drop 2) length + 2) within (by
      rw [byteOffset_add, Span.text_drop, ← brackets]
      rfl)
    rwa [Span.drop_drop, ← Nat.add_assoc, Nat.add_comm 2, Nat.add_assoc length 2] at after

end PromptScript.Source.Bytes
