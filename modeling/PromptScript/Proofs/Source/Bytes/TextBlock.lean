import PromptScript.Proofs.Source.Alike.TextBlock
import PromptScript.Proofs.Source.Bytes.Basic

/-!
Text blocks read by bytes: their content is cut out behind the opening mark, and what stands in the braces
of an interpolation is cut out of its characters.
-/
namespace PromptScript.Source.Bytes

open Text
open Command (byteLength)

/-- The items between two positions. -/
def between {α : Type} (items : List α) (start stop : Nat) : Option (List α) :=
  if start ≤ stop ∧ stop ≤ items.length then some ((items.take stop).drop start) else none

/-- The content of a block. Each character is at the offset of the content and its index in there. -/
def normalize (source : List Char) (indent : Nat) (content : ByteSpan) :
    Checked (List LocatedChar) := do
  let text ← content.text source
  return (Source.normalize indent ⟨0, text⟩).map
    fun (index, c) => (content.start + byteOffset text index, c)

/-- Splits characters, from a position on, at their interpolations. -/
def interpolate (chars : List LocatedChar) (pending : List Char) (i : Nat) : Checked (List Node) :=
  if h : i < chars.length then
    let charAt (n : Nat) := chars[n]?.map (·.2)
    let (offset, c) := chars[i]
    if c = '$' ∧ charAt (i + 1) = some '$' ∧ charAt (i + 2) = some '\x7b' then
      interpolate chars ('\x7b' :: '$' :: pending) (i + 3)
    else if c = '$' ∧ charAt (i + 1) = some '\x7b' then do
      let behind ← require (between chars (i + 2) chars.length)
      match (behind.takeWhile (·.2 ≠ '\n')).findIdx? (·.2 = '\x7d') with
      | none => fault offset .unterminatedInterpolation
      | some length =>
        let name ← require (between chars (i + 2) (i + 2 + length))
        let name := trim (name.map (·.2))
        match VarPath.ofText? name with
        | none => fault offset (.invalidPath (.ofList name))
        | some path =>
          let more ← interpolate chars [] (i + 2 + length + 1)
          return flush pending ++ .interpolation path :: more
    else interpolate chars (c :: pending) (i + 1)
  else pure (flush pending)
termination_by chars.length - i

/-- The node of a block with the given content, unless nothing is left of that. -/
def readTextBlock (source : List Char) (indent : Nat) (isInline : Bool) (content : ByteSpan) :
    Checked (Option Node) := do
  let chars ← normalize source indent content
  if chars.isEmpty then return none
  else
    let chars := if isInline then chars else finishLine content.stop chars
    let nodes ← interpolate chars [] 0
    return some (.block nodes)

/-- Reads the text block at the start of a span. The second part of the result is the offset behind it. -/
def readBlockMark (source : List Char) (indent : Nat) (isInline : Bool) (s : ByteSpan) :
    Checked (Option Node × Nat) := do
  let body ← require (slice source (s.start + 2) s.stop)
  match find? ['>', '>'] body with
  | none => fault s.start .unterminatedText
  | some length =>
    let close := s.start + 2 + byteOffset body length
    let node ← readTextBlock source indent isInline ⟨s.start + 2, close⟩
    return (node, close + 2)

variable {source : List Char} {r : ByteSpan} {s : Span} {indent i : Nat} {chars rest : List LocatedChar}
  {pending : List Char}

/-! ### Interpolations -/

/-- The brace that ends an interpolation is found on its line. -/
theorem findIdx?_brace (chars : List LocatedChar) :
    (chars.takeWhile (·.2 ≠ '\n')).findIdx? (·.2 = '\x7d') =
      if (chars.dropWhile isInterpolated).head?.any (·.2 = '\x7d') then
        some (chars.takeWhile isInterpolated).length
      else none := by
  induction chars with
  | nil => rfl
  | cons c rest ih =>
    by_cases newline : c.2 = '\n'
    · have stops : isInterpolated c = false := by simp [isInterpolated, newline]
      simp [newline, stops]
    · by_cases brace : c.2 = '\x7d'
      · have stops : isInterpolated c = false := by simp [isInterpolated, brace]
        rw [List.takeWhile_cons_of_pos (by simpa using newline), List.findIdx?_cons,
          if_pos (decide_eq_true brace)]
        simp [brace, stops]
      · have goesOn : isInterpolated c = true := by simp [isInterpolated, newline, brace]
        rw [List.takeWhile_cons_of_pos (by simpa using newline), List.findIdx?_cons,
          if_neg (by simpa using brace), ih, List.dropWhile_cons_of_pos goesOn, List.takeWhile_cons_of_pos goesOn]
        split <;> rfl

theorem drop_length_takeWhile {α : Type} (p : α → Bool) (items : List α) :
    items.drop (items.takeWhile p).length = items.dropWhile p := by
  nth_rewrite 2 [← List.takeWhile_append_dropWhile (p := p) (l := items)]
  exact List.drop_left

theorem between_length (h : i ≤ chars.length) : between chars i chars.length = some (chars.drop i) := by
  rw [between, if_pos ⟨h, Nat.le_refl _⟩, List.take_length]

theorem between_of_takeWhile (p : LocatedChar → Bool) (h : i ≤ chars.length) :
    between chars i (i + ((chars.drop i).takeWhile p).length) = some ((chars.drop i).takeWhile p) := by
  have inside : ((chars.drop i).takeWhile p).length ≤ chars.length - i := by
    rw [← List.length_drop]
    exact (List.takeWhile_prefix p).length_le
  rw [between, if_pos ⟨by omega, by omega⟩, List.drop_take, Nat.add_sub_cancel_left,
    ← List.prefix_iff_eq_take.mp (List.takeWhile_prefix p)]

theorem exists_doubled (h : (rest[0]?.map (·.2)) = some '$' ∧ (rest[1]?.map (·.2)) = some '\x7b') :
    ∃ first second more, rest = (first, '$') :: (second, '\x7b') :: more := by
  obtain ⟨dollar, brace⟩ := h
  match rest with
  | [] => cases dollar
  | [_] => cases brace
  | (first, _) :: (second, _) :: more =>
    cases dollar
    cases brace
    exact ⟨first, second, more, rfl⟩

theorem exists_brace (h : (rest[0]?.map (·.2)) = some '\x7b') :
    ∃ first more, rest = (first, '\x7b') :: more := by
  cases rest with
  | nil => cases h
  | cons c more =>
    obtain ⟨first, d⟩ := c
    cases h
    exact ⟨first, more, rfl⟩

theorem getElem?_of_drop {c : LocatedChar} (here : chars.drop i = c :: rest) (n : Nat) :
    chars[i + 1 + n]? = rest[n]? := by
  rw [Nat.add_right_comm, Nat.add_assoc, ← List.getElem?_drop, here, List.getElem?_cons_succ]

theorem exists_inside_of_drop {c : LocatedChar} (here : chars.drop i = c :: rest) :
    ∃ inside : i < chars.length, chars[i] = c := by
  have found : chars[i]? = some c := by
    rw [← Nat.add_zero i, ← List.getElem?_drop, here, List.getElem?_cons_zero]
  exact List.getElem?_eq_some_iff.mp found

/-- The name in the braces of an interpolation is cut out between two positions. -/
theorem interpolate_name {offset first : Nat} (here : chars.drop i = (offset, '$') :: (first, '\x7b') :: rest)
    (later : ∀ n, interpolate chars [] (i + 2 + n) =
      ExceptT.mk (some (Source.interpolate [] (rest.drop n)))) :
    interpolate chars pending i = ExceptT.mk (some (Source.interpolate pending (chars.drop i))) := by
  obtain ⟨inside, same⟩ := exists_inside_of_drop here
  have charAt := getElem?_of_drop here
  have behind : chars.drop (i + 2) = rest := by rw [← List.drop_drop, here]; rfl
  have inside' : i + 2 ≤ chars.length := by
    have := congrArg List.length here
    simp only [List.length_drop, List.length_cons] at this
    omega
  -- The brace that is found ends the run of characters that may stand in a name.
  have name := between_of_takeWhile isInterpolated inside'
  rw [behind] at name
  rw [here, interpolate.eq_def, dif_pos inside]
  simp only [same, charAt 0, charAt 1]
  rw [if_neg (by simp), if_pos (by simp), between_length inside', require_some, pure_bind, behind,
    findIdx?_brace, interpolate_braces]
  by_cases closed : (rest.dropWhile isInterpolated).head?.any (·.2 = '\x7d') = true
  · simp only [if_pos closed, name, require_some, pure_bind]
    cases VarPath.ofText? (trim ((rest.takeWhile isInterpolated).map (·.2))) with
    | none => rfl
    | some path =>
      have after := later ((rest.takeWhile isInterpolated).length + 1)
      rw [← List.drop_drop, drop_length_takeWhile, ← Nat.add_assoc] at after
      simp only [after]
      cases Source.interpolate [] ((rest.dropWhile isInterpolated).drop 1) <;> rfl
  · rw [if_neg closed, if_neg closed]
    rfl

/-- Characters are split from a position on as what is left of them there. -/
theorem interpolate_eq (chars : List LocatedChar) (pending : List Char) (i : Nat) :
    interpolate chars pending i =
      ExceptT.mk (some (Source.interpolate pending (chars.drop i))) := by
  -- By induction on the characters that are left.
  induction left : chars.length - i using Nat.strongRecOn generalizing pending i with
  | ind size ih =>
    subst left
    cases here : chars.drop i with
    | nil =>
      have outside := List.drop_eq_nil_iff.mp here
      rw [interpolate.eq_def, dif_neg (Nat.not_lt.mpr outside), Source.interpolate]
      rfl
    | cons located rest =>
      obtain ⟨offset, c⟩ := located
      obtain ⟨inside, same⟩ := exists_inside_of_drop here
      have later (pending : List Char) (n : Nat) : interpolate chars pending (i + 1 + n) =
          ExceptT.mk (some (Source.interpolate pending (rest.drop n))) := by
        have behind : chars.drop (i + 1 + n) = rest.drop n := by
          rw [← List.drop_drop, ← List.drop_drop, here, List.drop_one, List.tail_cons]
        rw [← behind]
        exact ih _ (by omega) pending _ rfl
      have charAt := getElem?_of_drop here
      by_cases name : c = '$' ∧ (rest[0]?.map (·.2)) = some '\x7b'
      · obtain ⟨rfl, brace⟩ := name
        obtain ⟨first, more, rfl⟩ := exists_brace brace
        rw [← here]
        refine interpolate_name here fun n => ?_
        have behind := later [] (1 + n)
        rwa [← Nat.add_assoc, ← List.drop_drop] at behind
      rw [interpolate.eq_def, dif_pos inside]
      simp only [same, charAt 0, charAt 1, if_neg name]
      split
      · next doubled =>
        obtain ⟨rfl, doubled⟩ := doubled
        obtain ⟨first, second, more, rfl⟩ := exists_doubled doubled
        rw [Source.interpolate]
        exact later _ 2
      · next single =>
        by_cases dollar : c = '$'
        · subst dollar
          rw [interpolate_dollar]
          · exact later _ 0
          · rintro _ _ _ rfl
            exact single ⟨rfl, rfl, rfl⟩
          · rintro _ _ rfl
            exact name ⟨rfl, rfl⟩
        · rw [interpolate_plain dollar]
          exact later _ 0

/-! ### Blocks -/

/-- Places in bytes and in characters that belong together. -/
abbrev SamePlace (source : List Char) (n m : Nat) : Prop :=
  n = byteOffset source m

/-- The text of a span, with the characters counted in it. -/
theorem moved_index (s : Span) :
    Moved (fun k n => k ≤ s.text.length ∧ n = s.start + k) .plain ⟨0, s.text⟩ s where
  text := (Break.plain_write s.text).symm
  places := by
    intro n m measures
    have size := measures.2
    rw [Break.plain_write, List.length_take_of_le measures.1] at size
    exact ⟨by simpa using measures.1, by simp [size]⟩
  untaken := .inl rfl
  single := nofun

/-- The characters of a block are at the offsets where they stand in the source. -/
theorem normalize_follows (h : Stands source r s) (indent : Nat) : ∃ chars,
    normalize source indent r = pure chars ∧
      List.Forall₂ (CharAlike (SamePlace source)) chars (Source.normalize indent s) := by
  have chars : List.Forall₂ (CharAlike fun k n => k ≤ s.text.length ∧ n = s.start + k)
      (Source.normalize indent ⟨0, s.text⟩) (Source.normalize indent s) :=
    normalize_alike (moved_index s) fun _ => rfl
  refine ⟨_, by rw [normalize, h.text_eq, pure_bind], List.forall₂_map_left_iff.mpr (chars.imp ?_)⟩
  rintro ⟨k, c⟩ ⟨n, c'⟩ ⟨same, place⟩
  refine ⟨same, fun other => ?_⟩
  obtain ⟨inside, rfl⟩ := place other
  exact h.offset inside

theorem finishLine_ne_nil {finish : Nat} (nonempty : chars ≠ []) : finishLine finish chars ≠ [] := by
  unfold finishLine
  split
  · exact nonempty
  · exact nonempty
  · simp

theorem readTextBlock_follows (h : Stands source r s) (indent : Nat) (isInline : Bool) :
    Follows source Eq (readTextBlock source indent isInline r)
      (Source.readTextBlock indent isInline s) := by
  obtain ⟨chars, read, related⟩ := normalize_follows h indent
  rw [readTextBlock, read, pure_bind, Source.readTextBlock]
  generalize Source.normalize indent s = chars' at related
  cases related with
  | nil => cases isInline <;> exact .ok rfl
  | @cons c c' rest rest' here others =>
    have ends : List.Forall₂ (CharAlike (SamePlace source))
        (if isInline then c :: rest else finishLine r.stop (c :: rest))
        (if isInline then c' :: rest' else finishLine s.finish (c' :: rest')) := by
      split
      · exact .cons here others
      · exact finishLine_alike _ _ (.cons here others)
    have nonempty : (if isInline then c' :: rest' else finishLine s.finish (c' :: rest')) ≠ [] := by
      split
      · exact List.cons_ne_nil c' rest'
      · exact finishLine_ne_nil (List.cons_ne_nil c' rest')
    have nodes := interpolate_alike (F := SameFault source) (fun _ place => ⟨rfl, place⟩) [] ends
    simp only [List.isEmpty_cons, Bool.false_eq_true, if_false, List.isEmpty_iff, if_neg nonempty]
    rw [interpolate_eq, List.drop_zero]
    exact (Follows.of_related nodes).map fun _ _ same => by rw [same]

/-- What stands behind an opening mark is cut out between two characters. -/
theorem readBlockMark_follows (h : Stands source r s) (starts : Lead.ofText s.text = .block)
    (indent : Nat) (isInline : Bool) :
    Follows source (SameEnd source r s) (readBlockMark source indent isInline r)
      (Source.readBlockMark indent isInline s) := by
  obtain ⟨inner, text⟩ := exists_of_block starts
  have behind : Stands source ⟨r.start + 2, r.stop⟩ (s.drop 2) :=
    h.drop_bytes (by simp [text]) (by rw [text]; rfl)
  have body : slice source (r.start + 2) r.stop = some (s.text.drop 2) := behind.slice_text
  rw [readBlockMark, body, require_some, pure_bind, Source.readBlockMark]
  cases found : find? ['>', '>'] (s.text.drop 2) with
  | none => exact h.fault _
  | some length =>
    obtain ⟨more, rest⟩ := prefix_of_find? found
    have within : length + 2 ≤ (s.drop 2).text.length := by
      have := congrArg List.length rest
      simp only [Span.text_drop, List.length_append, List.length_drop, List.length_cons] at this ⊢
      simp at this
      omega
    have content := behind.take (n := length) (by omega)
    refine (readTextBlock_follows content indent isInline).bind fun node node' same => .ok ⟨same, ?_⟩
    have after := behind.drop_bytes (m := byteOffset (s.text.drop 2) length + 2) within (by
      rw [byteOffset_add, Span.text_drop, ← rest]
      rfl)
    rwa [Span.drop_drop, ← Nat.add_assoc, Nat.add_comm 2, Nat.add_assoc length 2] at after

end PromptScript.Source.Bytes
