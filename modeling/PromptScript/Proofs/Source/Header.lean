import PromptScript.Proofs.Source.Body

/-!
The metadata in front of a template. Both ways to write it give the same entries, and the body behind it is
read as it would be read alone.
-/
namespace PromptScript.Source

open Text

variable {entries : List (List Char × List Char)} {entry : List Char × List Char}
  {lines : List (List Char)} {body key value text rest : List Char} {start : Nat}

/-! ### Headers -/

def isKeyChar (c : Char) : Bool :=
  c.isAlphanum || c = '_' || c = '.' || c = '-'

/-- Whether a text may be a key in both kinds of header: a letter or an underscore, and then letters,
digits, underscores, points and hyphens. -/
def isEntryKey : List Char → Bool
  | [] => false
  | first :: rest => isPlainNameStart first && rest.all isKeyChar

/-- A key and a value that both kinds of header can hold. -/
structure IsEntry (entry : List Char × List Char) : Prop where
  key : isEntryKey entry.1 = true
  value : '\n' ∉ entry.2

/-- The line of an entry inside a metadata block. -/
def blockLine (entry : List Char × List Char) : List Char :=
  entry.1 ++ ':' :: ' ' :: entry.2

def markedLine (entry : List Char × List Char) : List Char :=
  '@' :: blockLine entry

/-- Lines, each with the newline behind it. -/
def unlines (lines : List (List Char)) : List Char :=
  lines.flatMap (· ++ ['\n'])

/-- The header that marks each entry. -/
def markedHeader (entries : List (List Char × List Char)) : List Char :=
  unlines (entries.map markedLine)

def fence : List Char :=
  ['-', '-', '-']

/-- The header that puts the entries between fences. -/
def blockHeader (entries : List (List Char × List Char)) : List Char :=
  unlines (fence :: entries.map blockLine ++ [fence])

/-! ### Entries in order -/

/-- The value that the last entry with a key gives it. -/
def lastValue (entries : List (List Char × List Char)) (key : List Char) : List Char :=
  ((entries.reverse.find? (·.1 = key)).map (·.2)).getD []

/-- What entries say together: the keys in the order in which each comes first, with the last value of
each, trimmed. -/
def metadataOf (entries : List (List Char × List Char)) : Metadata :=
  ⟨(entries.map (·.1)).eraseDups.map fun key => (.ofList key, .ofList (trim (lastValue entries key)))⟩

theorem nodup_eraseDups {α : Type} [BEq α] [LawfulBEq α] (items : List α) : items.eraseDups.Nodup := by
  induction length : items.length using Nat.strongRecOn generalizing items with
  | ind n ih =>
    cases items with
    | nil => exact List.nodup_nil
    | cons a rest =>
      have shorter := List.length_filter_le (fun b => !b == a) rest
      rw [List.length_cons] at length
      rw [List.eraseDups_cons, List.nodup_cons, List.mem_eraseDups]
      exact ⟨by simp, ih _ (by omega) _ rfl⟩

theorem insertEntry_map {keys : List (List Char)} (nodup : keys.Nodup) (key : List Char) (value : String)
    (values : List Char → String) :
    Metadata.insertEntry (.ofList key) value (keys.map fun k => (.ofList k, values k)) =
      (if key ∈ keys then keys else keys ++ [key]).map fun k =>
        (.ofList k, if k = key then value else values k) := by
  induction keys with
  | nil => simp [Metadata.insertEntry]
  | cons k rest ih =>
    obtain ⟨absent, nodup⟩ := List.nodup_cons.mp nodup
    rw [List.map_cons, Metadata.insertEntry]
    simp only [String.ofList_inj]
    by_cases same : k = key
    · subst same
      have others : ∀ other ∈ rest, other ≠ k := fun other member same => absent (same ▸ member)
      rw [if_pos rfl, if_pos List.mem_cons_self, List.map_cons, if_pos rfl]
      refine congrArg (_ :: ·) (List.map_congr_left fun other member => ?_)
      rw [if_neg (others other member)]
    · rw [if_neg same, ih nodup]
      by_cases known : key ∈ rest
      · rw [if_pos known, if_pos (List.mem_cons_of_mem k known), List.map_cons, if_neg same]
      · have unknown : key ∉ k :: rest := by simp [Ne.symm same, known]
        rw [if_neg known, if_neg unknown, List.cons_append, List.map_cons, if_neg same]

theorem lastValue_append (entries : List (List Char × List Char)) (entry : List Char × List Char)
    (key : List Char) : lastValue (entries ++ [entry]) key =
      if key = entry.1 then entry.2 else lastValue entries key := by
  rw [lastValue, List.reverse_append, List.reverse_singleton, List.singleton_append, List.find?_cons]
  by_cases same : key = entry.1
  · simp [same]
  · simp [same, Ne.symm same, lastValue]

theorem insert_metadataOf (entries : List (List Char × List Char)) (entry : List Char × List Char) :
    (metadataOf entries).insert (.ofList entry.1) (.ofList (trim entry.2)) =
      metadataOf (entries ++ [entry]) := by
  have keys : (if entry.1 ∈ (entries.map (·.1)).eraseDups then (entries.map (·.1)).eraseDups
      else (entries.map (·.1)).eraseDups ++ [entry.1]) =
        ((entries ++ [entry]).map (·.1)).eraseDups := by
    rw [List.map_append, List.eraseDups_append]
    split
    · next known => simp [List.removeAll, List.mem_eraseDups.mp known]
    · next unknown =>
      have absent : entry.1 ∉ entries.map (·.1) := fun member => unknown (List.mem_eraseDups.mpr member)
      simp [List.removeAll, absent, List.eraseDups_cons]
  have inserted := insertEntry_map (nodup_eraseDups (entries.map (·.1))) entry.1
    (.ofList (trim entry.2)) fun key => .ofList (trim (lastValue entries key))
  rw [keys] at inserted
  refine congrArg Metadata.mk (inserted.trans ?_)
  simp only [lastValue_append, apply_ite trim, apply_ite String.ofList]

/-! ### Lines of a header -/

theorem unlines_cons (line : List Char) (lines : List (List Char)) :
    unlines (line :: lines) = line ++ '\n' :: unlines lines := by
  simp [unlines]

theorem length_unlines_cons (line : List Char) (lines : List (List Char)) :
    (unlines (line :: lines)).length = line.length + 1 + (unlines lines).length := by
  rw [unlines_cons, List.length_append, List.length_cons]
  omega

theorem pieces_unlines (single : ∀ line ∈ lines, '\n' ∉ line) (body : List Char) :
    pieces (· = '\n') (unlines lines ++ body) = lines ++ pieces (· = '\n') body := by
  induction lines with
  | nil => rfl
  | cons line rest ih =>
    obtain ⟨here, others⟩ := List.forall_mem_cons.mp single
    rw [unlines_cons, List.append_assoc, List.cons_append,
      pieces_append_cons (ne_newline_of_mem here) (by decide), ih others]
    rfl

theorem trim_trimEndOf_return (text : List Char) : trim (trimEndOf (· = '\r') text) = trim text := by
  obtain ⟨returns, same, all⟩ := exists_trimEndOf (· = '\r') text
  conv_rhs => rw [same]
  refine (trim_append_of_blank (fun c member => ?_) _).symm
  rw [of_decide_eq_true (all c member)]
  decide

theorem trim_space_cons (text : List Char) : trim (' ' :: text) = trim text := by
  rw [trim, trimStart, List.dropWhile_cons_of_pos (by decide)]
  rfl

theorem isNameChar_of_isKeyChar {c : Char} (h : isKeyChar c = true) :
    (isNameChar c || c = '-' || c = '.') = true := by
  simp only [isKeyChar, Bool.or_eq_true, decide_eq_true_eq] at h ⊢
  rcases h with ((letter | underscore) | point) | hyphen
  · refine .inl (.inl ?_)
    rw [isNameChar_of_lt (lt_of_isAlphanum letter), letter]
    rfl
  · simp [isNameChar, underscore]
  · exact .inr point
  · exact .inl (.inr hyphen)

theorem not_isBlank_of_isKeyChar {c : Char} (h : isKeyChar c = true) : isBlank c = false := by
  have name := isNameChar_of_isKeyChar h
  simp only [Bool.or_eq_true, decide_eq_true_eq] at name
  rcases name with (name | rfl) | rfl
  · exact not_isBlank_of_isNameChar name
  · decide
  · decide

theorem isWordChar_of_isKeyChar {c : Char} (h : isKeyChar c = true) :
    (isWordChar c || c = '.' || c = '-') = true := by
  simp only [isKeyChar, Bool.or_eq_true, decide_eq_true_eq] at h ⊢
  rcases h with ((letter | underscore) | point) | hyphen
  · refine .inl (.inl ?_)
    rw [isWordChar_of_lt (lt_of_isAlphanum letter), letter]
    rfl
  · simp [isWordChar, underscore]
  · exact .inl (.inr point)
  · exact .inr hyphen

namespace IsEntry

theorem exists_first (h : IsEntry entry) : ∃ first rest, entry.1 = first :: rest ∧
    isPlainNameStart first = true ∧ ∀ c ∈ rest, isKeyChar c = true := by
  have key := h.key
  obtain ⟨key', value⟩ := entry
  cases key' with
  | nil => cases key
  | cons first rest =>
    rw [isEntryKey, Bool.and_eq_true, List.all_eq_true] at key
    exact ⟨first, rest, rfl, key⟩

theorem isKeyChar_of_mem (h : IsEntry entry) : ∀ c ∈ entry.1, isKeyChar c = true := by
  obtain ⟨first, rest, same, starts, continues⟩ := h.exists_first
  rw [same]
  refine List.forall_mem_cons.mpr ⟨?_, continues⟩
  simp only [isPlainNameStart, Bool.or_eq_true] at starts
  simp only [isKeyChar, Char.isAlphanum, Bool.or_eq_true]
  rcases starts with letter | underscore
  · exact .inl (.inl (.inl (.inl letter)))
  · exact .inl (.inl (.inr underscore))

theorem not_mem_key (h : IsEntry entry) {c : Char} (other : isKeyChar c = false) : c ∉ entry.1 := by
  intro member
  rw [h.isKeyChar_of_mem c member] at other
  cases other

theorem single_blockLine (h : IsEntry entry) : '\n' ∉ blockLine entry := by
  have key := h.not_mem_key (c := '\n') (by decide)
  have value := h.value
  simp [blockLine, key, value]

theorem trim_blockLine (h : IsEntry entry) :
    trim (blockLine entry) = entry.1 ++ ':' :: trimEnd (' ' :: entry.2) := by
  obtain ⟨first, rest, same, -, -⟩ := h.exists_first
  have bars : Bars isBlank (blockLine entry) := by
    rw [blockLine, same]
    exact bars_cons (not_isBlank_of_isKeyChar (h.isKeyChar_of_mem first (by simp [same])))
  rw [trim, trimStart, dropWhile_of_bars bars, blockLine, trimEnd, trimEndOf_append_cons (by decide)]
  rfl

/-- A line with a colon is no fence, and it is not blank. -/
theorem visible_blockLine (h : IsEntry entry) :
    isFence (trim (blockLine entry)) = false ∧ (trim (blockLine entry)).isEmpty = false := by
  have colon : ':' ∈ trim (blockLine entry) := by simp [h.trim_blockLine]
  refine ⟨decide_eq_false fun same => ?_, ?_⟩
  · rw [same] at colon
    exact absurd colon (by decide)
  · simpa using List.ne_nil_of_mem colon

theorem read_markedLine (h : IsEntry entry) :
    markedEntry? (trimEndOf (· = '\r') (markedLine entry)) = some (entry.1, trim entry.2) := by
  obtain ⟨first, rest, same, starts, continues⟩ := h.exists_first
  have word (c : Char) (member : c ∈ rest) := isWordChar_of_isKeyChar (continues c member)
  have colon (value : List Char) : Bars (fun c => isWordChar c || c = '.' || c = '-') (':' :: value) :=
    bars_cons (by rw [isWordChar_of_lt (by decide)]; decide)
  have content : trimEndOf (· = '\r') (markedLine entry) =
      '@' :: first :: (rest ++ ':' :: trimEndOf (· = '\r') (' ' :: entry.2)) := by
    rw [markedLine, blockLine, same, ← List.cons_append, trimEndOf_append_cons (by decide)]
    rfl
  rw [content, markedEntry?]
  simp only [dropWhile_append_of_bars word (colon _), takeWhile_append_of_bars word (colon _), starts]
  rw [trim_trimEndOf_return, trim_space_cons, same]

theorem isMetadataKey (h : IsEntry entry) : isMetadataKey entry.1 = true := by
  obtain ⟨first, rest, same, starts, -⟩ := h.exists_first
  have noAt : first ≠ '@' := by
    rintro rfl
    cases starts
  have all : entry.1.all (fun c => isNameChar c || c = '-' || c = '.') = true :=
    List.all_eq_true.mpr fun c member => isNameChar_of_isKeyChar (h.isKeyChar_of_mem c member)
  rw [Source.isMetadataKey, all]
  simp [same, noAt]

theorem read_blockLine (h : IsEntry entry) :
    blockEntry? (trim (blockLine entry)) = some (entry.1, trim entry.2) := by
  have noColon : ':' ∉ entry.1 := h.not_mem_key (by decide)
  have key : trim entry.1 = entry.1 :=
    trim_of_visible fun c member => not_isBlank_of_isKeyChar (h.isKeyChar_of_mem c member)
  have value : trim (trimEnd (' ' :: entry.2)) = trim entry.2 := by
    obtain ⟨blanks, same, blank⟩ := exists_blanks (' ' :: entry.2)
    rw [← trim_append_of_blank blank, ← same, trim_space_cons]
  rw [h.trim_blockLine, blockEntry?, splitOnce?_append noColon]
  simp [key, value, h.isMetadataKey]

end IsEntry

theorem readMarked_lines (h : ∀ entry ∈ entries, IsEntry entry) (before : List (List Char × List Char))
    (start : Nat) (lines : List (List Char)) :
    readMarked (metadataOf before) start (lineSpans start (entries.map markedLine ++ lines)) =
      readMarked (metadataOf (before ++ entries)) (start + (markedHeader entries).length)
        (lineSpans (start + (markedHeader entries).length) lines) := by
  induction entries generalizing before start with
  | nil => rw [List.append_nil]; rfl
  | cons entry rest ih =>
    obtain ⟨here, others⟩ := List.forall_mem_cons.mp h
    have place : start + (markedHeader (entry :: rest)).length =
        start + (markedLine entry).length + 1 + (markedHeader rest).length := by
      rw [markedHeader, List.map_cons, length_unlines_cons, markedHeader]
      omega
    rw [List.map_cons, List.cons_append, lineSpans, readMarked, place]
    simp only [here.read_markedLine, insert_metadataOf, Span.finish]
    rw [ih others, List.append_assoc, List.singleton_append]

theorem readBlock_lines (h : ∀ entry ∈ entries, IsEntry entry) (before : List (List Char × List Char))
    (opening start : Nat) (lines : List (List Char)) :
    readBlock opening (metadataOf before)
      (lineSpans start (entries.map blockLine ++ fence :: lines)) =
      .ok (metadataOf (before ++ entries), start + (unlines (entries.map blockLine ++ [fence])).length) := by
  induction entries generalizing before start with
  | nil =>
    rw [List.append_nil]
    rfl
  | cons entry rest ih =>
    obtain ⟨here, others⟩ := List.forall_mem_cons.mp h
    obtain ⟨noFence, visible⟩ := here.visible_blockLine
    have place : start + (unlines (blockLine entry :: rest.map blockLine ++ [fence])).length =
        start + (blockLine entry).length + 1 + (unlines (rest.map blockLine ++ [fence])).length := by
      rw [List.cons_append, length_unlines_cons]
      omega
    rw [List.map_cons, List.cons_append, lineSpans, readBlock, place]
    simp only [noFence, visible, here.read_blockLine, insert_metadataOf, Bool.false_eq_true,
      if_false]
    rw [ih others, List.append_assoc, List.singleton_append]

theorem readTemplate_of_preamble {header : List Char} {metadata : Metadata}
    (preamble : readPreamble (header ++ body) = .ok (metadata, header.length)) :
    readTemplate (header ++ body) = (readBody ⟨header.length, body⟩).map (⟨metadata, ·⟩) := by
  rw [readTemplate_eq, preamble]
  change (readBody ⟨_, List.drop _ _⟩).map _ = _
  rw [List.drop_left]

theorem single_markedLine (h : ∀ entry ∈ entries, IsEntry entry) :
    ∀ line ∈ entries.map markedLine, '\n' ∉ line := by
  refine List.forall_mem_map.mpr fun entry member inside => ?_
  exact (h entry member).single_blockLine (List.mem_of_ne_of_mem (by decide) inside)

theorem readPreamble_marked (h : ∀ entry ∈ entries, IsEntry entry) (nonempty : entries ≠ [])
    (plain : StartsPlainly body) : readPreamble (markedHeader entries ++ body) =
      .ok (metadataOf entries, (markedHeader entries).length) := by
  obtain ⟨first, others, rfl⟩ := List.exists_cons_of_ne_nil nonempty
  obtain ⟨line, more, behind⟩ := List.exists_cons_of_ne_nil (pieces_ne_nil (· = '\n') body)
  have isBody := plain.isBody behind
  have lines : physicalLines (markedHeader (first :: others) ++ body) =
      lineSpans 0 ((first :: others).map markedLine ++ line :: more) := by
    rw [← behind]
    exact congrArg (lineSpans 0) (pieces_unlines (single_markedLine h) body)
  have visible : isBlankLine ⟨0, markedLine first⟩ = false := by
    have inside : '@' ∈ trim (markedLine first) := mem_trim List.mem_cons_self (by decide)
    simpa [isBlankLine] using List.ne_nil_of_mem inside
  have noFence : isFence (trimEnd (markedLine first)) = false := by
    have mark : isBlank '@' = false := by decide
    rw [trimEnd, markedLine, ← List.nil_append ('@' :: _), trimEndOf_append_cons mark]
    rfl
  have read := readMarked_lines h [] 0 (line :: more)
  rw [lineSpans, readMarked, isBody.entry, Nat.zero_add] at read
  simp only [isBody.marked, Bool.false_eq_true, if_false, List.nil_append] at read
  unfold readPreamble
  rw [lines, List.map_cons, List.cons_append, lineSpans, List.dropWhile_cons_of_neg (by simp [visible])]
  simp only [noFence, Bool.false_eq_true, if_false]
  exact read

theorem readTemplate_marked (h : ∀ entry ∈ entries, IsEntry entry) (plain : StartsPlainly body) :
    readTemplate (markedHeader entries ++ body) =
      (readBody ⟨(markedHeader entries).length, body⟩).map (⟨metadataOf entries, ·⟩) := by
  by_cases none : entries = []
  · subst none
    exact readTemplate_of_plain plain
  · exact readTemplate_of_preamble (readPreamble_marked h none plain)

theorem single_fenced (h : ∀ entry ∈ entries, IsEntry entry) :
    ∀ line ∈ fence :: entries.map blockLine ++ [fence], '\n' ∉ line := by
  have fenced : '\n' ∉ fence := by decide
  simp only [List.cons_append, List.mem_cons, List.mem_append, List.mem_map, List.not_mem_nil, or_false]
  rintro _ (rfl | ⟨entry, member, rfl⟩ | rfl)
  · exact fenced
  · exact (h entry member).single_blockLine
  · exact fenced

theorem readTemplate_block (h : ∀ entry ∈ entries, IsEntry entry) (body : List Char) :
    readTemplate (blockHeader entries ++ body) =
      (readBody ⟨(blockHeader entries).length, body⟩).map (⟨metadataOf entries, ·⟩) := by
  refine readTemplate_of_preamble ?_
  have lines : physicalLines (blockHeader entries ++ body) =
      lineSpans 0 (fence :: (entries.map blockLine ++ fence :: pieces (· = '\n') body)) := by
    refine congrArg (lineSpans 0) ((pieces_unlines (single_fenced h) body).trans ?_)
    simp
  have length : (blockHeader entries).length =
      fence.length + 1 + (unlines (entries.map blockLine ++ [fence])).length := by
    rw [blockHeader, List.cons_append, length_unlines_cons]
  unfold readPreamble
  rw [lines, lineSpans, List.dropWhile_cons_of_neg (by decide)]
  simp only [show isFence (trimEnd fence) = true by decide, if_true, length, Nat.zero_add]
  exact readBlock_lines h [] 0 _ _

/-! ### The body -/

/-- A body behind a header says what it says alone. -/
theorem readBody_behind (start : Nat) (body : List Char) :
    Alike (fun n n' => n' = start + n) Eq (readBody ⟨0, body⟩) (readBody ⟨start, body⟩) := by
  have moved : Moved (fun n n' => n' = start + n) .plain ⟨0, body⟩ ⟨start, Break.plain.write body⟩ := by
    refine ⟨rfl, fun {n m} measures => ?_, .inl rfl, nofun⟩
    obtain ⟨short, rfl⟩ := measures
    simp only
    rw [Break.plain_write, List.length_take_of_le short, Nat.zero_add]
  have same : Alike _ Eq (readBody ⟨0, body⟩) (readBody ⟨start, Break.plain.write body⟩) :=
    readBody_alike moved (.inl rfl)
  rwa [Break.plain_write] at same

theorem column_unlines (lines : List (List Char)) (text : List Char) :
    (unlines lines ++ text).reverse.takeWhile (· ≠ '\n') = text.reverse.takeWhile (· ≠ '\n') := by
  rw [List.reverse_append]
  refine takeWhile_append_bars ?_ text.reverse
  -- Behind the lines stands a newline, if there are any.
  rw [Bars, List.head?_reverse]
  rcases lines.eq_nil_or_concat with rfl | ⟨front, line, rfl⟩
  · intro c member
    cases member
  · simp [unlines]

theorem locate_unlines (single : ∀ line ∈ lines, '\n' ∉ line) (body : List Char) (n : Nat) :
    locate (unlines lines ++ body) ((unlines lines).length + n) =
      ((locate body n).1 + lines.length, (locate body n).2) := by
  have count : (unlines lines).count '\n' = lines.length := by
    induction lines with
    | nil => rfl
    | cons line rest ih =>
      obtain ⟨here, others⟩ := List.forall_mem_cons.mp single
      rw [unlines_cons, List.count_append, List.count_eq_zero_of_not_mem here, List.count_cons_self,
        ih others, List.length_cons, Nat.zero_add]
  unfold locate
  rw [List.take_length_add_append]
  simp only [column_unlines, List.count_append, count, Prod.mk.injEq, and_true]
  omega

/-- A template behind some lines of metadata. -/
theorem parse_behind {metadata : Metadata} (single : ∀ line ∈ lines, '\n' ∉ line)
    (plain : StartsPlainly body) (whole : readTemplate (unlines lines ++ body) =
      (readBody ⟨(unlines lines).length, body⟩).map (⟨metadata, ·⟩)) :
    ParsedAlike (fun t t' => t' = ⟨metadata, t.nodes⟩)
      (fun place place' => place' = (place.1 + lines.length, place.2))
      (Template.parse (.ofList body)) (Template.parse (.ofList (unlines lines ++ body))) := by
  have template : Alike (fun n n' => n' = (unlines lines).length + n)
      (fun t t' : Template => t' = ⟨metadata, t.nodes⟩) (readTemplate body)
      (readTemplate (unlines lines ++ body)) := by
    rw [readTemplate_of_plain plain, whole]
    refine (readBody_behind _ body).map fun _ _ same => ?_
    rw [same]
  rw [Template.parse, Template.parse, String.toList_ofList, String.toList_ofList]
  refine located_alike template fun n n' place => ?_
  rw [place, locate_unlines single]

/-- Behind either header a template is what it is alone, with the entries as its metadata; what is wrong
with it is as many lines further down as the header has. -/
theorem parse_header (h : ∀ entry ∈ entries, IsEntry entry) (plain : StartsPlainly body) :
    let same := fun t t' : Template => t' = ⟨metadataOf entries, t.nodes⟩
    let below := fun lines (place place' : Nat × Nat) => place' = (place.1 + lines, place.2)
    ParsedAlike same (below entries.length) (Template.parse (.ofList body))
        (Template.parse (.ofList (markedHeader entries ++ body))) ∧
      ParsedAlike same (below (entries.length + 2)) (Template.parse (.ofList body))
        (Template.parse (.ofList (blockHeader entries ++ body))) := by
  intro same below
  have fenced := parse_behind (single_fenced h) plain (readTemplate_block h body)
  have length : (fence :: entries.map blockLine ++ [fence]).length = entries.length + 2 := by simp
  rw [length] at fenced
  have marked := parse_behind (single_markedLine h) plain (readTemplate_marked h plain)
  rw [List.length_map] at marked
  exact ⟨marked, fenced⟩

/-- Three entries, two of which have one key, in front of a blank line and an effect. -/
theorem parse_header_repeated :
    let entries := [(['k'], ['a', ' ']), (['x', '.', 'y'], []), (['k'], ['b'])]
    let body := ['\n', '@', 'e', 'f', 'f', 'e', 'c', 't', ' ', 'r', 'u', 'n']
    (∀ entry ∈ entries, IsEntry entry) ∧ StartsPlainly body ∧
      metadataOf entries = ⟨[("k", "b"), ("x.y", "")]⟩ ∧
      ParsedAlike (fun t t' => t' = ⟨metadataOf entries, t.nodes⟩)
        (fun place place' => place' = (place.1 + 3, place.2)) (Template.parse (.ofList body))
        (Template.parse (.ofList (markedHeader entries ++ body))) := by
  intro entries body
  have h : ∀ entry ∈ entries, IsEntry entry := by
    intro entry member
    constructor <;> revert entry <;> decide
  have plain : StartsPlainly body := by decide
  exact ⟨h, plain, by decide, (parse_header h plain).1⟩

end PromptScript.Source
