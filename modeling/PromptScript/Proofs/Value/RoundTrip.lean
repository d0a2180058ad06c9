import PromptScript.Proofs.Value.Scalar

/-!
Text is read back as the value that it was written for, however it is laid out, if the value has no more
levels than may be read.
-/
namespace PromptScript

open Text

namespace Value

/-! ### Lists and mappings -/

/-- What stands behind an item, apart from blanks: a comma or the end. -/
def Follows (close : Char) (rest : List Char) : Prop :=
  (skipBlanks rest).head? = some ',' ∨ (skipBlanks rest).head? = some close

theorem Follows.bars {close : Char} {rest : List Char} (follows : Follows close rest)
    (other : continuesNumber close = false) : Bars continuesNumber rest := by
  cases rest with
  | nil => exact bars_nil
  | cons c more =>
    refine bars_cons ?_
    cases blank : isJsonBlank c with
    | true => exact not_continuesNumber_of_blank blank
    | false =>
      rw [Follows, skipBlanks_cons blank, List.head?_cons] at follows
      rcases follows with comma | closes
      · cases comma
        rfl
      · cases closes
        exact other

section

variable {α : Type} (readOne : List Char → Option (α × List Char)) (close : Char)
  (fits : α → Prop) [DecidablePred fits]

/-- A text is read as an item that fits, and is not read where the item does not fit. -/
def ReadsItem (item : α) (text : List Char) : Prop :=
  ∀ rest, Follows close rest →
    readOne (text ++ rest) = if fits item then some (item, rest) else none

variable {readOne close fits} {items : List α} {texts : List (List Char)}
  {blanks closing rest : List Char}

/-- What is read item by item is read between commas, unless an item does not fit. -/
theorem readSeparated_texts (closes : isJsonBlank close = false ∧ close ≠ ',')
    (ends : skipBlanks closing = close :: rest)
    (reads : List.Forall₂ (ReadsItem readOne close fits) items texts) (nonempty : items ≠ []) :
    readSeparated readOne close ([','].intercalate texts ++ closing) =
      if ∀ item ∈ items, fits item then some (items, rest) else none := by
  induction reads with
  | nil => exact absurd rfl nonempty
  | @cons item text items texts read others ih =>
    cases others with
    | nil =>
      have last := read closing (.inr (by rw [ends]; rfl))
      rw [List.intercalate_singleton, readSeparated, last]
      by_cases fit : fits item <;> simp [fit, ends]
    | @cons next text' items texts read' others =>
      have first := read (',' :: ([','].intercalate (text' :: texts) ++ closing)) (.inl rfl)
      have later := ih (List.cons_ne_nil _ _)
      have shape : [','].intercalate (text :: text' :: texts) ++ closing =
          text ++ ',' :: ([','].intercalate (text' :: texts) ++ closing) := by
        simp [List.intercalate_cons_cons]
      rw [shape, readSeparated, first]
      by_cases fit : fits item
      · have all : (∀ x ∈ item :: next :: items, fits x) ↔ ∀ x ∈ next :: items, fits x := by
          simp [fit]
        simp only [fit, if_true, skipBlanks_cons (c := ',') rfl, Ne.symm closes.2, if_false]
        rw [dif_pos, later]
        · simp only [all]
          split <;> rfl
        · simp only [List.length_append, List.length_cons]
          omega
      · simp [fit]

/-- Between brackets there may be nothing; otherwise the first item does not start like the end. -/
theorem readEnclosed_texts (closes : isJsonBlank close = false ∧ close ≠ ',')
    (blank : ∀ c ∈ blanks, isJsonBlank c = true)
    (ends : skipBlanks closing = close :: rest)
    (starts : ∀ text ∈ texts.head?, ∃ c more, text = c :: more ∧ isJsonBlank c = false ∧ c ≠ close)
    (reads : List.Forall₂ (ReadsItem readOne close fits) items texts) :
    readEnclosed readOne close (blanks ++ ([','].intercalate texts ++ closing)) =
      if ∀ item ∈ items, fits item then some (items, rest) else none := by
  rw [readEnclosed, skipBlanks_append blank]
  cases reads with
  | nil => simp [ends]
  | @cons item text items texts read others =>
    have separated := readSeparated_texts closes ends (.cons read others) (List.cons_ne_nil _ _)
    obtain ⟨c, more, start, visible, other⟩ := starts text rfl
    obtain ⟨behind, whole⟩ : ∃ behind,
        [','].intercalate (text :: texts) ++ closing = c :: behind := by
      cases texts <;> simp [start]
    rw [whole] at separated ⊢
    rw [skipBlanks_cons visible]
    simp only [other, if_false, separated]

end

/-- The texts of some items, with blanks in front of all but the first. -/
def spaced (blanks : List Char) : List (List Char) → List (List Char)
  | [] => []
  | text :: others => text :: others.map (blanks ++ ·)

theorem intercalate_spaced (blanks : List Char) {texts : List (List Char)} (nonempty : texts ≠ []) :
    [','].intercalate (texts.map (blanks ++ ·)) = blanks ++ [','].intercalate (spaced blanks texts) := by
  rcases texts with _ | ⟨text, _ | ⟨next, others⟩⟩
  · exact absurd rfl nonempty
  · simp [spaced]
  · simp [spaced, List.intercalate_cons_cons]


/-- Items between brackets, with blanks that the items do not count. -/
def Encloses (opening close : Char) (texts : List (List Char)) (whole : List Char) : Prop :=
  ∃ blanks closing, (∀ c ∈ blanks, isJsonBlank c = true) ∧
    whole = opening :: (blanks ++ ([','].intercalate (spaced blanks texts) ++ closing)) ∧
    ∀ rest, skipBlanks (closing ++ rest) = close :: rest

section

variable {α : Type} {readOne : List Char → Option (α × List Char)} {opening close : Char}
  {fits : α → Prop} [DecidablePred fits] {items : List α} {texts : List (List Char)}
  {whole : List Char}

theorem ReadsItem.spaced {item : α} {text blanks : List Char}
    (reads : ReadsItem readOne close fits item text)
    (ignores : ∀ text, readOne (blanks ++ text) = readOne text) :
    ReadsItem readOne close fits item (blanks ++ text) := fun rest follows => by
  rw [List.append_assoc, ignores]
  exact reads rest follows

theorem forall₂_spaced {R : α → List Char → Prop} {f : α → List Char} {blanks : List Char}
    (first : ∀ item ∈ items, R item (f item)) (later : ∀ item ∈ items, R item (blanks ++ f item)) :
    List.Forall₂ R items (spaced blanks (items.map f)) := by
  cases items with
  | nil => exact .nil
  | cons item others =>
    refine .cons (first item List.mem_cons_self) ?_
    rw [List.map_map]
    exact List.forall₂_map_right_iff.mpr (List.forall₂_same.mpr fun other member =>
      later other (List.mem_cons_of_mem _ member))

theorem Encloses.read (encloses : Encloses opening close texts whole)
    (closes : isJsonBlank close = false ∧ close ≠ ',')
    (starts : ∀ text ∈ texts, ∃ c more, text = c :: more ∧ isJsonBlank c = false ∧ c ≠ close)
    (reads : ∀ blanks : List Char, (∀ c ∈ blanks, isJsonBlank c = true) →
      List.Forall₂ (ReadsItem readOne close fits) items (spaced blanks texts))
    (rest : List Char) : ∃ inner, whole ++ rest = opening :: inner ∧
      readEnclosed readOne close inner =
        if ∀ item ∈ items, fits item then some (items, rest) else none := by
  obtain ⟨blanks, closing, blank, rfl, ends⟩ := encloses
  refine ⟨blanks ++ ([','].intercalate (spaced blanks texts) ++ (closing ++ rest)), by simp, ?_⟩
  refine readEnclosed_texts closes blank (ends rest) ?_ (reads blanks blank)
  intro text first
  cases texts with
  | nil => cases first
  | cons text' others =>
    cases first
    exact starts text List.mem_cons_self

end

/-! ### Values -/

mutual

/-- How many lists and mappings enclose each other in a value. -/
def nesting : Value → Nat
  | .list items => nestingItems items + 1
  | .map entries => nestingEntries entries + 1
  | _ => 0

def nestingItems : List Value → Nat
  | [] => 0
  | value :: rest => max (nesting value) (nestingItems rest)

def nestingEntries : List (String × Value) → Nat
  | [] => 0
  | (_, value) :: rest => max (nesting value) (nestingEntries rest)

end

theorem nesting_list_le {items : List Value} {depth : Nat} :
    (Value.list items).nesting ≤ depth + 1 ↔ ∀ item ∈ items, item.nesting ≤ depth := by
  rw [nesting, Nat.add_le_add_iff_right]
  induction items with
  | nil => simp [nestingItems]
  | cons item rest ih => rw [nestingItems, Nat.max_le, ih, List.forall_mem_cons]

theorem nesting_map_le {entries : Mapping} {depth : Nat} :
    (Value.map entries).nesting ≤ depth + 1 ↔ ∀ entry ∈ entries, entry.2.nesting ≤ depth := by
  rw [nesting, Nat.add_le_add_iff_right]
  induction entries with
  | nil => simp [nestingEntries]
  | cons entry rest ih => rw [nestingEntries, Nat.max_le, ih, List.forall_mem_cons]

theorem nesting_le {depth : Nat} {v : Value} (plain : Plain depth v) : v.nesting ≤ depth := by
  induction plain with
  | null | bool | int | str => exact Nat.zero_le _
  | list _ ih => exact nesting_list_le.mpr ih
  | map _ _ ih => exact nesting_map_le.mpr ih

/-- How a key and its value stand in a mapping. -/
def entryText (space : List Char) (text : Value → List Char) (entry : String × Value) : List Char :=
  quote entry.1 ++ ':' :: (space ++ text entry.2)

/-- A way to lay out values, each at its level. -/
structure Lays (space : List Char) (text : Nat → Value → List Char) : Prop where
  blank : ∀ c ∈ space, isJsonBlank c = true
  scalar : ∀ level v, v.isScalar = true → text level v = scalarText v
  list : ∀ level items, Encloses '[' ']' (items.map (text (level + 1))) (text level (.list items))
  map : ∀ level entries,
    Encloses '\x7b' '\x7d' (entries.map (entryText space (text (level + 1)))) (text level (.map entries))

section

variable {space : List Char} {text : Nat → Value → List Char}

theorem nesting_of_isScalar {v : Value} (single : v.isScalar = true) : v.nesting = 0 := by
  cases v with
  | list | map => cases single
  | null | bool | num | str => rfl

/-- No value starts with a blank or with the end of a list. -/
theorem Lays.head (lays : Lays space text) {depth : Nat} {v : Value} (plain : Plain depth v)
    (level : Nat) : ∃ c more, text level v = c :: more ∧ isJsonBlank c = false ∧ c ≠ ']' := by
  cases v with
  | list items =>
    obtain ⟨_, _, _, same, _⟩ := lays.list level items
    exact ⟨'[', _, same, by decide⟩
  | map entries =>
    obtain ⟨_, _, _, same, _⟩ := lays.map level entries
    exact ⟨'\x7b', _, same, by decide⟩
  | null | bool | num | str =>
    rw [lays.scalar level _ rfl]
    exact scalarText_head rfl plain

theorem readValue_blanks {blanks : List Char} (blank : ∀ c ∈ blanks, isJsonBlank c = true)
    (depth : Nat) (rest : List Char) : readValue depth (blanks ++ rest) = readValue depth rest := by
  unfold readValue
  rw [skipBlanks_append blank]

theorem readEntry_blanks {α : Type} {blanks : List Char} (blank : ∀ c ∈ blanks, isJsonBlank c = true)
    (readOne : List Char → Option (α × List Char)) (rest : List Char) :
    readEntry readOne (blanks ++ rest) = readEntry readOne rest := by
  unfold readEntry
  rw [skipBlanks_append blank]

theorem readEntry_text {α : Type} (readOne : List Char → Option (α × List Char)) (key : String)
    (text : List Char) : readEntry readOne (quote key ++ ':' :: text) =
      (readOne text).map fun (value, rest) => ((key, value), rest) := by
  have quoted := readString_quoted key.toList (':' :: text)
  have spelled : quote key ++ ':' :: text =
      '"' :: (key.toList.flatMap escape ++ '"' :: ':' :: text) := by
    simp [quote]
  rw [spelled, readEntry, skipBlanks_cons (by decide)]
  simp only [quoted, Option.bind_eq_bind, Option.bind_some, skipBlanks_cons (c := ':') rfl,
    Option.pure_def, String.ofList_toList]
  cases readOne text <;> rfl

/-- A value is read back from its text, whatever follows that does not go on with it, unless it has
more levels than it may have. -/
theorem readValue_laid (lays : Lays space text) {depth : Nat} {v : Value} (plain : Plain depth v)
    (d level : Nat) {rest : List Char} (bars : Bars continuesNumber rest) :
    readValue d (text level v ++ rest) = if v.nesting ≤ d then some (v, rest) else none := by
  have scalar {v : Value} (plain : Plain 0 v) (single : v.isScalar = true)
      (d level : Nat) {rest : List Char} (bars : Bars continuesNumber rest) :
      readValue d (text level v ++ rest) = if v.nesting ≤ d then some (v, rest) else none := by
    rw [lays.scalar level v single, readValue_scalarText plain single d bars,
      nesting_of_isScalar single, if_pos (Nat.zero_le d)]
  induction plain generalizing d level rest with
  | null => exact scalar .null rfl d level bars
  | bool b => exact scalar (.bool b) rfl d level bars
  | int fits => exact scalar (.int fits) rfl d level bars
  | str s => exact scalar (.str s) rfl d level bars
  | @list depth items plain ih =>
    cases d with
    | zero =>
      obtain ⟨_, _, _, same, _⟩ := lays.list level items
      have deep : ¬ (Value.list items).nesting ≤ 0 := by simp [nesting]
      rw [if_neg deep, same, List.cons_append]
      unfold readValue
      rw [skipBlanks_cons (by decide)]
      rfl
    | succ d =>
      have one (item : Value) (member : item ∈ items) :
          ReadsItem (readValue d) ']' (·.nesting ≤ d) item (text (level + 1) item) :=
        fun rest (follows : Follows ']' rest) =>
          ih item member d (level + 1) (follows.bars (by decide))
      have reads (blanks : List Char) (blank : ∀ c ∈ blanks, isJsonBlank c = true) :
          List.Forall₂ (ReadsItem (readValue d) ']' (·.nesting ≤ d)) items
            (spaced blanks (items.map (text (level + 1)))) :=
        forall₂_spaced one fun item member => (one item member).spaced (readValue_blanks blank d)
      obtain ⟨inner, same, read⟩ := (lays.list level items).read (by decide)
        (List.forall_mem_map.mpr fun item member => lays.head (plain item member) (level + 1)) reads rest
      unfold readValue
      rw [same, skipBlanks_cons (by decide)]
      simp only [read, nesting_list_le]
      split <;> rfl
  | @map depth entries distinct plain ih =>
    cases d with
    | zero =>
      obtain ⟨_, _, _, same, _⟩ := lays.map level entries
      have deep : ¬ (Value.map entries).nesting ≤ 0 := by simp [nesting]
      rw [if_neg deep, same, List.cons_append]
      unfold readValue
      rw [skipBlanks_cons (by decide)]
      rfl
    | succ d =>
      have one (entry : String × Value) (member : entry ∈ entries) :
          ReadsItem (readEntry (readValue d)) '\x7d' (·.2.nesting ≤ d) entry
            (entryText space (text (level + 1)) entry) := by
        intro rest (follows : Follows '\x7d' rest)
        rw [entryText, List.append_assoc, List.cons_append, List.append_assoc, readEntry_text,
          readValue_blanks lays.blank, ih entry member d (level + 1) (follows.bars (by decide))]
        split <;> rfl
      have reads (blanks : List Char) (blank : ∀ c ∈ blanks, isJsonBlank c = true) :
          List.Forall₂ (ReadsItem (readEntry (readValue d)) '\x7d' (·.2.nesting ≤ d)) entries
            (spaced blanks (entries.map (entryText space (text (level + 1))))) :=
        forall₂_spaced one fun entry member => (one entry member).spaced (readEntry_blanks blank _)
      obtain ⟨inner, same, read⟩ := (lays.map level entries).read (by decide)
        (List.forall_mem_map.mpr fun entry _ => ⟨'"', _, rfl, by decide⟩) reads rest
      unfold readValue
      rw [same, skipBlanks_cons (by decide)]
      simp only [read, nesting_map_le]
      split <;> rfl

end

/-! ### Compact text -/

@[simp] theorem spaced_nil (texts : List (List Char)) : spaced [] texts = texts := by
  cases texts with
  | nil => rfl
  | cons text others => simp [spaced]

theorem compactItems_eq (items : List Value) :
    compactItems items = [','].intercalate (items.map compact) := by
  induction items with
  | nil => rfl
  | cons item more ih =>
    cases more with
    | nil => simp [compactItems]
    | cons next others =>
      rw [compactItems, ih]
      · simp
      · simp

theorem compactEntries_eq (entries : List (String × Value)) :
    compactEntries entries = [','].intercalate (entries.map (entryText [] compact)) := by
  induction entries with
  | nil => rfl
  | cons entry more ih =>
    obtain ⟨key, value⟩ := entry
    cases more with
    | nil => simp [compactEntries, entryText]
    | cons next others =>
      rw [compactEntries, ih]
      · simp [entryText]
      · simp

theorem compact_lays : Lays [] fun _ => compact where
  blank := List.forall_mem_nil _
  scalar _ v single := by
    cases v with
    | list | map => cases single
    | null | bool | num | str => rfl
  list _ items := ⟨[], [']'], List.forall_mem_nil _, by simp [compact, compactItems_eq], fun _ => rfl⟩
  map _ entries :=
    ⟨[], ['\x7d'], List.forall_mem_nil _, by simp [compact, compactEntries_eq], fun _ => rfl⟩

/-! ### Text over several lines -/

theorem blank_of_mem_newline {level : Nat} : ∀ c ∈ newline level, isJsonBlank c = true := by
  refine List.forall_mem_cons.mpr ⟨rfl, fun c member => ?_⟩
  rw [(List.mem_replicate.mp member).2]
  rfl

theorem prettyItems_eq (level : Nat) (items : List Value) : prettyItems level items =
    [','].intercalate ((items.map (pretty level)).map (newline level ++ ·)) := by
  induction items with
  | nil => rfl
  | cons item more ih =>
    cases more with
    | nil => simp [prettyItems]
    | cons next others =>
      rw [prettyItems, ih]
      · simp [List.intercalate_cons_cons]
      · simp

theorem prettyEntries_eq (level : Nat) (entries : List (String × Value)) :
    prettyEntries level entries = [','].intercalate
      ((entries.map (entryText [' '] (pretty level))).map (newline level ++ ·)) := by
  induction entries with
  | nil => rfl
  | cons entry more ih =>
    obtain ⟨key, value⟩ := entry
    cases more with
    | nil => simp [prettyEntries, entryText]
    | cons next others =>
      rw [prettyEntries, ih]
      · simp only [List.map_cons, List.intercalate_cons_cons, entryText, List.append_assoc,
          List.cons_append, List.nil_append]
      · simp

theorem pretty_lays : Lays [' '] pretty where
  blank := by simp [isJsonBlank]
  scalar level v single := by
    cases v with
    | list | map => cases single
    | null | bool | num | str => rw [pretty] <;> simp
  list level items := by
    cases items with
    | nil => exact ⟨[], [']'], List.forall_mem_nil _, by simp [pretty, spaced], fun _ => rfl⟩
    | cons item others =>
      refine ⟨newline (level + 1), newline level ++ [']'], blank_of_mem_newline, ?_, fun rest => ?_⟩
      · rw [pretty, prettyItems_eq, intercalate_spaced _ (by simp)]
        · simp
        · simp
      · rw [List.append_assoc, skipBlanks_append blank_of_mem_newline]
        rfl
  map level entries := by
    cases entries with
    | nil => exact ⟨[], ['\x7d'], List.forall_mem_nil _, by simp [pretty, spaced], fun _ => rfl⟩
    | cons entry others =>
      refine ⟨newline (level + 1), newline level ++ ['\x7d'], blank_of_mem_newline, ?_, fun rest => ?_⟩
      · rw [pretty, prettyEntries_eq, intercalate_spaced _ (by simp)]
        · simp
        · simp
      · rw [List.append_assoc, skipBlanks_append blank_of_mem_newline]
        rfl

/-! ### Distinct keys -/

end Value

namespace Mapping

theorem insert_of_not_mem {m : Mapping} {name : String} (absent : name ∉ keys m) (value : Value) :
    insert m name value = m ++ [(name, value)] := by
  induction m with
  | nil => rfl
  | cons entry rest ih =>
    obtain ⟨key, old⟩ := entry
    simp only [keys, List.map_cons, List.mem_cons, not_or] at absent
    rw [insert, if_neg (Ne.symm absent.1), ih absent.2, List.cons_append]

/-- Entries with keys of their own are put behind each other. -/
theorem merge_of_nodup {m new : Mapping} (distinct : (keys (m ++ new)).Nodup) :
    merge m new = m ++ new := by
  induction new generalizing m with
  | nil => exact (List.append_nil m).symm
  | cons entry rest ih =>
    obtain ⟨name, value⟩ := entry
    have absent : name ∉ keys m := by
      intro present
      rw [keys, List.map_append, List.nodup_append] at distinct
      exact distinct.2.2 name present name (by simp) rfl
    have shifted : m ++ (name, value) :: rest = (m ++ [(name, value)]) ++ rest := by simp
    rw [shifted] at distinct ⊢
    rw [← ih distinct, ← insert_of_not_mem absent]
    rfl

end Mapping

namespace Value

theorem mergedItems_eq_map (items : List Value) : mergedItems items = items.map merged := by
  induction items with
  | nil => rfl
  | cons item rest ih => rw [mergedItems, ih, List.map_cons]

theorem mergedEntries_eq_map (entries : List (String × Value)) :
    mergedEntries entries = entries.map fun entry => (entry.1, merged entry.2) := by
  induction entries with
  | nil => rfl
  | cons entry rest ih =>
    obtain ⟨key, value⟩ := entry
    rw [mergedEntries, ih, List.map_cons]

/-- Nothing is merged where no key is repeated. -/
theorem merged_eq {depth : Nat} {v : Value} (plain : Plain depth v) : v.merged = v := by
  induction plain with
  | null | bool | int | str => rfl
  | @list depth items plain ih =>
    rw [merged, mergedItems_eq_map, List.map_congr_left ih, List.map_id']
  | @map depth entries distinct plain ih =>
    have same : (entries.map fun entry => (entry.1, merged entry.2)) = entries.map id := by
      apply List.map_congr_left
      intro entry member
      exact congrArg (entry.1, ·) (ih entry member)
    rw [merged, mergedEntries_eq_map, same, List.map_id, Mapping.ofEntries]
    exact congrArg Value.map (Mapping.merge_of_nodup distinct)

/-- What is read of a whole text, with blanks around it. -/
theorem ofTextWithin?_laid {space before after : List Char} {layout : Nat → Value → List Char}
    (lays : Lays space layout) {depth : Nat} {v : Value} (plain : Plain depth v) (d level : Nat)
    (blank : ∀ c ∈ before, isJsonBlank c = true) (blank' : ∀ c ∈ after, isJsonBlank c = true) :
    ofTextWithin? d (before ++ (layout level v ++ after)) = if v.nesting ≤ d then some v else none := by
  have bars : Bars continuesNumber after := fun c first =>
    not_continuesNumber_of_blank (blank' c (List.mem_of_mem_head? first))
  have read := readValue_laid lays plain d level bars
  rw [ofTextWithin?, readValue_blanks blank, read]
  split_ifs with fits
  · simp only [skipBlanks_of_blank blank', merged_eq plain]
    rfl
  · rfl

theorem ofTextWithin?_compact {depth : Nat} {v : Value} (plain : Plain depth v) :
    ofTextWithin? depth v.compact = some v := by
  have read := ofTextWithin?_laid compact_lays plain depth 0 (List.forall_mem_nil _)
    (List.forall_mem_nil _)
  rwa [if_pos (nesting_le plain), List.nil_append, List.append_nil] at read

end Value

end PromptScript
