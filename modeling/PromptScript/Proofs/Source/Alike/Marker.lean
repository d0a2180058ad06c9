import PromptScript.Proofs.Source.Alike.Expression

/-!
Include markers that stand elsewhere.
-/
namespace PromptScript.Source

open Text

variable {R : Nat → Nat → Prop} {b : Break} {s s' : Span} {text : List Char} {n : Nat}

/-! ### The parts of a text -/

/-- Parts of the same text, as far from where the text starts. -/
structure PartAlike (offset offset' length : Nat) (t t' : Span) : Prop where
  text : t'.text = t.text
  place : ∃ k, t.start = offset + k ∧ t'.start = offset' + k ∧ k + t.text.length ≤ length

theorem PartAlike.behind {offset offset' length : Nat} {t t' : Span}
    (h : PartAlike (offset + 1) (offset' + 1) length t t') :
    PartAlike offset offset' (length + 1) t t' := by
  obtain ⟨k, start, start', within⟩ := h.place
  exact ⟨h.text, k + 1, by omega, by omega, by omega⟩

theorem extendFirst_alike {offset offset' length : Nat} {spans spans' : List Span} (c : Char)
    (h : List.Forall₂ (PartAlike (offset + 1) (offset' + 1) length) spans spans') :
    List.Forall₂ (PartAlike offset offset' (length + 1)) (extendFirst offset c spans)
      (extendFirst offset' c spans') := by
  cases h with
  | nil => exact .cons ⟨rfl, 0, rfl, rfl, by simp⟩ .nil
  | cons here others =>
    obtain ⟨k, -, -, within⟩ := here.place
    refine .cons ⟨congrArg (c :: ·) here.text, 0, rfl, rfl, ?_⟩ (others.imp fun _ _ => .behind)
    simp only [List.length_cons]
    omega

theorem splitTopLevel_alike (separates : Char → Bool) (depth : Int) (quote : Option Char)
    (offset offset' : Nat) (text : List Char) :
    List.Forall₂ (PartAlike offset offset' text.length)
      (splitTopLevel separates depth quote offset text)
      (splitTopLevel separates depth quote offset' text) := by
  induction text generalizing depth quote offset offset' with
  | nil => exact .cons ⟨rfl, 0, rfl, rfl, le_rfl⟩ .nil
  | cons c rest ih =>
    cases quote with
    | some q => exact extendFirst_alike c (ih _ _ _ _)
    | none =>
      simp only [splitTopLevel]
      split
      · exact extendFirst_alike c (ih _ _ _ _)
      · split
        · exact .cons ⟨rfl, 0, rfl, rfl, Nat.zero_le _⟩ ((ih _ _ _ _).imp fun _ _ => .behind)
        · exact extendFirst_alike c (ih _ _ _ _)

/-- The parts of a text that stands elsewhere are its parts. -/
theorem Moved.splitTopLevel (h : Moved R .plain s s') (separates : Char → Bool) :
    List.Forall₂ (Moved R .plain) (s.splitTopLevel separates) (s'.splitTopLevel separates) := by
  rw [Span.splitTopLevel, Span.splitTopLevel, h.plain_text]
  refine (splitTopLevel_alike separates 0 none s.start s'.start s.text).imp fun t t' part => ?_
  obtain ⟨k, start, start', within⟩ := part.place
  refine ⟨by rw [Break.plain_write, part.text], fun {n m} measures => ?_, .inl rfl, nofun⟩
  obtain ⟨short, rfl⟩ := measures
  rw [Break.plain_write, List.length_take_of_le short, start, start', Nat.add_assoc, Nat.add_assoc]
  exact h.places (.plain (by omega))

/-! ### Includes -/

theorem readIncludePath_alike (h : Moved R .plain s s') :
    Alike R Eq (readIncludePath s) (readIncludePath s') := by
  unfold readIncludePath
  rw [h.plain_text]
  split
  · split
    · simp only
      split
      · exact .ok rfl
      · exact h.fault rfl
    · exact h.fault rfl
  · exact .ok rfl

theorem length_of_splitOnce? {c : Char} {before after : List Char}
    (h : splitOnce? c text = some (before, after)) : before.length + 1 ≤ text.length := by
  induction text generalizing before with
  | nil => cases h
  | cons d rest ih =>
    rw [splitOnce?] at h
    split at h
    · cases h
      simp
    · obtain ⟨⟨front, back⟩, read, same⟩ := Option.map_eq_some_iff.mp h
      cases same
      exact Nat.succ_le_succ (ih read)

theorem readBinding_alike (h : Moved R .plain s s') :
    Alike R Eq (readBinding s) (readBinding s') := by
  unfold readBinding
  rw [h.plain_text]
  split
  · next key value found =>
    split
    · have behind := h.drop (.plain (length_of_splitOnce? found))
      exact (readExpr_alike_of_idle behind (.inl rfl)).bind fun _ _ same => .ok (by rw [same])
    · exact h.fault rfl
  · exact h.fault rfl

theorem readIncludeWords_alike {marker marker' : Span} (place : Moved R .plain marker marker')
    (h : Moved R .plain s s') :
    Alike R Eq (readIncludeWords marker s) (readIncludeWords marker' s') := by
  have words : List.Forall₂ (Moved R .plain)
      ((s.splitTopLevel isBlank).filter fun word => !word.text.isEmpty)
      ((s'.splitTopLevel isBlank).filter fun word => !word.text.isEmpty) := by
    refine List.rel_filter (fun t t' moved => ?_) (h.splitTopLevel isBlank)
    simp only [moved.plain_text]
  unfold readIncludeWords
  generalize (s.splitTopLevel isBlank).filter _ = found, (s'.splitTopLevel isBlank).filter _ = found'
    at words
  cases words with
  | nil => exact place.fault rfl
  | cons path parameters =>
    refine (readIncludePath_alike path).bind fun target _ same => ?_
    refine (Related.mapM parameters fun _ _ => readBinding_alike).bind fun bindings bindings' all => ?_
    rw [List.forall₂_eq_eq_eq] at all
    exact .ok (by rw [same, all])

theorem prefix_of_includeEnd {quote : Option Char} (h : includeEnd quote text = some n) :
    [']', ']'] <+: text.drop n := by
  induction text generalizing n quote with
  | nil => cases h
  | cons c rest ih =>
    have later {quote : Option Char} (h : (includeEnd quote rest).map (· + 1) = some n) :
        [']', ']'] <+: (c :: rest).drop n := by
      obtain ⟨m, later, rfl⟩ := Option.map_eq_some_iff.mp h
      exact ih later
    cases quote with
    | some q => exact later h
    | none =>
      simp only [includeEnd] at h
      split at h
      · exact later h
      · split at h
        · next closes =>
          cases h
          obtain ⟨rfl, next⟩ := closes
          obtain ⟨more, rfl⟩ := List.head?_eq_some_iff.mp next
          exact ⟨more, rfl⟩
        · exact later h

/-- On a line that breaks, no marker is read. -/
theorem Remains.idle_of_marker {P : Prop} (h : Remains R b P s s') (lead : Lead.ofText s.text = .marker) :
    b.Idle s.text := by
  refine h.settled.resolve_right fun fills => ?_
  obtain ⟨inner, start⟩ := exists_of_marker lead
  exact fills.marker [] inner start .nil

theorem readInclude_alike {P : Prop} (h : Remains R b P s s') (lead : Lead.ofText s.text = .marker) :
    Alike R (Takes R b P s s') (readInclude s) (readInclude s') := by
  have idle := h.idle_of_marker lead
  have plain := h.toMoved.toPlain idle
  obtain ⟨inner, start⟩ := exists_of_marker lead
  unfold readInclude
  rw [plain.plain_text]
  cases found : includeEnd none (s.text.drop 2) with
  | none => exact h.fault rfl
  | some n =>
    have mark := (prefix_of_includeEnd found).length_le
    rw [start] at mark
    simp only [List.length_cons, List.length_nil, List.length_drop] at mark
    have within : n + 4 ≤ s.text.length := by
      rw [start]
      simp only [List.length_cons]
      omega
    have content : Moved R .plain ((s.drop 2).take n) ((s'.drop 2).take n) :=
      (plain.drop (.plain (by omega))).take (.plain (by rw [Span.text_drop, List.length_drop]; omega))
    refine (readIncludeWords_alike plain content).bind fun _ _ same => .ok ⟨same, ?_⟩
    exact h.drop_settled (.of_idle idle within) (.inl (idle.of_subset fun _ => List.mem_of_mem_drop))

end PromptScript.Source
