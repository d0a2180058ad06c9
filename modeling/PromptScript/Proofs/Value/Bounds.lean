import PromptScript.Proofs.Value.Mapping
import PromptScript.Proofs.Value.RoundTrip

/-!
What a value can be that is read from text: it has no more levels than may be read, its integers have 64
bits, and no key of its mappings is repeated.
-/
namespace PromptScript

namespace Mapping

variable {m new : Mapping} {p : Value → Prop}

theorem keys_merge_nodup (nodup : (keys m).Nodup) (new : Mapping) : (keys (merge m new)).Nodup := by
  induction new generalizing m with
  | nil => exact nodup
  | cons entry rest ih => exact ih (keys_insert_nodup nodup entry.1 entry.2)

theorem forall_mem_insert (all : ∀ entry ∈ m, p entry.2) (name : String) {value : Value}
    (here : p value) : ∀ entry ∈ insert m name value, p entry.2 := by
  induction m with
  | nil => exact List.forall_mem_singleton.mpr here
  | cons entry rest ih =>
    obtain ⟨first, others⟩ := List.forall_mem_cons.mp all
    rw [insert]
    split
    · exact List.forall_mem_cons.mpr ⟨here, others⟩
    · exact List.forall_mem_cons.mpr ⟨first, ih others⟩

/-- What is put into a mapping stands in it with the values that it was put with. -/
theorem forall_mem_merge (old : ∀ entry ∈ m, p entry.2) (all : ∀ entry ∈ new, p entry.2) :
    ∀ entry ∈ merge m new, p entry.2 := by
  induction new generalizing m with
  | nil => exact old
  | cons entry rest ih =>
    obtain ⟨here, others⟩ := List.forall_mem_cons.mp all
    exact ih (forall_mem_insert old entry.1 here) others

end Mapping

namespace Value

variable {α : Type} {text rest : List Char} {depth : Nat} {v : Value}

/-- A value without floating-point numbers. -/
inductive Exact : Value → Prop
  | null : Exact .null
  | bool (b : Bool) : Exact (.bool b)
  | int (n : Int) : Exact (.num (.int n))
  | str (s : String) : Exact (.str s)
  | list {items : List Value} : (∀ item ∈ items, Exact item) → Exact (.list items)
  | map {entries : Mapping} : (∀ entry ∈ entries, Exact entry.2) → Exact (.map entries)

/-- A value with at most `depth` levels, whose integers have 64 bits. Floating-point numbers may stand in it,
and keys may be repeated. -/
inductive Within : Nat → Value → Prop
  | scalar {depth : Nat} {v : Value} : v.isScalar = true →
    (∀ n, v = .num (.int n) → fitsInteger n = true) → Within depth v
  | list {depth : Nat} {items : List Value} :
    (∀ item ∈ items, Within depth item) → Within (depth + 1) (.list items)
  | map {depth : Nat} {entries : Mapping} :
    (∀ entry ∈ entries, Within depth entry.2) → Within (depth + 1) (.map entries)

/-! ### What is read -/

theorem fitsInteger_of_makeNumber {negative : Bool} {whole fraction : List Char} {exponent : Option Int}
    {n : Int} (h : makeNumber negative whole fraction exponent = some (.int n)) :
    fitsInteger n = true := by
  unfold makeNumber at h
  extract_lets integer at h
  split at h
  · next fits =>
    have same : integer = n := Number.int.inj (Option.some.inj h)
    exact same ▸ fits.2.2.1
  · obtain ⟨x, _, same⟩ := Option.map_eq_some_iff.mp h
    cases same

theorem fitsInteger_of_readNumber {n : Int} (h : readNumber text = some (.int n, rest)) :
    fitsInteger n = true := by
  unfold readNumber at h
  simp only [Option.bind_eq_bind, Option.bind_eq_some_iff] at h
  obtain ⟨whole, _, fraction, _, exponent, _, number, made, same⟩ := h
  cases same
  exact fitsInteger_of_makeNumber made

theorem readScalar_within (h : readScalar text = some (v, rest)) : Within depth v := by
  unfold readScalar at h
  split at h
  · cases h
    exact .scalar rfl nofun
  · cases h
    exact .scalar rfl nofun
  · cases h
    exact .scalar rfl nofun
  · obtain ⟨_, _, same⟩ := Option.map_eq_some_iff.mp h
    cases same
    exact .scalar rfl nofun
  · obtain ⟨⟨number, behind⟩, read, same⟩ := Option.map_eq_some_iff.mp h
    cases same
    refine .scalar rfl ?_
    rintro n ⟨⟩
    exact fitsInteger_of_readNumber read

section

variable {readOne : List Char → Option (α × List Char)} {close : Char} {p : α → Prop}

theorem forall_of_readSeparated {items : List α}
    (h : readSeparated readOne close text = some (items, rest))
    (one : ∀ {text rest a}, readOne text = some (a, rest) → p a) : ∀ item ∈ items, p item := by
  -- Only where the reader finds the closing mark, or a comma and more items, is there a result.
  induction text using readSeparated.induct readOne close generalizing items with
  | case1 text noItem => rw [readSeparated, noItem] at h; cases h
  | case2 text item behind read nothing => rw [readSeparated, read] at h; simp [nothing] at h
  | case3 text item behind read more found =>
    rw [readSeparated, read] at h
    simp only [found, if_true] at h
    cases h
    exact List.forall_mem_singleton.mpr (one read)
  | case4 text item behind read more shorter found other ih =>
    rw [readSeparated, read] at h
    simp only [found, if_neg other, if_true, dif_pos shorter] at h
    obtain ⟨⟨others, tail⟩, later, same⟩ := Option.map_eq_some_iff.mp h
    cases same
    exact List.forall_mem_cons.mpr ⟨one read, ih later⟩
  | case5 text item behind read more longer found other =>
    rw [readSeparated, read] at h
    simp [found, other, longer] at h
  | case6 text item behind read c more found other noComma =>
    rw [readSeparated, read] at h
    simp [found, other, noComma] at h

theorem forall_of_readEnclosed {items : List α}
    (h : readEnclosed readOne close text = some (items, rest))
    (one : ∀ {text rest a}, readOne text = some (a, rest) → p a) : ∀ item ∈ items, p item := by
  unfold readEnclosed at h
  split at h
  · cases h
  · split at h
    · cases h
      exact List.forall_mem_nil _
    · exact forall_of_readSeparated h one

theorem of_readEntry {entry : String × α} (h : readEntry readOne text = some (entry, rest))
    (one : ∀ {text rest a}, readOne text = some (a, rest) → p a) : p entry.2 := by
  unfold readEntry at h
  split at h
  · simp only [Option.bind_eq_bind, Option.bind_eq_some_iff] at h
    obtain ⟨⟨key, after⟩, _, h⟩ := h
    simp only at h
    split at h
    · obtain ⟨⟨value, tail⟩, read, same⟩ := Option.bind_eq_some_iff.mp h
      cases same
      exact one read
    · cases h
  · cases h

end

theorem readValue_within (h : readValue depth text = some (v, rest)) : Within depth v := by
  induction depth generalizing text rest v with
  | zero =>
    unfold readValue at h
    split at h
    · cases h
    · cases h
    · contradiction
    · contradiction
    · exact readScalar_within h
  | succ depth ih =>
    unfold readValue at h
    split at h
    · cases h
    · cases h
    -- The items and the entries of what is in brackets are read with one level less.
    · next fewer _ =>
      obtain rfl := Nat.succ.inj fewer
      obtain ⟨⟨items, behind⟩, read, same⟩ := Option.map_eq_some_iff.mp h
      cases same
      exact .list (forall_of_readEnclosed read ih)
    · next fewer _ =>
      obtain rfl := Nat.succ.inj fewer
      obtain ⟨⟨entries, behind⟩, read, same⟩ := Option.map_eq_some_iff.mp h
      cases same
      exact .map (forall_of_readEnclosed read fun entry => of_readEntry entry ih)
    · exact readScalar_within h

/-! ### What is left when repeated keys are merged -/

/-- Putting the values of repeated keys together adds no level and drops no kind of value but whole
entries. -/
theorem Within.plain_merged (within : Within depth v) (noFloat : v.merged.Exact) : Plain depth v.merged := by
  induction within with
  | @scalar depth v single fits =>
    cases v with
    | null => exact .null
    | bool b => exact .bool b
    | num n =>
      cases n with
      | int n => exact .int (fits n rfl)
      | float x => cases noFloat
    | str s => exact .str s
    | list | map => cases single
  | @list depth items _ ih =>
    rw [merged, mergedItems_eq_map] at noFloat ⊢
    cases noFloat with
    | list all =>
      refine .list (List.forall_mem_map.mpr fun item member => ?_)
      exact ih item member (all _ (List.mem_map_of_mem member))
  | @map depth entries _ ih =>
    rw [merged, mergedEntries_eq_map] at noFloat ⊢
    cases noFloat with
    | map all =>
      refine .map (Mapping.keys_merge_nodup (m := []) List.nodup_nil _) fun entry member => ?_
      -- The value of an entry that is left was written in some entry.
      have written : ∃ other ∈ entries, entry.2 = other.2.merged :=
        Mapping.forall_mem_merge (p := fun value => ∃ other ∈ entries, value = other.2.merged)
          (List.forall_mem_nil _) (List.forall_mem_map.mpr fun other known => ⟨other, known, rfl⟩) entry
          member
      obtain ⟨other, known, same⟩ := written
      rw [same]
      exact ih other known (same ▸ all entry member)

/-- A value without floating-point numbers that is read from text is plain, and has no more levels than
may be read. -/
theorem plain_of_ofTextWithin? (h : ofTextWithin? depth text = some v) (noFloat : v.Exact) :
    Plain depth v := by
  unfold ofTextWithin? at h
  split at h
  · next value behind read =>
    split at h
    · cases h
      exact (readValue_within read).plain_merged noFloat
    · cases h
  · cases h

end Value

end PromptScript
