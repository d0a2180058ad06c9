import Mathlib.Data.List.Nodup
import PromptScript.Value.Basic

/-!
What is found in a mapping. If no key is repeated, a key is found wherever its entry stands. Whatever
is put into a mapping, the keys that it had stay in front, in their order.
-/
namespace PromptScript.Mapping

variable {m entries other : Mapping} {name : String} {value : Value}

theorem keys_insert_nodup (nodup : (keys m).Nodup) (name : String) (value : Value) :
    (keys (insert m name value)).Nodup := by
  rw [keys_insert]
  by_cases here : name ∈ keys m
  · rwa [if_pos here]
  · rw [if_neg here]
    exact nodup.append (List.nodup_singleton name) (by simpa using here)

theorem get?_eq_none (absent : name ∉ keys m) :
    get? m name = none := by
  induction m with
  | nil => rfl
  | cons entry rest ih =>
    obtain ⟨differs, later⟩ := not_or.mp fun known => absent (List.mem_cons.mpr known)
    rw [get?, if_neg (Ne.symm differs)]
    exact ih later

/-- Behind the new entries, the old ones are still found. -/
theorem get?_merge {new : Mapping} (nodup : (keys new).Nodup) (m : Mapping) (name : String) :
    get? (merge m new) name = (get? new name).or (get? m name) := by
  induction new generalizing m with
  | nil => rfl
  | cons entry rest ih =>
    obtain ⟨key, value⟩ := entry
    obtain ⟨absent, later⟩ := List.nodup_cons.mp nodup
    refine (ih later (insert m key value)).trans ?_
    rw [get?_insert, get?]
    by_cases same : key = name
    · -- The key occurs once, so that no later entry wins over this one.
      subst same
      simp [get?_eq_none absent]
    · simp [same]

theorem mem_of_get? (h : get? entries name = some value) : (name, value) ∈ entries := by
  induction entries with
  | nil => cases h
  | cons entry rest ih =>
    obtain ⟨key, old⟩ := entry
    rw [get?] at h
    split at h
    · next same =>
      cases h
      exact same ▸ List.mem_cons_self
    · exact List.mem_cons_of_mem _ (ih h)

/-- Where no key is repeated, each entry is found under its key. -/
theorem get?_of_mem (distinct : (keys entries).Nodup) {entry : String × Value} (member : entry ∈ entries) :
    get? entries entry.1 = some entry.2 := by
  induction entries with
  | nil => cases member
  | cons first rest ih =>
    obtain ⟨absent, later⟩ := List.nodup_cons.mp distinct
    rcases List.mem_cons.mp member with rfl | behind
    · exact if_pos rfl
    · have differs : first.1 ≠ entry.1 := fun same =>
        absent (List.mem_map.mpr ⟨entry, behind, same.symm⟩)
      rw [get?, if_neg differs, ih later behind]

theorem get?_eq_some_iff (distinct : (keys entries).Nodup) :
    get? entries name = some value ↔ (name, value) ∈ entries :=
  ⟨mem_of_get?, get?_of_mem distinct⟩

theorem get?_perm (perm : entries.Perm other) (distinct : (keys entries).Nodup) (name : String) :
    get? entries name = get? other name := by
  have distinct' : (keys other).Nodup := (perm.map Prod.fst).nodup_iff.mp distinct
  exact Option.ext fun value => by
    rw [get?_eq_some_iff distinct, get?_eq_some_iff distinct', perm.mem_iff]

theorem get?_ofEntries (distinct : (keys entries).Nodup) (name : String) :
    get? (ofEntries entries) name = get? entries name := by
  rw [ofEntries, get?_merge distinct, get?_nil, Option.or_none]

/-! ### Putting values one after the other -/

/-- Values are put under names that may be used. -/
inductive Puts (may : String → Prop) (m : Mapping) : Mapping → Prop
  | nothing : Puts may m m
  | value {next : Mapping} {name : String} (value : Value) : Puts may m next → may name →
    Puts may m (insert next name value)

namespace Puts

variable {may other : String → Prop} {next last : Mapping}

theorem single (value : Value) (allowed : may name) : Puts may m (insert m name value) :=
  .value value .nothing allowed

theorem trans (first : Puts may m next) (second : Puts may next last) : Puts may m last := by
  induction second with
  | nothing => exact first
  | value value _ allowed ih => exact .value value ih allowed

theorem mono (puts : Puts may m next) (allows : ∀ name, may name → other name) :
    Puts other m next := by
  induction puts with
  | nothing => exact .nothing
  | value value _ allowed ih => exact .value value ih (allows _ allowed)

/-- No key goes or changes its place; the new ones come behind. -/
theorem keys_eq (puts : Puts may m next) :
    ∃ added, keys next = keys m ++ added ∧ ∀ name ∈ added, may name := by
  induction puts with
  | nothing => exact ⟨[], (List.append_nil _).symm, nofun⟩
  | @value next name value _ allowed ih =>
    obtain ⟨added, behind, used⟩ := ih
    rw [keys_insert]
    by_cases known : name ∈ keys next
    · rw [if_pos known]
      exact ⟨added, behind, used⟩
    · rw [if_neg known, behind, List.append_assoc]
      refine ⟨added ++ [name], rfl, fun other member => ?_⟩
      rcases List.mem_append.mp member with early | last
      · exact used other early
      · exact List.mem_singleton.mp last ▸ allowed

/-- Under a name that is not used, the same value is found as before. -/
theorem get?_eq (puts : Puts may m next) (unused : ¬ may name) : get? next name = get? m name := by
  induction puts with
  | nothing => rfl
  | @value next other value _ allowed ih =>
    have differs : other ≠ name := by
      rintro rfl
      exact unused allowed
    rw [get?_insert, if_neg differs, ih]

theorem eq_of_forall_not (puts : Puts may m next) (none : ∀ name, ¬ may name) : next = m := by
  cases puts with
  | nothing => rfl
  | value _ _ allowed => exact absurd allowed (none _)

end Puts

end PromptScript.Mapping
