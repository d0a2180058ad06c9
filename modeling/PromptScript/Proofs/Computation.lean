import Mathlib.Dynamics.FixedPoints.Basic

/-!
Computations that carry a state and can fail, as evaluation, rendering and execution are built from
them: what their sequences give, and when they fail; and where steps lead that are made again and again.
-/
namespace PromptScript.Computation

variable {ε ρ α β : Type}

theorem bind_apply (first : ExceptT ε (StateM ρ) α) (second : α → ExceptT ε (StateM ρ) β) (r : ρ) :
    (first >>= second) r = match first r with
      | (.ok a, r) => second a r
      | (.error e, r) => (.error e, r) := by
  simp only [bind, ExceptT.bind, ExceptT.mk, StateT.bind, ExceptT.bindCont]
  rcases first r with ⟨_ | a, r'⟩ <;> rfl

theorem bind_of_ok {first : ExceptT ε (StateM ρ) α} {second : α → ExceptT ε (StateM ρ) β}
    {r r' : ρ} {a : α} (h : first r = (.ok a, r')) : (first >>= second) r = second a r' := by
  rw [bind_apply, h]

theorem bind_of_error {first : ExceptT ε (StateM ρ) α} {second : α → ExceptT ε (StateM ρ) β}
    {r r' : ρ} {e : ε} (h : first r = (.error e, r')) : (first >>= second) r = (.error e, r') := by
  rw [bind_apply, h]

/-- What a sequence does depends on its first part only by what that does where it starts. -/
theorem bind_congr {first other : ExceptT ε (StateM ρ) α} {second : α → ExceptT ε (StateM ρ) β}
    {r : ρ} (h : first r = other r) : (first >>= second) r = (other >>= second) r := by
  rw [bind_apply, bind_apply, h]

theorem bind_ok_iff {first : ExceptT ε (StateM ρ) α} {second : α → ExceptT ε (StateM ρ) β}
    {r r' : ρ} {b : β} : (first >>= second) r = (.ok b, r') ↔
      ∃ a between, first r = (.ok a, between) ∧ second a between = (.ok b, r') := by
  rw [bind_apply]
  rcases first r with ⟨_ | a, between⟩
  · exact ⟨nofun, fun ⟨_, _, h, _⟩ => nomatch h⟩
  · exact ⟨fun h => ⟨a, between, rfl, h⟩, fun ⟨_, _, h, later⟩ => by cases h; exact later⟩

theorem bind_error_iff {first : ExceptT ε (StateM ρ) α} {second : α → ExceptT ε (StateM ρ) β}
    {r r' : ρ} {e : ε} : (first >>= second) r = (.error e, r') ↔
      first r = (.error e, r') ∨
        ∃ a between, first r = (.ok a, between) ∧ second a between = (.error e, r') := by
  rw [bind_apply]
  rcases first r with ⟨_ | a, between⟩
  · refine ⟨fun h => by cases h; exact .inl rfl, ?_⟩
    rintro (h | ⟨_, _, h, _⟩)
    · cases h; rfl
    · cases h
  · refine ⟨fun h => .inr ⟨a, between, rfl, h⟩, ?_⟩
    rintro (h | ⟨_, _, h, later⟩)
    · cases h
    · cases h; exact later

theorem lift_ok_iff {result : Except ε α} {r r' : ρ} {a : α} :
    (ExceptT.mk (pure result) : ExceptT ε (StateM ρ) α) r = (.ok a, r') ↔
      result = .ok a ∧ r' = r :=
  ⟨fun h => by cases h; exact ⟨rfl, rfl⟩, fun ⟨h, same⟩ => by rw [h, same]; rfl⟩

theorem lift_error_iff {result : Except ε α} {r r' : ρ} {e : ε} :
    (ExceptT.mk (pure result) : ExceptT ε (StateM ρ) α) r = (.error e, r') ↔
      result = .error e ∧ r' = r :=
  ⟨fun h => by cases h; exact ⟨rfl, rfl⟩, fun ⟨h, same⟩ => by rw [h, same]; rfl⟩

/-! ### Without a state -/

theorem except_bind_ok_iff {first : Except ε α} {second : α → Except ε β} {b : β} :
    (first >>= second) = .ok b ↔ ∃ a, first = .ok a ∧ second a = .ok b := by
  cases first with
  | error e => exact ⟨nofun, nofun⟩
  | ok a =>
    refine ⟨fun h => ⟨a, rfl, h⟩, ?_⟩
    rintro ⟨_, same, h⟩
    cases same
    exact h

theorem except_map_ok_iff {result : Except ε α} {f : α → β} {b : β} :
    result.map f = .ok b ↔ ∃ a, result = .ok a ∧ f a = b := by
  cases result with
  | error e => exact ⟨nofun, nofun⟩
  | ok a =>
    refine ⟨fun h => ⟨a, rfl, Except.ok.inj h⟩, ?_⟩
    rintro ⟨_, same, rfl⟩
    cases same
    rfl

theorem mapError_ok_iff {ε' : Type} {result : Except ε α} {f : ε → ε'} {a : α} :
    result.mapError f = .ok a ↔ result = .ok a := by
  cases result with
  | error e => exact ⟨nofun, nofun⟩
  | ok a => exact ⟨fun h => by cases h; rfl, fun h => by cases h; rfl⟩

/-- Whether a computation fails with some error can be decided whatever it gives where it does not. -/
instance decidableEqError [DecidableEq ε] (result : Except ε α) (e : ε) : Decidable (result = .error e) :=
  match result with
  | .ok _ => isFalse nofun
  | .error e' => decidable_of_iff (e' = e) ⟨congrArg _, Except.error.inj⟩

theorem except_pure_ok_iff {a b : α} : (pure a : Except ε α) = .ok b ↔ a = b :=
  ⟨Except.ok.inj, congrArg _⟩

/-! ### Step after step -/

section

open Function (IsFixedPt)

variable {f g : α → α} {parts : α → Prop} {start a b : α}

theorem iterate_eq_or_parts (steps : ∀ a, f a = g a ∨ parts a) (start : α) (n : ℕ) :
    f^[n] start = g^[n] start ∨ ∃ m, f^[m] start = g^[m] start ∧ parts (f^[m] start) := by
  induction n with
  | zero => exact .inl rfl
  | succ n ih =>
    rcases ih with same | parted
    · rcases steps (f^[n] start) with onward | here
      · rw [Function.iterate_succ_apply', Function.iterate_succ_apply', onward, same]
        exact .inl rfl
      · exact .inr ⟨n, same, here⟩
    · exact .inr parted

/-- Where no step changes anything any more is where all steps lead. -/
theorem ends_unique (fixed : IsFixedPt f a) (fixed' : IsFixedPt f b) (leads : ∃ n, f^[n] start = a)
    (leads' : ∃ n, f^[n] start = b) : a = b := by
  obtain ⟨n, leads⟩ := leads
  obtain ⟨m, leads'⟩ := leads'
  calc a = f^[m + n] start := by rw [Function.iterate_add_apply, leads, fixed.iterate m]
    _ = b := by rw [Nat.add_comm, Function.iterate_add_apply, leads', fixed'.iterate n]

/-- Two ways to go on end alike, or come to a point where they part. -/
theorem ends_alike_or_parts (steps : ∀ a, f a = g a ∨ parts a) (fixed : IsFixedPt f a)
    (fixed' : IsFixedPt g b) (leads : ∃ n, f^[n] start = a) (leads' : ∃ n, g^[n] start = b) :
    a = b ∨ ∃ point, (∃ n, f^[n] start = point) ∧ (∃ n, g^[n] start = point) ∧ parts point := by
  obtain ⟨n, leads⟩ := leads
  obtain ⟨m, leads'⟩ := leads'
  rcases iterate_eq_or_parts steps start (m + n) with same | ⟨k, same, here⟩
  · left
    calc a = f^[m + n] start := by rw [Function.iterate_add_apply, leads, fixed.iterate m]
      _ = b := by
        rw [same, Nat.add_comm, Function.iterate_add_apply, leads', fixed'.iterate n]
  · exact .inr ⟨_, ⟨k, rfl⟩, ⟨k, same.symm⟩, here⟩

end

end PromptScript.Computation
