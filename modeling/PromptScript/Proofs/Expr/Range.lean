import Mathlib
import PromptScript.Expr.IntRange

/-!
The numbers of a range. An iterator walks through them one at a time, while length and membership are
computed from the bounds alone: the three agree for all bounds and steps of 64 bits, and 128 bits are wide
enough for what is computed on the way.
-/
namespace PromptScript

/-! ### Arithmetic in 128 bits -/

/-- Whether an integer fits into 128 bits with a sign. -/
def fitsInt128 (n : Int) : Bool :=
  -0x8000_0000_0000_0000_0000_0000_0000_0000 ≤ n && n < 0x8000_0000_0000_0000_0000_0000_0000_0000

/-- A result, unless it does not fit into 128 bits. -/
def within128 (n : Int) : Option Int :=
  if fitsInt128 n then some n else none

theorem within128_of_lt {n : Int} (low : -2 ^ 66 < n) (high : n < 2 ^ 66) : within128 n = some n := by
  refine if_pos ?_
  simp only [fitsInt128, Bool.and_eq_true, decide_eq_true_eq]
  omega

theorem fitsInt64_iff {n : Int} : fitsInt64 n = true ↔ -2 ^ 63 ≤ n ∧ n < 2 ^ 63 := by
  simp only [fitsInt64, Bool.and_eq_true, decide_eq_true_eq]
  omega

namespace IntRange

/-- The length of a range, computed in 128 bits; none if a result on the way does not fit, or if the length
itself needs more than 64 bits. Division cuts off. -/
def length128? (r : IntRange) : Option Nat := do
  let span ← within128 (if 0 < r.step then r.stop - r.start else r.start - r.stop)
  if span ≤ 0 then return 0
  let width ← within128 r.step.natAbs
  let raised ← within128 (span + width)
  let dividend ← within128 (raised - 1)
  let quotient ← within128 (dividend.tdiv width)
  if 0 ≤ quotient ∧ quotient ≤ maxLength then return quotient.toNat else none

/-- Whether a number belongs to a range, computed in 128 bits with a remainder that has the sign of the
dividend; none if a result on the way does not fit. -/
def contains128? (r : IntRange) (n : Int) : Option Bool :=
  if if 0 < r.step then r.start ≤ n ∧ n < r.stop else r.stop < n ∧ n ≤ r.start then do
    let distance ← within128 (n - r.start)
    let remainder ← within128 (distance.tmod r.step)
    return remainder == 0
  else return false

/-- A range whose bounds and step are integers of 64 bits. -/
structure Fits (r : IntRange) : Prop where
  start : fitsInt64 r.start = true
  stop : fitsInt64 r.stop = true
  step : fitsInt64 r.step = true

/-- Whether a number comes before the end of a range that counts up, or down. -/
def IsBefore (r : IntRange) (n : Int) : Prop :=
  0 < r.step ∧ n < r.stop ∨ r.step < 0 ∧ r.stop < n

instance (r : IntRange) (n : Int) : Decidable (r.IsBefore n) :=
  inferInstanceAs (Decidable (_ ∨ _))

/-- The number that is `k` steps behind the start. -/
def nth (r : IntRange) (k : Nat) : Int :=
  r.start + k * r.step

end IntRange

namespace RangeIter

/-- The numbers that an iterator gives until it comes to its end. -/
inductive Yields : RangeIter → List Int → Prop
  | done {it : RangeIter} : it.next? = none → Yields it []
  | next {it rest : RangeIter} {n : Int} {more : List Int} :
    it.next? = some (n, rest) → Yields rest more → Yields it (n :: more)

/-- An iterator that is left of another one after some numbers. -/
inductive Remains (first : RangeIter) : RangeIter → Prop
  | all : Remains first first
  | next {it rest : RangeIter} {n : Int} :
    Remains first it → it.next? = some (n, rest) → Remains first rest

/-- All that an iterator holds are integers of 64 bits. -/
structure Fits (it : RangeIter) : Prop where
  next : ∀ n ∈ it.next, fitsInt64 n = true
  stop : fitsInt64 it.stop = true
  step : fitsInt64 it.step = true

variable {it rest : RangeIter} {n : Int} {numbers : List Int}

theorem checkedAdd_eq_some_iff {a b sum : Int} :
    checkedAdd a b = some sum ↔ fitsInt64 (a + b) = true ∧ a + b = sum := by
  simp [checkedAdd]

theorem next?_eq_some_iff : it.next? = some (n, rest) ↔
    it.next = some n ∧ it.isBefore n = true ∧ { it with next := checkedAdd n it.step } = rest := by
  unfold next?
  cases it.next with
  | none => simp
  | some m =>
    simp only [Option.some.injEq]
    split
    · next before =>
      rw [Option.some.injEq, Prod.mk.injEq]
      constructor
      · rintro ⟨rfl, same⟩
        exact ⟨rfl, before, same⟩
      · rintro ⟨rfl, _, same⟩
        exact ⟨rfl, same⟩
    · next after =>
      constructor
      · intro found
        cases found
      · rintro ⟨rfl, before, _⟩
        exact absurd before after

/-- A step adds nothing that does not fit into 64 bits. -/
theorem Fits.of_next? (fits : it.Fits) (h : it.next? = some (n, rest)) : rest.Fits := by
  obtain ⟨_, _, rfl⟩ := next?_eq_some_iff.mp h
  refine ⟨fun sum member => ?_, fits.stop, fits.step⟩
  obtain ⟨fit, rfl⟩ := checkedAdd_eq_some_iff.mp (Option.mem_def.mp member)
  exact fit

theorem Fits.of_remains (fits : it.Fits) (remains : it.Remains rest) : rest.Fits := by
  induction remains with
  | all => exact fits
  | next _ step ih => exact ih.of_next? step

theorem Yields.unique {others : List Int} (h : it.Yields numbers) (h' : it.Yields others) :
    numbers = others := by
  induction h generalizing others with
  | done ends =>
    cases h' with
    | done => rfl
    | next step => exact nomatch ends.symm.trans step
  | next step _ ih =>
    cases h' with
    | done ends => exact nomatch ends.symm.trans step
    | next step' later =>
      cases step.symm.trans step'
      rw [ih later]

/-- A loop over a range goes through the numbers that its iterator gives. -/
theorem Yields.toList (h : it.Yields numbers) :
    (LoopItems.range it).toList = numbers.map Value.int := by
  induction h with
  | done ends => exact LoopItems.toList_of_next?_none (by rw [LoopItems.next?, ends]; rfl)
  | next step _ ih =>
    rw [LoopItems.toList_of_next?_some (by rw [LoopItems.next?, step]; rfl), ih, List.map_cons]

end RangeIter

namespace IntRange

variable {r : IntRange} {n : Int} {count : Nat}

theorem Fits.iter (fits : r.Fits) : r.iter.Fits :=
  ⟨by rintro _ ⟨⟩; exact fits.start, fits.stop, fits.step⟩

theorem isBefore_iter (r : IntRange) (n : Int) : r.iter.isBefore n = true ↔ r.IsBefore n := by
  have nonzero := r.step_ne_zero
  have same : r.iter.isBefore n = if 0 < r.step then decide (n < r.stop) else decide (r.stop < n) := rfl
  rw [same, IsBefore]
  rcases lt_or_gt_of_ne nonzero with down | up
  · rw [if_neg down.not_gt, decide_eq_true_eq]
    omega
  · rw [if_pos up, decide_eq_true_eq]
    omega

/-! ### The walk -/

/-- A step that leaves the 64 bits has gone past the end. -/
theorem not_isBefore_of_leaves (fits : r.Fits) (leaves : ¬fitsInt64 (r.start + r.step) = true) :
    ¬r.IsBefore (r.start + r.step) := by
  have start := fitsInt64_iff.mp fits.start
  have stop := fitsInt64_iff.mp fits.stop
  rw [fitsInt64_iff] at leaves
  unfold IsBefore
  omega

theorem nth_succ (r : IntRange) (k : Nat) :
    r.nth (k + 1) = { r with start := r.start + r.step }.nth k := by
  simp only [nth]
  push_cast
  ring

/-- If just the first `count` numbers come before the end, the iterator gives these. -/
theorem yields_of_lt_iff (fits : r.Fits) (before : ∀ k, k < count ↔ r.IsBefore (r.nth k)) :
    r.iter.Yields ((List.range count).map r.nth) := by
  induction count generalizing r with
  | zero =>
    have after : ¬r.IsBefore r.start := by simpa [nth] using (before 0).not.mp (lt_irrefl 0)
    refine .done ?_
    rw [RangeIter.next?, iter]
    exact if_neg fun h => after ((r.isBefore_iter _).mp h)
  | succ count ih =>
    have here : r.IsBefore r.start := by simpa [nth] using (before 0).mp (Nat.succ_pos count)
    have later (k : Nat) : k < count ↔ r.IsBefore (r.nth (k + 1)) := by
      rw [← before (k + 1), Nat.add_lt_add_iff_right]
    have step : r.iter.next? = some (r.start, { r.iter with next := checkedAdd r.start r.step }) :=
      RangeIter.next?_eq_some_iff.mpr ⟨rfl, (r.isBefore_iter _).mpr here, rfl⟩
    rw [List.range_succ_eq_map, List.map_cons, List.map_map]
    have first : r.nth 0 = r.start := by simp [nth]
    rw [first]
    refine .next step ?_
    by_cases fit : fitsInt64 (r.start + r.step) = true
    · -- The rest is the walk through the range that starts one step further.
      have rest : checkedAdd r.start r.step = some (r.start + r.step) :=
        RangeIter.checkedAdd_eq_some_iff.mpr ⟨fit, rfl⟩
      rw [rest]
      have walk := ih (r := { r with start := r.start + r.step }) ⟨fit, fits.stop, fits.step⟩ fun k => by
        rw [later k, nth_succ]
        rfl
      have same := List.map_congr_left (l := List.range count) fun k _ => r.nth_succ k
      exact same ▸ walk
    · have none : count = 0 := by
        by_contra some
        have second := (later 0).mp (Nat.pos_of_ne_zero some)
        rw [show r.nth (0 + 1) = r.start + r.step by simp [nth]] at second
        exact not_isBefore_of_leaves fits fit second
      subst none
      refine .done ?_
      rw [RangeIter.next?, checkedAdd, if_neg fit]

/-! ### Length -/

/-- How far the end is from the start, in the direction of the step. -/
def span (r : IntRange) : Int :=
  if 0 < r.step then r.stop - r.start else r.start - r.stop

theorem isBefore_nth_iff (r : IntRange) (k : Nat) :
    r.IsBefore (r.nth k) ↔ k * (r.step.natAbs : Int) < r.span := by
  have nonzero := r.step_ne_zero
  unfold IsBefore nth span
  rcases lt_or_gt_of_ne nonzero with down | up
  · rw [Int.ofNat_natAbs_of_nonpos down.le, if_neg down.not_gt, mul_neg]
    omega
  · rw [Int.natAbs_of_nonneg up.le, if_pos up]
    omega

theorem Fits.span_lt (fits : r.Fits) : -2 ^ 64 < r.span ∧ r.span < 2 ^ 64 := by
  have start := fitsInt64_iff.mp fits.start
  have stop := fitsInt64_iff.mp fits.stop
  unfold span
  split <;> omega

theorem Fits.natAbs_step_le (fits : r.Fits) : (r.step.natAbs : Int) ≤ 2 ^ 63 := by
  have step := fitsInt64_iff.mp fits.step
  omega

theorem natAbs_step_pos (r : IntRange) : 0 < (r.step.natAbs : Int) := by
  have nonzero := r.step_ne_zero
  omega

/-- The span divided by the width of a step, rounded up. -/
def steps (r : IntRange) : Int :=
  (r.span + r.step.natAbs - 1) / r.step.natAbs

theorem lt_steps_iff (r : IntRange) (k : Int) : k < r.steps ↔ k * (r.step.natAbs : Int) < r.span := by
  have width := r.natAbs_step_pos
  rw [steps, ← Int.add_one_le_iff, Int.le_ediv_iff_mul_le width, add_mul, one_mul]
  omega

theorem Fits.steps_le (fits : r.Fits) : r.steps ≤ maxLength := by
  by_contra more
  have beyond := (r.lt_steps_iff maxLength).mp (not_le.mp more)
  have wide : (maxLength : Int) * 1 ≤ maxLength * (r.step.natAbs : Int) :=
    mul_le_mul_of_nonneg_left r.natAbs_step_pos (by simp [maxLength])
  have narrow := fits.span_lt.2
  simp only [maxLength] at beyond wide
  omega

theorem steps_nonpos_iff (r : IntRange) : r.steps ≤ 0 ↔ r.span ≤ 0 := by
  have positive := r.lt_steps_iff 0
  omega

theorem length_eq (fits : r.Fits) : r.length = r.steps.toNat := by
  have same : r.length = if r.span ≤ 0 then 0 else min maxLength r.steps.toNat := rfl
  have small := fits.steps_le
  rw [same]
  split
  · next none => exact (Int.toNat_of_nonpos (r.steps_nonpos_iff.mpr none)).symm
  · exact Nat.min_eq_right (by omega)

theorem lt_length_iff (fits : r.Fits) (k : Nat) : k < r.length ↔ r.IsBefore (r.nth k) := by
  rw [isBefore_nth_iff, ← lt_steps_iff, length_eq fits]
  omega

/-- The numbers of a range, in order. -/
def numbers (r : IntRange) : List Int :=
  (List.range r.length).map r.nth

theorem length_numbers (r : IntRange) : r.numbers.length = r.length := by
  simp [numbers]

theorem yields_numbers (fits : r.Fits) : r.iter.Yields r.numbers :=
  yields_of_lt_iff fits (lt_length_iff fits)

theorem getElem?_numbers (fits : r.Fits) (k : Nat) :
    r.numbers[k]? = if r.IsBefore (r.nth k) then some (r.nth k) else none := by
  have here := lt_length_iff fits k
  by_cases before : r.IsBefore (r.nth k)
  · rw [if_pos before]
    simp [numbers, here.mpr before]
  · rw [if_neg before]
    simp [numbers, Nat.not_lt.mp (here.not.mpr before)]

/-- No result of the computation needs more than 128 bits, nor the length more than 64. -/
theorem length128?_eq (fits : r.Fits) : r.length128? = some r.length := by
  have width := r.natAbs_step_pos
  have narrow := fits.natAbs_step_le
  have span := fits.span_lt
  have small := fits.steps_le
  have first : within128 (if 0 < r.step then r.stop - r.start else r.start - r.stop) = some r.span :=
    within128_of_lt (by have := span.1; unfold IntRange.span at this; omega)
      (by have := span.2; unfold IntRange.span at this; omega)
  rw [length128?, first, Option.bind_eq_bind, Option.bind_some, length_eq fits]
  by_cases none : r.span ≤ 0
  · rw [if_pos none, Int.toNat_of_nonpos (r.steps_nonpos_iff.mpr none)]
    rfl
  · rw [if_neg none]
    have cut : (r.span + r.step.natAbs - 1).tdiv r.step.natAbs = r.steps :=
      Int.tdiv_eq_ediv_of_nonneg (by omega)
    have positive : 0 < r.steps := not_le.mp fun few => none (r.steps_nonpos_iff.mp few)
    have bound : (maxLength : Int) = 2 ^ 64 - 1 := rfl
    rw [within128_of_lt (n := r.step.natAbs) (by omega) (by omega), Option.bind_some,
      within128_of_lt (n := r.span + r.step.natAbs) (by omega) (by omega), Option.bind_some,
      within128_of_lt (n := r.span + r.step.natAbs - 1) (by omega) (by omega), Option.bind_some, cut,
      within128_of_lt (n := r.steps) (by omega) (by omega), Option.bind_some,
      if_pos ⟨positive.le, small⟩]
    rfl

/-! ### Membership -/

theorem contains_iff (r : IntRange) (n : Int) :
    r.contains n = true ↔ (0 < r.step ∧ r.start ≤ n ∨ r.step < 0 ∧ n ≤ r.start) ∧ r.IsBefore n ∧
      r.step ∣ n - r.start := by
  have nonzero := r.step_ne_zero
  unfold contains IsBefore
  simp only [Bool.and_eq_true, beq_iff_eq, ← Int.dvd_iff_emod_eq_zero, ← and_assoc]
  refine and_congr_left fun _ => ?_
  split <;> simp only [Bool.and_eq_true, decide_eq_true_eq] <;> omega

theorem exists_nth_iff (r : IntRange) (n : Int) :
    (∃ k, r.nth k = n) ↔
      (0 < r.step ∧ r.start ≤ n ∨ r.step < 0 ∧ n ≤ r.start) ∧ r.step ∣ n - r.start := by
  constructor
  · rintro ⟨k, rfl⟩
    have back : r.nth k - r.start = r.step * k := by simp only [nth]; ring
    refine ⟨?_, back ▸ dvd_mul_right _ _⟩
    rcases lt_or_gt_of_ne r.step_ne_zero with down | up
    · have := mul_nonpos_of_nonpos_of_nonneg down.le (Int.natCast_nonneg k)
      omega
    · have := mul_nonneg up.le (Int.natCast_nonneg k)
      omega
  · rintro ⟨side, q, distance⟩
    -- The factor is not negative, as the distance goes in the direction of the step.
    have forward : 0 ≤ q := by
      rcases side with ⟨up, after⟩ | ⟨down, before⟩
      · exact nonneg_of_mul_nonneg_right (by omega : 0 ≤ r.step * q) up
      · exact nonneg_of_mul_nonpos_right (by omega : r.step * q ≤ 0) down
    refine ⟨q.toNat, ?_⟩
    rw [nth, Int.toNat_of_nonneg forward, mul_comm]
    omega

theorem contains_iff_mem (fits : r.Fits) (n : Int) : r.contains n = true ↔ n ∈ r.numbers := by
  have some (k : Nat) : r.numbers[k]? = some n ↔ r.nth k = n ∧ r.IsBefore n := by
    rw [getElem?_numbers fits]
    split
    · next before =>
      rw [Option.some.injEq]
      exact ⟨fun same => ⟨same, same ▸ before⟩, And.left⟩
    · next after =>
      refine ⟨nofun, ?_⟩
      rintro ⟨rfl, before⟩
      exact absurd before after
  rw [List.mem_iff_getElem?, contains_iff]
  simp only [some, exists_and_right, exists_nth_iff]
  tauto

theorem contains128?_eq (fits : r.Fits) (fit : fitsInt64 n = true) :
    r.contains128? n = some (r.contains n) := by
  have start := fitsInt64_iff.mp fits.start
  have step := fitsInt64_iff.mp fits.step
  have here := fitsInt64_iff.mp fit
  have nonzero := r.step_ne_zero
  have remainder : -2 ^ 66 < (n - r.start).tmod r.step ∧ (n - r.start).tmod r.step < 2 ^ 66 := by
    have short : ((n - r.start).tmod r.step).natAbs ≤ (n - r.start).natAbs := by
      rw [Int.natAbs_tmod]
      exact Nat.mod_le _ _
    omega
  have divides : ((n - r.start).tmod r.step == 0) = ((n - r.start) % r.step == 0) := by
    rw [Bool.eq_iff_iff, beq_iff_eq, beq_iff_eq, ← Int.dvd_iff_tmod_eq_zero, ← Int.dvd_iff_emod_eq_zero]
  unfold contains128? contains
  rw [within128_of_lt (n := n - r.start) (by omega) (by omega), Option.bind_eq_bind, Option.bind_some,
    within128_of_lt remainder.1 remainder.2]
  simp only [Option.bind_some, divides]
  split_ifs <;> simp_all

/-- What a range of 64-bit integers gives one number at a time, is what its length counts and what belongs to
it: the numbers from the start on, as long as they come before the end. The iterator never holds a number that
does not fit into 64 bits, and what length and membership compute on the way fits into 128. -/
theorem walk_agrees (r : IntRange) (fits : r.Fits) :
    ∃ numbers, (∀ others, r.iter.Yields others ↔ others = numbers) ∧
      (∀ k : Nat, numbers[k]? =
        if r.IsBefore (r.start + k * r.step) then some (r.start + k * r.step) else none) ∧
      r.length = numbers.length ∧ numbers.length ≤ 2 ^ 64 - 1 ∧ (r.isEmpty = true ↔ numbers = []) ∧
      (∀ n, r.contains n = true ↔ n ∈ numbers) ∧
      (∀ it, r.iter.Remains it → it.Fits) ∧
      r.length128? = some r.length ∧ ∀ n, fitsInt64 n = true → r.contains128? n = some (r.contains n) := by
  have yields := yields_numbers fits
  refine ⟨r.numbers, fun others => ⟨fun h => h.unique yields, fun same => same ▸ yields⟩,
    getElem?_numbers fits, r.length_numbers.symm, ?_, ?_, contains_iff_mem fits,
    fun _ => fits.iter.of_remains, length128?_eq fits, fun _ => contains128?_eq fits⟩
  · have small := fits.steps_le
    have bound : (maxLength : Int) = 2 ^ 64 - 1 := rfl
    rw [length_numbers, length_eq fits]
    omega
  · rw [← List.length_eq_zero_iff, length_numbers, isEmpty, beq_iff_eq]

/-- From the greatest integer of 64 bits down to the least, in steps as wide as that. -/
theorem walk_agrees_of_extremes :
    let r : IntRange := ⟨2 ^ 63 - 1, -2 ^ 63, -2 ^ 63, by decide⟩
    r.Fits ∧ r.iter.Yields [2 ^ 63 - 1, -1] ∧ r.length = 2 ∧ r.contains (-1) = true ∧
      r.length128? = some 2 ∧ r.contains128? (-1) = some true := by
  intro r
  have fits : r.Fits := ⟨rfl, rfl, rfl⟩
  obtain ⟨numbers, yields, _, length, _, _, contains, _, wide, wide'⟩ := walk_agrees r fits
  have walk : r.iter.Yields [2 ^ 63 - 1, -1] := .next rfl (.next rfl (.done rfl))
  obtain rfl := (yields _).mp walk
  have inside : r.contains (-1) = true := (contains (-1)).mpr (by decide)
  exact ⟨fits, walk, length, inside, wide.trans (congrArg some length),
    (wide' (-1) rfl).trans (congrArg some inside)⟩

end IntRange

end PromptScript
