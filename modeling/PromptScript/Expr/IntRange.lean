import PromptScript.Expr.EvalError

/-!
Ranges of integers: `start`, `start + step` and so on, up to `stop`, which is excluded.
-/
namespace PromptScript

/-- The sum of two integers, unless it does not fit into 64 bits. -/
def checkedAdd (a b : Int) : Option Int :=
  if fitsInt64 (a + b) then some (a + b) else none

structure IntRange where
  start : Int
  stop : Int
  step : Int
  step_ne_zero : step ≠ 0
deriving DecidableEq, Repr

/-- The part of a range that is still to come. -/
structure RangeIter where
  next : Option Int
  stop : Int
  step : Int
  step_ne_zero : step ≠ 0
deriving DecidableEq, Repr

namespace RangeIter

/-- Whether a number comes before the end of the range. -/
def isBefore (r : RangeIter) (n : Int) : Bool :=
  if 0 < r.step then n < r.stop else r.stop < n

/-- The next number and what follows it. -/
def next? (r : RangeIter) : Option (Int × RangeIter) :=
  match r.next with
  | some n =>
    if r.isBefore n then some (n, { r with next := checkedAdd n r.step }) else none
  | none => none

/-- At least as many as there are numbers to come. -/
def bound (r : RangeIter) : Nat :=
  match r.next with
  | some n => if 0 < r.step then (r.stop - n).toNat else (n - r.stop).toNat
  | none => 0

theorem bound_next_lt {r rest : RangeIter} {n : Int} (h : r.next? = some (n, rest)) :
    rest.bound < r.bound := by
  obtain ⟨upcoming, stop, step, nonzero⟩ := r
  cases upcoming with
  | none => simp [next?] at h
  | some m =>
    simp only [next?] at h
    split at h
    · next before =>
      simp only [Option.some.injEq, Prod.mk.injEq] at h
      obtain ⟨_, rfl⟩ := h
      simp only [isBefore] at before
      simp only [bound, checkedAdd]
      by_cases up : 0 < step <;> by_cases fits : fitsInt64 (m + step) = true <;>
        simp [up, fits] at before ⊢ <;> omega
    · contradiction

end RangeIter

namespace IntRange

/-- The range with the given bounds, whose step must not be zero. -/
def make (start stop step : Int) : Except EvalError IntRange :=
  if h : step = 0 then .error .zeroStep else .ok ⟨start, stop, step, h⟩

def upTo (stop : Int) : IntRange := ⟨0, stop, 1, by decide⟩

def iter (r : IntRange) : RangeIter :=
  ⟨some r.start, r.stop, r.step, r.step_ne_zero⟩

/-- The largest length that is told apart. -/
def maxLength : Nat := 0xffff_ffff_ffff_ffff

def length (r : IntRange) : Nat :=
  let span := if 0 < r.step then r.stop - r.start else r.start - r.stop
  if span ≤ 0 then 0
  -- The quotient is rounded up: a last, shorter step still counts.
  else min maxLength ((span + r.step.natAbs - 1) / r.step.natAbs).toNat

def isEmpty (r : IntRange) : Bool :=
  r.length == 0

/-- Whether a number belongs to the range. -/
def contains (r : IntRange) (n : Int) : Bool :=
  let inBounds := if 0 < r.step then r.start ≤ n && n < r.stop else r.stop < n && n ≤ r.start
  inBounds && (n - r.start) % r.step == 0

end IntRange

/-- The items that a loop walks through, one at a time. -/
inductive LoopItems
  | range (rest : RangeIter)
  | values (rest : List Value)
deriving Repr

namespace LoopItems

/-- The next item and those that follow it. -/
def next? : LoopItems → Option (Value × LoopItems)
  | .range rest => rest.next?.map fun (n, rest) => (.int n, .range rest)
  | .values [] => none
  | .values (value :: rest) => some (value, .values rest)

/-- At least as many as there are items to come. -/
def bound : LoopItems → Nat
  | .range rest => rest.bound
  | .values rest => rest.length

theorem bound_next_lt {items rest : LoopItems} {value : Value}
    (h : items.next? = some (value, rest)) : rest.bound < items.bound := by
  cases items with
  | range iter =>
    simp only [next?, Option.map_eq_some_iff] at h
    obtain ⟨⟨n, after⟩, step, same⟩ := h
    simp only [Prod.mk.injEq] at same
    obtain ⟨_, rfl⟩ := same
    exact RangeIter.bound_next_lt step
  | values list =>
    cases list with
    | nil => simp [next?] at h
    | cons first more =>
      simp only [next?, Option.some.injEq, Prod.mk.injEq] at h
      obtain ⟨_, rfl⟩ := h
      simp [bound]

def toList (items : LoopItems) : List Value :=
  match h : items.next? with
  | none => []
  | some (value, rest) =>
    have := bound_next_lt h
    value :: rest.toList
termination_by items.bound

theorem toList_of_next?_none {items : LoopItems} (h : items.next? = none) : items.toList = [] := by
  rw [toList]
  split
  · rfl
  · next found => rw [h] at found; cases found

theorem toList_of_next?_some {items rest : LoopItems} {value : Value}
    (h : items.next? = some (value, rest)) : items.toList = value :: rest.toList := by
  rw [toList]
  split
  · next found => rw [h] at found; cases found
  · next found => rw [h] at found; cases found; rfl

/-- At most the first `n` items. -/
def take : Nat → LoopItems → List Value
  | 0, _ => []
  | n + 1, items =>
    match items.next? with
    | none => []
    | some (value, rest) => value :: take n rest

end LoopItems

end PromptScript
