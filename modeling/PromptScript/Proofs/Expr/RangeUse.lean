import PromptScript.Proofs.Expr.Comparison
import PromptScript.Proofs.Expr.Range

/-!
The uses of a range: as a list, as the items of a loop and in a membership test. They fail alike, and go by
the same numbers, although a loop never has them all at once and a membership test does not look at them.
-/
namespace PromptScript

/-! ### Membership among integers -/

namespace Value

/-- Whether a value is no number, or an integer of 64 bits with a sign. -/
def isExact : Option Value → Bool
  | some (.num n) => n.toInt64?.isSome
  | _ => true

theorem isExact_num_iff {n : Number} :
    isExact (some (.num n)) = true ↔ ∃ i, n = .int i ∧ fitsInt64 i = true := by
  rw [isExact, Option.isSome_iff_exists]
  exact exists_congr fun i => Number.toInt64?_eq_some_iff

theorem equals_int_iff {a b : Int} (fit : fitsInt64 a = true) (fit' : fitsInt64 b = true) :
    equals (some (.int a)) (some (.int b)) = true ↔ a = b := by
  rw [equals, Option.getD_some, Option.getD_some, int, int, same, Number.order_int fit fit', beq_iff_eq,
    compare_eq_iff_eq]

/-- Among integers of 64 bits, an item that is no number is not found. -/
theorem isIn_numbers {needle : Option Value} {numbers : List Int} (exact : isExact needle = true)
    (fit : ∀ n ∈ numbers, fitsInt64 n = true) :
    isIn needle (some (.list (numbers.map int))) = .ok (decide (∃ n ∈ numbers, needle = some (int n))) := by
  rw [isIn, List.any_map, Except.ok.injEq, Bool.eq_iff_iff, List.any_eq_true, decide_eq_true_eq]
  refine exists_congr fun n => and_congr_right fun member => ?_
  rw [Function.comp_apply]
  match needle with
  | some (.num _) =>
    obtain ⟨i, rfl, fit'⟩ := isExact_num_iff.mp exact
    rw [← int, equals_int_iff fit' (fit n member)]
    simp [int]
  | none | some .null | some (.bool _) | some (.str _) | some (.list _) | some (.map _) =>
    simp [equals, same, int]

theorem isInRange_iff {needle : Option Value} {r : IntRange} (exact : isExact needle = true)
    (fits : r.Fits) : isInRange needle r = decide (∃ n ∈ r.numbers, needle = some (int n)) := by
  rw [Bool.eq_iff_iff, decide_eq_true_eq]
  match needle with
  | some (.num _) =>
    obtain ⟨i, rfl, fit⟩ := isExact_num_iff.mp exact
    rw [isInRange, Number.toInt64?_eq_some_iff.mpr ⟨rfl, fit⟩, Option.some_or,
      IntRange.contains_iff_mem fits]
    simp [int]
  | none | some .null | some (.bool _) | some (.str _) | some (.list _) | some (.map _) =>
    simp [isInRange, int]

end Value

theorem IntRange.fitsInt64_of_mem {r : IntRange} (fits : r.Fits) {n : Int} (member : n ∈ r.numbers) :
    fitsInt64 n = true := by
  obtain ⟨side, before, _⟩ := (r.contains_iff n).mp ((contains_iff_mem fits n).mpr member)
  have start := fitsInt64_iff.mp fits.start
  have stop := fitsInt64_iff.mp fits.stop
  unfold IsBefore at before
  rw [fitsInt64_iff]
  omega

namespace Expr

/-! ### Evaluation of ranges -/

variable {ctx : Context} {e needle : Expr} {n : Int} {r : IntRange} {cause : EvalError}
  {start step : Option Expr} {stop : Expr}

theorem fitsInt64_of_boundOf {v : Option Value} (h : boundOf e v = .ok n) : fitsInt64 n = true := by
  unfold boundOf at h
  split at h
  · cases h
  · split at h
    · next int =>
      cases h
      exact (Number.toInt64?_eq_some_iff.mp int).2
    · cases h
  · cases h

/-- The bound that an expression evaluates to, or a number in its place if there is no expression. -/
def bound (ctx : Context) (default : Int) : Option Expr → Except EvalError Int
  | none => .ok default
  | some e => e.eval ctx >>= boundOf e

theorem fitsInt64_of_bound {e : Option Expr} {default : Int} (fit : fitsInt64 default = true)
    (h : bound ctx default e = .ok n) : fitsInt64 n = true := by
  cases e with
  | none => cases h; exact fit
  | some e =>
    obtain ⟨_, _, h⟩ := Computation.except_bind_ok_iff.mp h
    exact fitsInt64_of_boundOf h

theorem fits_of_make {start stop step : Int} (h : IntRange.make start stop step = .ok r)
    (fit : fitsInt64 start = true) (fit' : fitsInt64 stop = true) (fit'' : fitsInt64 step = true) :
    r.Fits := by
  unfold IntRange.make at h
  split at h
  · cases h
  · cases h
    exact ⟨fit, fit', fit''⟩

/-- The end is evaluated before the start, and the step behind both. -/
theorem operand_range (ctx : Context) (start : Option Expr) (stop : Expr) (step : Option Expr) :
    (range start stop step).operand ctx = (do
      let stop ← bound ctx 0 (some stop)
      let start ← bound ctx 0 start
      let step ← bound ctx 1 step
      return .range (← IntRange.make start stop step)) := by
  cases start <;> cases step <;> simp only [operand, bound, eval, bind_assoc] <;> rfl

theorem exists_of_operand_range {value : Operand}
    (h : (range start stop step).operand ctx = .ok value) : ∃ r, value = .range r ∧ r.Fits := by
  rw [operand_range] at h
  simp only [Computation.except_bind_ok_iff, Computation.except_pure_ok_iff] at h
  obtain ⟨_, last, _, first, _, width, r, made, rfl⟩ := h
  exact ⟨r, rfl, fits_of_make made (fitsInt64_of_bound rfl first) (fitsInt64_of_bound rfl last)
    (fitsInt64_of_bound rfl width)⟩

theorem operand_of_evalRange_error (h : (range start stop step).evalRange ctx = .error cause) :
    (range start stop step).operand ctx = .error cause := by
  unfold evalRange at h
  cases found : (range start stop step).operand ctx with
  | error other =>
    rw [found] at h
    cases h
    rfl
  | ok value =>
    obtain ⟨r, rfl, _⟩ := exists_of_operand_range found
    rw [found] at h
    cases h

theorem operand_of_evalRange_ok (h : (range start stop step).evalRange ctx = .ok r) :
    (range start stop step).operand ctx = .ok (.range r) ∧ r.Fits := by
  obtain ⟨value, found, h⟩ := Computation.except_bind_ok_iff.mp h
  obtain ⟨other, rfl, fits⟩ := exists_of_operand_range found
  cases h
  exact ⟨found, fits⟩

/-- A range gives the same numbers as a list, in a loop and in a membership test, where a value that is no
number, or an integer of 64 bits, is found among them exactly if it is an item of the list. Where the range
cannot be evaluated all three fail with the same error; where it is longer than a list may be, only the list
fails, and tells how long the range is. -/
theorem range_uses_agree (ctx : Context) (start : Option Expr) (stop : Expr) (step : Option Expr) :
    (∀ cause, (range start stop step).evalRange ctx = .error cause →
      (range start stop step).eval ctx = .error cause ∧ (range start stop step).items ctx = .error cause ∧
      ∀ negated needle v, eval ctx needle = .ok v →
        (membership negated needle (range start stop step)).eval ctx = .error cause) ∧
    ∀ r, (range start stop step).evalRange ctx = .ok r → ∃ numbers, r.iter.Yields numbers ∧
      (∃ items, (range start stop step).items ctx = .ok items ∧ items.toList = numbers.map .int) ∧
      ((range start stop step).eval ctx = if numbers.length ≤ 100000 then .ok (some (.list (numbers.map .int)))
        else .error (.rangeTooLarge numbers.length 100000)) ∧
      ∀ needle v, eval ctx needle = .ok v → ∃ found,
        (∀ negated, (membership negated needle (range start stop step)).eval ctx =
          .ok (some (.bool (found != negated)))) ∧
        (Value.isExact v = true → (found = true ↔ ∃ n ∈ numbers, v = some (.int n)) ∧
          ∀ other xs needle' negated, eval other needle' = .ok v →
            other.resolve? xs = some (.list (numbers.map .int)) →
            (membership negated needle' (.path xs)).eval other = .ok (some (.bool (found != negated)))) := by
  constructor
  · intro cause failed
    have operand := operand_of_evalRange_error failed
    refine ⟨?_, ?_, fun negated needle v here => ?_⟩
    · rw [eval, operand]
      rfl
    · rw [items, operand]
      rfl
    · rw [eval_membership, here, operand]
      rfl
  · intro r evaluated
    obtain ⟨operand, fits⟩ := operand_of_evalRange_ok evaluated
    have yields := IntRange.yields_numbers fits
    refine ⟨r.numbers, yields, ⟨_, by rw [items, operand]; rfl, yields.toList⟩, ?_, ?_⟩
    · have forced : (range start stop step).eval ctx = (Operand.range r).force := by
        rw [eval, operand]
        rfl
      rw [forced, Operand.force, yields.toList, r.length_numbers, Operand.maxListLength]
      by_cases long : 100000 < r.length
      · rw [if_pos long, if_neg long.not_ge]
      · rw [if_neg long, if_pos (not_lt.mp long)]
    · intro needle v here
      refine ⟨Value.isInRange v r, eval_membership_of_ok here operand rfl, ?_⟩
      intro exact
      rw [Value.isInRange_iff exact fits]
      refine ⟨decide_eq_true_iff, fun other xs needle' negated there bound => ?_⟩
      have operand : (Expr.path xs).operand other = .ok (.value (other.resolve? xs)) := rfl
      refine eval_membership_of_ok there operand ?_ negated
      rw [bound]
      exact Value.isIn_numbers exact fun _ => IntRange.fitsInt64_of_mem fits

/-- A range up to a variable beside a list of the same numbers, and a range up to a variable that is absent. -/
theorem range_uses_agree_of_variable :
    let ctx : Context := .ofMapping [("n", .int 10), ("xs", .list [.int 0, .int 3, .int 6, .int 9])]
    let numbers : Expr := .range (some (.literal (.int 0))) (.path ⟨"n", []⟩) (some (.literal (.int 3)))
    let unbounded : Expr := .range none (.path ⟨"m", []⟩) none
    numbers.eval ctx = .ok (some (.list [.int 0, .int 3, .int 6, .int 9])) ∧
      (membership false (.literal (.int 6)) numbers).eval ctx = .ok (some (.bool true)) ∧
      (membership true (.literal (.int 6)) (.path ⟨"xs", []⟩)).eval ctx = .ok (some (.bool false)) ∧
      unbounded.evalRange ctx = .error (.absent "m") ∧
      unbounded.eval ctx = .error (.absent "m") ∧ unbounded.items ctx = .error (.absent "m") ∧
      (membership true (.literal .null) unbounded).eval ctx = .error (.absent "m") := by
  intro ctx numbers unbounded
  have evaluated : numbers.evalRange ctx = .ok ⟨0, 10, 3, by decide⟩ := by cbv
  have failed : unbounded.evalRange ctx = .error (.absent "m") := by cbv
  obtain ⟨items, yields, _, list, uses⟩ := (range_uses_agree ctx _ _ _).2 _ evaluated
  obtain rfl := yields.unique (.next rfl (.next rfl (.next rfl (.next rfl (.done rfl)))))
  obtain ⟨found, tests, answers⟩ := uses (.literal (.int 6)) (some (.int 6)) rfl
  obtain ⟨inside, same⟩ := answers rfl
  obtain rfl := inside.mpr ⟨6, by decide, rfl⟩
  obtain ⟨noList, noLoop, noTest⟩ := (range_uses_agree ctx _ _ _).1 _ failed
  exact ⟨list, tests false, same ctx ⟨"xs", []⟩ (.literal (.int 6)) true rfl (by cbv), failed, noList,
    noLoop, noTest true (.literal .null) (some .null) rfl⟩

end Expr

end PromptScript
