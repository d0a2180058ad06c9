import Mathlib
import PromptScript.Value.Basic

/-!
Integers as floating-point numbers. An integer of 64 bits is rounded to a number with 53 significant bits
that none is nearer to, so that rounding keeps the order of integers, but for those that it makes equal.
-/
namespace PromptScript.Binary64

/-- The rational number that a floating-point number is. -/
def value (x : Binary64) : ℚ :=
  x.significand * 2 ^ x.exponent

/-- Whether a number has at most 53 significant bits. -/
def IsShort (x : Binary64) : Prop :=
  x.mantissa < 2 ^ 53

variable {m k den num : Nat} {n a b : Int} {x y : Binary64}

/-! ### Order -/

theorem zpow_split {e least : Int} (le : least ≤ e) :
    (2 : ℚ) ^ e = 2 ^ (e - least).toNat * 2 ^ least := by
  rw [← zpow_natCast, ← zpow_add₀ two_ne_zero, Int.toNat_of_nonneg (by omega), sub_add_cancel]

/-- A number as a multiple of a smaller power of two. -/
theorem value_eq (x : Binary64) {least : Int} (le : least ≤ x.exponent) :
    x.value = (x.significand * Nat.pow 2 (x.exponent - least).toNat : Int) * (2 : ℚ) ^ least := by
  rw [value, zpow_split le, Nat.pow_eq]
  push_cast
  ring

theorem order_eq (x y : Binary64) : x.order y = compare x.value y.value := by
  rw [value_eq x (min_le_left _ y.exponent), value_eq y (min_le_right x.exponent _), order]
  generalize x.significand * ((Nat.pow 2 (x.exponent - min x.exponent y.exponent).toNat : Nat) : Int) = p
  generalize y.significand * ((Nat.pow 2 (y.exponent - min x.exponent y.exponent).toNat : Nat) : Int) = q
  have unit : (0 : ℚ) < 2 ^ min x.exponent y.exponent := by positivity
  rcases lt_trichotomy p q with less | rfl | more
  · have less' := mul_lt_mul_of_pos_right (Int.cast_lt (R := ℚ).mpr less) unit
    rw [compare_lt_iff_lt.mpr less, compare_lt_iff_lt.mpr less']
  · rw [compare_eq_iff_eq.mpr rfl, compare_eq_iff_eq.mpr rfl]
  · have more' := mul_lt_mul_of_pos_right (Int.cast_lt (R := ℚ).mpr more) unit
    rw [compare_gt_iff_gt.mpr more, compare_gt_iff_gt.mpr more']

/-! ### Rounded quotients -/

theorem roundDiv_cases (num den : Nat) :
    roundDiv num den = num / den ∧ 2 * (num % den) ≤ den ∨
      roundDiv num den = num / den + 1 ∧ den ≤ 2 * (num % den) := by
  unfold roundDiv
  dsimp only
  split
  · exact .inl ⟨rfl, by omega⟩
  · split
    · exact .inr ⟨rfl, by omega⟩
    · -- The quotient lies in the middle between two integers.
      rcases Nat.mod_two_eq_zero_or_one (num / den) with even | odd
      · exact .inl ⟨by omega, by omega⟩
      · exact .inr ⟨by omega, by omega⟩

/-- No multiple of the divisor is nearer than that of the rounded quotient. -/
theorem roundDiv_nearest (pos : 0 < den) (t : Int) :
    |(num : Int) - roundDiv num den * den| ≤ |(num : Int) - t * den| := by
  have parts : (num : Int) = ((num / den : Nat) : Int) * den + (num % den : Nat) := by
    exact_mod_cast (Nat.div_add_mod' num den).symm
  have small := Nat.mod_lt num pos
  have away : (num % den : Nat) ≤ |(num : Int) - t * den| ∨
      (den : Int) - (num % den : Nat) ≤ |(num : Int) - t * den| := by
    rcases le_or_gt t (num / den : Nat) with below | above
    · have steps := mul_le_mul_of_nonneg_right below (Int.natCast_nonneg den)
      exact .inl ((by omega : _ ≤ (num : Int) - t * den).trans (le_abs_self _))
    · have steps := mul_le_mul_of_nonneg_right (Int.add_one_le_iff.mpr above) (Int.natCast_nonneg den)
      rw [add_mul, one_mul] at steps
      exact .inr ((by omega : _ ≤ -((num : Int) - t * den)).trans (neg_le_abs _))
  have near : |(num : Int) - roundDiv num den * den| ≤ (num % den : Nat) ∧
      |(num : Int) - roundDiv num den * den| ≤ den - (num % den : Nat) := by
    rcases roundDiv_cases num den with ⟨same, less⟩ | ⟨same, more⟩
    · rw [same, abs_of_nonneg (by omega)]
      omega
    · rw [same]
      push_cast at parts ⊢
      rw [add_mul, one_mul, abs_of_nonpos (by omega)]
      omega
  exact away.elim near.1.trans near.2.trans

theorem roundDiv_le {bound : Nat} (pos : 0 < den) (small : num < bound * den) :
    roundDiv num den ≤ bound := by
  have quotient : num / den < bound := (Nat.div_lt_iff_lt_mul pos).mpr small
  unfold roundDiv
  dsimp only
  split
  · omega
  · split <;> omega

theorem roundDiv_one (num : Nat) : roundDiv num 1 = num := by
  simp [roundDiv, Nat.mod_one]

/-! ### Natural numbers -/

/-- The last binary place of 53 significant bits. -/
def lastPlace (m : Nat) : Nat :=
  m.log2 - 52

/-- A natural number rounded to 53 significant bits. -/
def roundNat (m : Nat) : Nat :=
  roundDiv m (2 ^ lastPlace m) * 2 ^ lastPlace m

theorem roundNat_of_log2_le (small : m.log2 ≤ 52) : roundNat m = m := by
  rw [roundNat, lastPlace, Nat.sub_eq_zero_of_le small, pow_zero, roundDiv_one, mul_one]

/-- No number with 53 significant bits is nearer to a natural number than the one it is rounded to. -/
theorem roundNat_nearest (pos : 0 < m) (short : k < 2 ^ 53) (q : Int) :
    |(m : ℚ) - roundNat m| ≤ |(m : ℚ) - k * 2 ^ q| := by
  rcases le_or_gt m.log2 52 with small | large
  · rw [roundNat_of_log2_le small, sub_self, abs_zero]
    exact abs_nonneg _
  · have unit : 0 < 2 ^ lastPlace m := Nat.two_pow_pos _
    have near (t : Int) : |(m : ℚ) - roundNat m| ≤ |(m : ℚ) - t * 2 ^ lastPlace m| := by
      have least : |(m : Int) - roundDiv m (2 ^ lastPlace m) * (2 ^ lastPlace m : Nat)| ≤
          |(m : Int) - t * (2 ^ lastPlace m : Nat)| := roundDiv_nearest unit t
      rw [roundNat]
      exact_mod_cast least
    rcases le_or_gt (lastPlace m : Int) q with coarse | fine
    · -- A number without smaller places is a multiple of the last place.
      have multiple := near (k * 2 ^ (q - lastPlace m).toNat)
      rw [zpow_split coarse, zpow_natCast, ← mul_assoc]
      exact_mod_cast multiple
    · -- A number with smaller places is not above the least one with 53 bits, which is a multiple.
      have whole : 2 ^ 52 * 2 ^ lastPlace m ≤ m := by
        have bits : 2 ^ m.log2 ≤ m := Nat.log2_self_le pos.ne'
        rwa [← pow_add, lastPlace, show 52 + (m.log2 - 52) = m.log2 by omega]
      have below : (k : ℚ) * 2 ^ q ≤ 2 ^ 52 * 2 ^ lastPlace m := by
        have place : (2 : ℚ) ^ q ≤ 2 ^ ((lastPlace m : Int) - 1) :=
          zpow_le_zpow_right₀ one_le_two (by omega)
        have bits : (k : ℚ) ≤ 2 ^ 53 := by exact_mod_cast short.le
        calc (k : ℚ) * 2 ^ q ≤ 2 ^ 53 * 2 ^ ((lastPlace m : Int) - 1) := by gcongr
          _ = 2 ^ 52 * 2 ^ lastPlace m := by
            rw [zpow_sub₀ two_ne_zero, zpow_natCast, zpow_one]
            ring
      have least := near (2 ^ 52)
      have whole' : (2 : ℚ) ^ 52 * 2 ^ lastPlace m ≤ m := by exact_mod_cast whole
      rw [Int.cast_pow, Int.cast_ofNat, abs_of_nonneg (sub_nonneg.mpr whole')] at least
      exact least.trans ((sub_le_sub_left below _).trans (le_abs_self _))

/-! ### Integers -/

theorem scaled_one (m : Nat) :
    scaled m 1 (m.log2 - 52) = (m * 2 ^ (52 - m.log2), 2 ^ lastPlace m) := by
  have negative : (-((m.log2 : Int) - 52)).toNat = 52 - m.log2 := by omega
  have positive : ((m.log2 : Int) - 52).toNat = m.log2 - 52 := by omega
  rw [scaled, negative, positive, Nat.pow_eq, Nat.pow_eq, one_mul, lastPlace]

theorem exponentOf_one (pos : 0 < m) : exponentOf m 1 = m.log2 - 52 := by
  have one : Nat.log2 1 = 0 := by decide
  have full : ¬m * 2 ^ (52 - m.log2) / 2 ^ lastPlace m < Nat.pow 2 52 := by
    rw [Nat.pow_eq, not_lt, Nat.le_div_iff_mul_le (Nat.two_pow_pos _), ← pow_add, lastPlace,
      show 52 + (m.log2 - 52) = m.log2 + (52 - m.log2) by omega, pow_add]
    exact Nat.mul_le_mul_right _ (Nat.log2_self_le pos.ne')
  rw [exponentOf]
  simp only [one, Nat.cast_zero, sub_zero, scaled_one, if_neg full, minExponent]
  omega

/-- An integer keeps its first 53 bits, rounded. -/
theorem roundRatio_one (pos : 0 < m) (small : m < 2 ^ 64) (negative : Bool) :
    ∃ x, roundRatio negative m 1 = some x ∧ x.negative = negative ∧ x.IsShort ∧
      (x.mantissa : ℚ) * 2 ^ x.exponent = roundNat m := by
  have bits : m.log2 < 64 := (Nat.log2_lt pos.ne').mpr small
  have short : roundDiv (m * 2 ^ (52 - m.log2)) (2 ^ lastPlace m) ≤ 2 ^ 53 := by
    refine roundDiv_le (Nat.two_pow_pos _) ?_
    rw [← pow_add, lastPlace, show 53 + (m.log2 - 52) = m.log2 + 1 + (52 - m.log2) by omega, pow_add]
    exact Nat.mul_lt_mul_of_pos_right Nat.lt_log2_self (Nat.two_pow_pos _)
  have rounded : (roundDiv (m * 2 ^ (52 - m.log2)) (2 ^ lastPlace m) : ℚ) * 2 ^ ((m.log2 : Int) - 52) =
      roundNat m := by
    rcases le_or_gt m.log2 52 with few | many
    · have place : lastPlace m = 0 := Nat.sub_eq_zero_of_le few
      have back : ((m.log2 : Int) - 52) = -((52 - m.log2 : Nat) : Int) := by omega
      rw [roundNat_of_log2_le few, place, pow_zero, roundDiv_one, back, zpow_neg, zpow_natCast]
      push_cast
      rw [mul_inv_cancel_right₀ (by positivity)]
    · have place : ((m.log2 : Int) - 52) = (lastPlace m : Int) := by rw [lastPlace]; omega
      rw [Nat.sub_eq_zero_of_le many.le, pow_zero, mul_one, place, zpow_natCast, roundNat]
      push_cast
      rfl
  have range {exponent : Int} (le : exponent ≤ (m.log2 : Int) - 51) : ¬maxExponent < exponent := by
    rw [maxExponent]
    omega
  rw [roundRatio, if_neg pos.ne', exponentOf_one pos]
  dsimp only
  rw [scaled_one]
  dsimp only
  generalize roundDiv (m * 2 ^ (52 - m.log2)) (2 ^ lastPlace m) = mantissa at short rounded ⊢
  by_cases carry : mantissa = 2 ^ 53
  · -- A carry into the 54th bit moves the point.
    rw [Nat.pow_eq, if_pos carry]
    dsimp only
    rw [if_neg (range (by omega))]
    refine ⟨_, rfl, rfl, by norm_num [IsShort], ?_⟩
    rw [← rounded, carry, zpow_add₀ two_ne_zero, zpow_one]
    push_cast
    ring
  · rw [Nat.pow_eq, if_neg carry]
    dsimp only
    rw [if_neg (range (by omega))]
    exact ⟨_, rfl, rfl, lt_of_le_of_ne short carry, rounded⟩

theorem ofInt_zero : ofInt 0 = zero false :=
  rfl

/-- The sign of an integer in front of its rounded magnitude. -/
def roundInt (n : Int) : Int :=
  if n < 0 then -roundNat n.natAbs else roundNat n.natAbs

theorem natAbs_lt (fits : fitsInteger n = true) : n.natAbs < 2 ^ 64 := by
  simp only [fitsInteger, Bool.and_eq_true, decide_eq_true_eq] at fits
  omega

theorem isShort_ofInt (fits : fitsInteger n = true) : (ofInt n).IsShort := by
  rcases Nat.eq_zero_or_pos n.natAbs with zero | pos
  · rw [Int.natAbs_eq_zero.mp zero, ofInt_zero]
    exact Nat.two_pow_pos _
  · obtain ⟨x, rounded, _, short, _⟩ := roundRatio_one pos (natAbs_lt fits) (n < 0)
    rwa [ofInt, rounded]

theorem value_ofInt (fits : fitsInteger n = true) : (ofInt n).value = roundInt n := by
  rcases Nat.eq_zero_or_pos n.natAbs with zero | pos
  · rw [Int.natAbs_eq_zero.mp zero, ofInt_zero]
    simp [value, significand, Binary64.zero, roundInt, roundNat, roundDiv]
  · obtain ⟨x, rounded, sign, _, same⟩ := roundRatio_one pos (natAbs_lt fits) (n < 0)
    rw [ofInt, rounded, Option.getD_some, value, significand, sign, roundInt]
    split
    · next negative =>
      rw [if_pos (of_decide_eq_true negative)]
      push_cast
      rw [neg_mul, same]
    · next positive =>
      rw [if_neg (by simpa using positive)]
      push_cast
      rw [same]

theorem abs_value (x : Binary64) : |x.value| = x.mantissa * 2 ^ x.exponent := by
  have sign : |(x.significand : ℚ)| = x.mantissa := by
    unfold significand
    split <;> simp
  rw [value, abs_mul, sign, abs_of_pos (zpow_pos two_pos _)]

theorem abs_sub_roundInt (n : Int) : |n - roundInt n| = |(n.natAbs : Int) - roundNat n.natAbs| := by
  unfold roundInt
  split
  · rw [← abs_neg]
    congr 1
    omega
  · congr 1
    omega

/-- No number with 53 significant bits is nearer to an integer than the one it is rounded to. -/
theorem ofInt_nearest (fits : fitsInteger n = true) (short : x.IsShort) :
    |(n : ℚ) - (ofInt n).value| ≤ |(n : ℚ) - x.value| := by
  have magnitude : |(n.natAbs : ℚ) - roundNat n.natAbs| ≤ |(n.natAbs : ℚ) - abs x.value| := by
    rcases Nat.eq_zero_or_pos n.natAbs with zero | pos
    · rw [zero]
      simp [roundNat, roundDiv]
    · rw [abs_value]
      exact roundNat_nearest pos short x.exponent
  have signed : |(n : ℚ) - roundInt n| = |(n.natAbs : ℚ) - roundNat n.natAbs| := by
    exact_mod_cast abs_sub_roundInt n
  rw [value_ofInt fits, signed]
  refine magnitude.trans ?_
  rw [Nat.cast_natAbs, Int.cast_abs]
  exact abs_abs_sub_abs_le _ _

/-- Rounding keeps the order of integers, except that it may make them equal. Otherwise the lesser one would
lie above the middle between the results, and the greater one below it. -/
theorem value_ofInt_mono (fits : fitsInteger a = true) (fits' : fitsInteger b = true) (le : a ≤ b) :
    (ofInt a).value ≤ (ofInt b).value := by
  rcases le.eq_or_lt with rfl | less
  · exact le_rfl
  · by_contra reversed
    have near := sq_le_sq.mpr (ofInt_nearest fits (isShort_ofInt fits'))
    have near' := sq_le_sq.mpr (ofInt_nearest fits' (isShort_ofInt fits))
    have apart := mul_pos (sub_pos.mpr (not_le.mp reversed)) (sub_pos.mpr (Int.cast_lt (R := ℚ).mpr less))
    linarith

end PromptScript.Binary64
