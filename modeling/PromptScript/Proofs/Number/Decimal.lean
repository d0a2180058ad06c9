import Mathlib
import PromptScript.Proofs.Text.Span
import PromptScript.Value.Reader

/-!
Decimal digits: the digits of a number spell it, and a leading zero stands alone.
-/
namespace PromptScript

open Text

theorem isDigit_of_mem_toDigits {n : Nat} {c : Char} (member : c ∈ Nat.toDigits 10 n) :
    c.isDigit = true :=
  Nat.isDigit_of_mem_toDigits (by decide) (by decide) member

theorem exists_toDigits_cons (n : Nat) :
    ∃ c more, Nat.toDigits 10 n = c :: more ∧ c.isDigit = true := by
  obtain ⟨c, more, digits⟩ := List.exists_cons_of_ne_nil (Nat.toDigits_ne_nil (n := n) (b := 10))
  exact ⟨c, more, digits, isDigit_of_mem_toDigits (n := n) (by simp [digits])⟩

theorem digitsValue_toDigits (n : Nat) : Value.digitsValue (Nat.toDigits 10 n) = n := by
  have step : (fun (n : Nat) (c : Char) => n * 10 + (c.toNat - '0'.toNat)) =
      fun n c => 10 * n + (c.toNat - '0'.toNat) := by
    funext n c
    rw [Nat.mul_comm]
  rw [Value.digitsValue, step]
  exact Nat.ofDigitChars_ten_toDigits

theorem digitChar_eq_zero {d : Nat} (h : d < 10) (zero : Nat.digitChar d = '0') : d = 0 := by
  interval_cases d <;> first | rfl | exact absurd zero (by decide)

/-- Only zero starts with the digit zero. -/
theorem eq_zero_of_toDigits_head {n : Nat} {more : List Char}
    (h : Nat.toDigits 10 n = '0' :: more) : n = 0 := by
  induction n using Nat.strongRecOn generalizing more with
  | ind n ih =>
    rw [Nat.toDigits_eq_if (by decide)] at h
    split at h
    · next small =>
      rw [List.cons.injEq] at h
      exact digitChar_eq_zero small h.1
    · next large =>
      obtain ⟨first, others, digits, _⟩ := exists_toDigits_cons (n / 10)
      rw [digits, List.cons_append, List.cons.injEq] at h
      have quotient : n / 10 = 0 := ih (n / 10) (by omega) (h.1 ▸ digits)
      omega

theorem spanDigits_append {digits rest : List Char} (all : ∀ c ∈ digits, c.isDigit = true)
    (bars : Bars Char.isDigit rest) : Value.spanDigits (digits ++ rest) = (digits, rest) :=
  Prod.ext (takeWhile_append_of_bars all bars) (dropWhile_append_of_bars all bars)

end PromptScript
