import Columnar.Proofs.Expr.Payload
import Mathlib.Data.Rat.Cast.Defs
import Mathlib.Algebra.Field.Rat
import Mathlib.Algebra.Order.Field.Basic
import Mathlib.Tactic.NormNum

/-!
# `Proofs.Decimal.Number` — the number that a decimal denotes

A decimal keeps the zeros at its end and the sign of its zero, so a number has many decimals. They are told
to be equal by cross-multiplication (`sameNumber`), and they are hashed in the one form that has no zero left
at the end (`reduced`). Both come to the same: equality of the numbers.

## Contents
- `Decimal.toRat`, `toRat_eq`: the number.
- `sameNumber_iff_toRat_eq`: decimals are equal as their numbers are.
- `reduced_eq_iff`: the reduced forms are equal as the numbers are.
-/

namespace Columnar.Decimal

-- powers of numbers are those of core, whatever else is in scope
attribute [local instance (high)] instPowNat

/-- The number that a decimal denotes. -/
def toRat (d : Decimal) : ℚ := d.mantissa / 10 ^ d.scale

/-- The number is that of the digits, behind the sign. -/
theorem toRat_eq (d : Decimal) : d.toRat = if d.negative then -((d.coefficient : ℚ) / (10 ^ d.scale : Nat))
    else (d.coefficient : ℚ) / (10 ^ d.scale : Nat) := by
  unfold toRat mantissa
  cases d.negative with
  | true =>
    rw [if_pos rfl, if_pos rfl]
    push_cast
    exact neg_div _ _
  | false =>
    rw [if_neg Bool.false_ne_true, if_neg Bool.false_ne_true]
    push_cast
    rfl

theorem sameNumber_iff_toRat_eq {a b : Decimal} : a.sameNumber b = true ↔ a.toRat = b.toRat := by
  have ha : (10 : ℚ) ^ a.scale ≠ 0 := pow_ne_zero _ (by norm_num)
  have hb : (10 : ℚ) ^ b.scale ≠ 0 := pow_ne_zero _ (by norm_num)
  unfold toRat
  rw [sameNumber_iff, div_eq_div_iff ha hb]
  exact_mod_cast Iff.rfl

/-! ## The reduced form -/

/-- Dropping zeros keeps the number. -/
theorem reduce_number (m : Int) (scale : Nat) :
    (reduce m scale).1 * 10 ^ scale = m * 10 ^ (reduce m scale).2 := by
  induction scale generalizing m with
  | zero => rfl
  | succ scale ih =>
    unfold reduce
    by_cases hm : m % 10 = 0
    · rw [if_pos hm]
      have hten : m = m / 10 * 10 := (Int.ediv_mul_cancel (Int.dvd_of_emod_eq_zero hm)).symm
      calc (reduce (m / 10) scale).1 * 10 ^ (scale + 1)
          = (reduce (m / 10) scale).1 * 10 ^ scale * 10 := by ring
        _ = m / 10 * 10 ^ (reduce (m / 10) scale).2 * 10 := by rw [ih]
        _ = m / 10 * 10 * 10 ^ (reduce (m / 10) scale).2 := by ring
        _ = m * 10 ^ (reduce (m / 10) scale).2 := by rw [← hten]
    · rw [if_neg hm]

/-- No zero is left at the end of a fraction. -/
theorem reduce_last (m : Int) (scale : Nat) :
    (reduce m scale).2 = 0 ∨ (reduce m scale).1 % 10 ≠ 0 := by
  induction scale generalizing m with
  | zero => exact Or.inl rfl
  | succ scale ih =>
    unfold reduce
    by_cases hm : m % 10 = 0
    · rw [if_pos hm]
      exact ih _
    · rw [if_neg hm]
      exact Or.inr hm

/-- A fraction with no zero at its end has no more places than any other of its number. -/
theorem scale_le_of_last {m n : Int} {p q : Nat} (hlast : q = 0 ∨ n % 10 ≠ 0)
    (h : m * 10 ^ q = n * 10 ^ p) : q ≤ p := by
  by_contra hlt
  obtain ⟨k, rfl⟩ : ∃ k, q = p + (k + 1) := ⟨q - p - 1, by omega⟩
  have hpos : (10 : Int) ^ p ≠ 0 := pow_ne_zero _ (by decide)
  have hn : n = m * 10 ^ k * 10 := by
    refine mul_right_cancel₀ hpos ?_
    rw [← h]
    ring
  rcases hlast with hq | hn'
  · omega
  · exact hn' (by rw [hn]; exact Int.mul_emod_left _ _)

/-- Two decimals have one reduced form exactly if they are one number. -/
theorem reduced_eq_iff {a b : Decimal} : a.reduced = b.reduced ↔ a.sameNumber b = true := by
  have hten : ∀ n : Nat, (10 : Int) ^ n ≠ 0 := fun n => pow_ne_zero _ (by decide)
  have ha : a.reduced.1 * 10 ^ a.scale = a.mantissa * 10 ^ a.reduced.2 := reduce_number _ _
  have hb : b.reduced.1 * 10 ^ b.scale = b.mantissa * 10 ^ b.reduced.2 := reduce_number _ _
  rw [sameNumber_iff]
  constructor
  · intro h
    rw [h] at ha
    refine mul_right_cancel₀ (hten b.reduced.2) ?_
    calc a.mantissa * 10 ^ b.scale * 10 ^ b.reduced.2
        = a.mantissa * 10 ^ b.reduced.2 * 10 ^ b.scale := by ring
      _ = b.reduced.1 * 10 ^ b.scale * 10 ^ a.scale := by rw [← ha]; ring
      _ = b.mantissa * 10 ^ a.scale * 10 ^ b.reduced.2 := by rw [hb]; ring
  · intro h
    have hcross : a.reduced.1 * 10 ^ b.reduced.2 = b.reduced.1 * 10 ^ a.reduced.2 := by
      refine mul_right_cancel₀ (mul_ne_zero (hten a.scale) (hten b.scale)) ?_
      calc a.reduced.1 * 10 ^ b.reduced.2 * (10 ^ a.scale * 10 ^ b.scale)
          = a.reduced.1 * 10 ^ a.scale * 10 ^ b.reduced.2 * 10 ^ b.scale := by ring
        _ = a.mantissa * 10 ^ b.scale * 10 ^ a.reduced.2 * 10 ^ b.reduced.2 := by rw [ha]; ring
        _ = b.mantissa * 10 ^ b.reduced.2 * 10 ^ a.scale * 10 ^ a.reduced.2 := by rw [h]; ring
        _ = b.reduced.1 * 10 ^ a.reduced.2 * (10 ^ a.scale * 10 ^ b.scale) := by rw [← hb]; ring
    have hscale : a.reduced.2 = b.reduced.2 :=
      Nat.le_antisymm (scale_le_of_last (reduce_last _ _) hcross.symm)
        (scale_le_of_last (reduce_last _ _) hcross)
    rw [hscale] at hcross
    exact Prod.ext (mul_right_cancel₀ (hten b.reduced.2) hcross) hscale

end Columnar.Decimal
