import Columnar.Proofs.Decimal.Number
import Columnar.Proofs.Text.Digits

/-!
# `Proofs.Decimal.Writing` — what the text of a decimal shows

The text of a decimal shows its sign and all its places. So of two decimals that are one number, only one that
has the other's sign and scale has its text, and that is the other itself.

## Contents
- `coefficient_mul_eq`, `whole_eq`: what decimals of one number share.
- `Decimal.text_eq_iff`: decimals of one number have one text only if they are one.
-/

namespace Columnar

-- powers of numbers are those of core, whatever else is in scope
attribute [local instance (high)] instPowNat

/-! ## Decimals -/

namespace Decimal

variable {a b : Decimal}

/-- Decimals of one number are one number without their signs as well. -/
theorem coefficient_mul_eq (h : a.sameNumber b = true) :
    a.coefficient * 10 ^ b.scale = b.coefficient * 10 ^ a.scale := by
  have habs := congrArg Int.natAbs (sameNumber_iff.mp h)
  rw [Int.natAbs_mul, Int.natAbs_mul, Int.natAbs_pow, Int.natAbs_pow, natAbs_mantissa,
    natAbs_mantissa] at habs
  exact habs

/-- Decimals of one number have one whole part. -/
theorem whole_eq (h : a.sameNumber b = true) :
    a.coefficient / 10 ^ a.scale = b.coefficient / 10 ^ b.scale := by
  have hten : ∀ n : Nat, 0 < 10 ^ n := fun n => Nat.pow_pos (by decide)
  calc a.coefficient / 10 ^ a.scale
      = a.coefficient * 10 ^ b.scale / (10 ^ a.scale * 10 ^ b.scale) :=
        (Nat.mul_div_mul_right _ _ (hten _)).symm
    _ = b.coefficient * 10 ^ a.scale / (10 ^ b.scale * 10 ^ a.scale) := by
        rw [coefficient_mul_eq h, Nat.mul_comm (10 ^ a.scale)]
    _ = b.coefficient / 10 ^ b.scale := Nat.mul_div_mul_right _ _ (hten _)

/-- Two decimals of one number are written alike only if they are one decimal. -/
theorem text_eq_iff (h : a.sameNumber b = true) : a.text = b.text ↔ a = b := by
  constructor
  · intro htext
    have hchars : a.chars = b.chars := String.ofList_injective htext
    obtain ⟨hsign, hdigits⟩ := Text.signed_eq (Text.not_mem_positional rfl (by decide) _ _)
      (Text.not_mem_positional rfl (by decide) _ _) hchars
    -- the whole parts are as long as each other, so what is longer has more places
    have hlength := congrArg List.length hdigits
    rw [Text.length_positional, Text.length_positional, whole_eq h] at hlength
    have hscale : a.scale = b.scale := by
      split at hlength <;> split at hlength <;> omega
    have hcoefficient := coefficient_mul_eq h
    rw [hscale] at hcoefficient
    have hcoefficient := Nat.eq_of_mul_eq_mul_right (Nat.pow_pos (by decide)) hcoefficient
    obtain ⟨_, _, _, _, _⟩ := a
    obtain ⟨_, _, _, _, _⟩ := b
    cases hsign
    cases hcoefficient
    cases hscale
    rfl
  · intro hab
    rw [hab]

end Decimal

end Columnar
