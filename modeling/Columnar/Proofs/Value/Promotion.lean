import Columnar.Proofs.ElementType.Order
import Columnar.Proofs.Value.Coercion

/-!
# `Proofs.Value.Promotion` — literals convert along promotions

A type that is the common type of itself and another has room for the values of the other. So a literal converts
to it, with one exception: a double has no room for all integers of 64 bits, and those that are no doubles are not
rounded. Where a literal converts against the promotions, its number is kept.

## Contents
- `Value.Unrepresentable`: the exception.
- `coerce_isSome_iff_of_promote`, `coerce_number?_eq`: conversions along promotions, and against them.
-/

namespace Columnar

-- powers of numbers are those of core, whatever else is in scope
attribute [local instance (high)] instPowNat

theorem IntWidth.Contains.mono {p q : IntWidth} {n : Int} (h : p.bits ≤ q.bits) (hn : p.Contains n) : q.Contains n := by
  have hpow : 2 ^ (p.bits - 1) ≤ 2 ^ (q.bits - 1) := Nat.pow_le_pow_right (by decide) (Nat.sub_le_sub_right h 1)
  unfold Contains at *
  zify at hpow
  omega

namespace Value

open ElementType (Widens promote_eq_left_iff)

variable {v w : Value} {t : ElementType}

/-- An integer of 64 bits that would have to be rounded to become a double. -/
def Unrepresentable (v : Value) (t : ElementType) : Prop :=
  t = .float .double ∧ v.type = .int .w64 ∧ ¬ ∃ x : Binary .double, x.number? = v.number?

/-- A float has the integers of narrow widths. -/
theorem exists_number?_of_bits_le {f : FloatFormat} {p : IntWidth} (n : BoundedInt p) (h : p.bits ≤ f.precision) :
    ∃ x : Binary f, x.number? = some (.finite n.val) := by
  have hbound : n.val.natAbs < 2 ^ f.precision := by
    refine n.natAbs_le.trans_lt (Nat.pow_lt_pow_right (by decide) ?_)
    have hpos : 0 < p.bits := by cases p <;> decide
    omega
  refine (Binary.exists_number?_ofInt_iff ?_).mpr ⟨n.val.natAbs, 0, (Nat.mul_one _).symm, hbound⟩
  exact n.natAbs_le.trans (by cases p <;> decide)

theorem not_unrepresentable (h : t ≠ .float .double ∨ v.type ≠ .int .w64) : ¬ v.Unrepresentable t := by
  rintro ⟨ht, hv, _⟩
  rcases h with h | h
  · exact h ht
  · exact h hv

/-- A literal converts to a type that has room for its values, unless it would have to be rounded. -/
theorem coerce_isSome_iff_of_promote (h : t.promote v.type = some t) :
    (v.coerce t).isSome = true ↔ ¬ v.Unrepresentable t := by
  have hwidens := promote_eq_left_iff.mp h
  by_cases hsame : v.type = t
  · have hself : v.coerce t = some v := if_pos hsame
    rw [hself]
    refine iff_of_true rfl (not_unrepresentable ?_)
    by_contra hboth
    push Not at hboth
    rw [hboth.1, hboth.2] at hsame
    cases hsame
  · cases v with
    | int p n =>
      have hwidens : Widens (.int p) t := hwidens
      cases hwidens with
      | refl => exact absurd rfl hsame
      | @int _ q hbits =>
        refine iff_of_true (coerce_int_int_isSome_iff.mpr ?_) (not_unrepresentable (.inl (by simp)))
        exact IntWidth.Contains.mono hbits n.inRange
      | intToSingle hbits =>
        refine iff_of_true (coerce_int_float_isSome_iff.mpr ?_) (not_unrepresentable (.inl (by simp)))
        exact exists_number?_of_bits_le n (hbits.trans (by decide))
      | intToDouble =>
        rw [coerce_int_float_isSome_iff]
        by_cases hwidth : p = .w64
        · simp [Unrepresentable, type, number?, hwidth]
        · -- the narrower widths fit in a significand
          have hbits : p.bits ≤ 53 := by
            revert hwidth
            cases p <;> decide
          refine iff_of_true (exists_number?_of_bits_le n hbits) (not_unrepresentable (.inr ?_))
          simpa [type] using hwidth
      | intToDecimal => exact iff_of_true rfl (not_unrepresentable (.inl (by simp)))
    | float f x =>
      have hwidens : Widens (.float f) t := hwidens
      cases hwidens with
      | refl => exact absurd rfl hsame
      | singleToDouble => exact iff_of_true rfl (not_unrepresentable (.inr (by simp [type])))
    | decimal d =>
      have hwidens : Widens .decimal t := hwidens
      cases hwidens with
      | refl => exact absurd rfl hsame
      | decimalToDouble => exact iff_of_true rfl (not_unrepresentable (.inr (by simp [type])))
    | boolean | string | datetime =>
      cases hwidens with
      | refl => exact absurd rfl hsame

/-- Where a literal converts to a type that has no room for all values like it, it is a number and is kept. -/
theorem coerce_number?_eq (h : v.coerce t = some w) (hpromote : t.promote v.type ≠ some t) :
    ∃ n, v.number? = some n ∧ w.number? = some n := by
  obtain ⟨hconverts, rfl⟩ := coerce_eq_some_iff.mp h
  cases hconverts with
  | same => exact absurd (ElementType.promote_self _) hpromote
  | int hval => exact ⟨_, rfl, by simp [number?, hval]⟩
  | intToFloat hnumber => exact ⟨_, rfl, hnumber⟩
  | narrow hx hkept => exact ⟨_, hx, hkept⟩
  | intToDecimal | widen | decimalToDouble => exact absurd rfl hpromote

end Value

end Columnar
