import Columnar.Proofs.Binary.Conversion
import Columnar.Proofs.Decimal.Conversion
import Columnar.Proofs.Decimal.Number
import Columnar.Value.Basic

/-!
# `Proofs.Value.Number` — the number that a value denotes

Integers, floats and decimals denote numbers, and floats two infinities as well. Each is compared as a double: a
float keeps what it denotes, an integer is rounded once, and so is a decimal that is whole or has few digits. Such
doubles are in order as their numbers are, only that different numbers may have one double.

## Contents
- `Value.number?`, `Value.Below`: what a value denotes, and the order of what values denote.
- `Value.ConvertsToNearest`, `Value.FewDigits`: values that are converted to the nearest double.
- `Value.rank_asDouble`: the double for such a value.
- `Value.IsDouble`: values that need no rounding.
-/

namespace Columnar

-- powers of numbers are those of core, whatever else is in scope
attribute [local instance (high)] instPowNat

open FloatFormat

/-- The sign of the double is that of the number: a zero that loses its sign is zero without it. -/
theorem Decimal.toRat_eq_signed (d : Decimal) :
    d.toRat = if d.toDouble.negative then -((d.coefficient : ℚ) / (10 ^ d.scale : Nat))
      else (d.coefficient : ℚ) / (10 ^ d.scale : Nat) := by
  rw [toRat_eq, negative_toDouble]
  by_cases hzero : d.coefficient = 0
  · simp [hzero]
  · simp [hzero]

theorem Decimal.rank_nearestDouble (d : Decimal) : d.nearestDouble.rank = double.rankOf d.toRat := by
  rw [nearestDouble_eq, Binary.rank_ofRatio double _ _ (Nat.pow_pos (by decide)), toRat_eq_signed]

/-! ## Values -/

namespace Value

/-- What a value denotes, if it is a number or an infinity. -/
def number? : Value → Option Extended
  | int _ n => some (.finite n.val)
  | float _ x => x.number?
  | decimal d => some (.finite d.toRat)
  | _ => none

/-- Both values denote something, the one less than the other. -/
def Below (v w : Value) : Prop := ∃ m n, v.number? = some m ∧ w.number? = some n ∧ m < n

theorem below_int_iff {p q : IntWidth} {a : BoundedInt p} {b : BoundedInt q} :
    (int p a).Below (int q b) ↔ a.val < b.val := by
  constructor
  · rintro ⟨_, _, hm, hn, hlt⟩
    cases hm
    cases hn
    exact_mod_cast WithTop.coe_lt_coe.mp (WithBot.coe_lt_coe.mp hlt)
  · intro hlt
    exact ⟨_, _, rfl, rfl, WithBot.coe_lt_coe.mpr (WithTop.coe_lt_coe.mpr (by exact_mod_cast hlt))⟩

theorem below_decimal_iff {a b : Decimal} : (decimal a).Below (decimal b) ↔ a.toRat < b.toRat := by
  constructor
  · rintro ⟨_, _, hm, hn, hlt⟩
    cases hm
    cases hn
    exact WithTop.coe_lt_coe.mp (WithBot.coe_lt_coe.mp hlt)
  · exact fun hlt => ⟨_, _, rfl, rfl, WithBot.coe_lt_coe.mpr (WithTop.coe_lt_coe.mpr hlt)⟩

/-- A value whose double is the one nearest to its number. Of all values, only a decimal may have another. -/
def ConvertsToNearest (v : Value) : Prop := ∀ d, v = decimal d → d.toDouble = d.nearestDouble

/-- A value that is no decimal, or a decimal that is whole or has few digits. -/
def FewDigits (v : Value) : Prop :=
  ∀ d, v = decimal d → 10 ^ d.scale ∣ d.coefficient ∨ d.coefficient < 2 ^ 50 ∧ d.scale ≤ 22

theorem FewDigits.convertsToNearest {v : Value} (h : v.FewDigits) : v.ConvertsToNearest :=
  fun d hd => Decimal.toDouble_eq_nearestDouble (h d hd)

variable {v w : Value} {m n : Extended} {x y : Binary .double}

/-- The double for a value that denotes something. -/
theorem exists_asDouble (h : v.number? = some n) : ∃ x, v.asDouble = some x ∧ x.isNaN = false := by
  cases v with
  | int _ n => exact ⟨_, rfl, decide_eq_false (Nat.not_lt.mpr (double.round_le_infinity _ _))⟩
  | float f x =>
    have hdouble : ∃ y : Binary .double, (float f x).asDouble = some y ∧ y.number? = some n := by
      cases f with
      | single => exact ⟨_, rfl, (Binary.number?_convert x).trans h⟩
      | double => exact ⟨x, rfl, h⟩
    obtain ⟨y, hy, hnumber⟩ := hdouble
    exact ⟨y, hy, Binary.isNaN_of_number? hnumber⟩
  | decimal d => exact ⟨_, rfl, d.isNaN_toDouble⟩
  | _ => cases h

/-- A double that is the nearest to a number has the rank of it. -/
theorem rank_asDouble (h : v.number? = some n) (hnearest : v.ConvertsToNearest) (hx : v.asDouble = some x) :
    x.rank = double.rankOfExtended n := by
  cases v with
  | int _ n =>
    cases h
    cases hx
    exact Binary.rank_ofInt double _
  | float f y =>
    cases f with
    | single =>
      cases hx
      exact Binary.rank_eq ((Binary.number?_convert y).trans h)
    | double =>
      cases hx
      exact Binary.rank_eq h
  | decimal d =>
    cases h
    cases hx
    rw [hnearest d rfl]
    exact d.rank_nearestDouble
  | _ => cases h

/-! ## Values that need no rounding -/

/-- A value whose double denotes the same. -/
def IsDouble (v : Value) : Prop := ∃ x, v.asDouble = some x ∧ x.number? = v.number?

/-- Integers that have no more bits than a significand, up to zeros at the end, are doubles. -/
theorem isDouble_int {width : IntWidth} {n : BoundedInt width} {k e : Nat} (hk : k < 2 ^ 53) (he : e ≤ 64)
    (h : n.val.natAbs = k * 2 ^ e) : (int width n).IsDouble :=
  ⟨_, rfl, Binary.number?_ofInt_of_natAbs_eq hk he h⟩

theorem isDouble_float {f : FloatFormat} (x : Binary f) : (float f x).IsDouble := by
  cases f with
  | single => exact ⟨_, rfl, Binary.number?_convert x⟩
  | double => exact ⟨x, rfl, rfl⟩

end Value

end Columnar
