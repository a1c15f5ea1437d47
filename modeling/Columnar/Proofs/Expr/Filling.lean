import Columnar.Proofs.Binary.Nearest
import Columnar.Proofs.Expr.Edges

/-!
# `Proofs.Expr.Filling` — decimals that fill missing doubles

A decimal that stands in for missing doubles is converted first, and the double is stored. Conversion takes several
roundings, so the double is close to the decimal. It is the nearest double where the decimal is whole or has few
digits, and may be another one where the digits are many.

## Contents
- `Decimal.abs_toDouble_sub_le`: the double is not far.
- `Decimal.KeptBy`, `toDouble_keeps`: what a double keeps of a decimal.
- `Value.coerce_decimal_keeps`, `Value.coerce_decimal_not_nearest`: the double that is stored.
-/

namespace Columnar

-- powers of numbers are those of core, whatever else is in scope
attribute [local instance (high)] instPowNat

open FloatFormat

-- the units of the number one are never counted out below
attribute [local irreducible] FloatFormat.one

namespace Decimal

variable {d : Decimal}

/-! ## Conversion -/

/-- The double is off by a dozen roundings at most. -/
theorem abs_toDouble_sub_le (h : d.scale ≤ 22) :
    |d.toDouble.toRat - d.toRat| ≤ 12 * double.relativeError * |d.toRat| := by
  have hone := one_double_pos
  have hquotient : (0 : ℚ) ≤ (d.coefficient : ℚ) / (10 ^ d.scale : Nat) := by positivity
  have habs : |d.toRat| = (d.coefficient : ℚ) / (10 ^ d.scale : Nat) := by
    rw [toRat_eq]
    exact Binary.abs_signed d.negative hquotient
  have hwithin := (within_doubleMagnitude d.coefficient_lt h).div_right hone.le
  rw [div_right_comm, mul_div_cancel_right₀ _ hone.ne'] at hwithin
  have hcount : (1 + double.relativeError) ^ 11 - 1 ≤ 12 * double.relativeError := by
    rw [relativeError_double]
    norm_num
  have hsigns := d.toDouble.abs_toRat_sub (d.coefficient / (10 ^ d.scale : Nat))
  rw [magnitude_toDouble] at hsigns
  rw [habs, d.toRat_eq_signed]
  calc _ = |(double.units (doubleMagnitude d.coefficient d.scale) : ℚ) / double.one
        - d.coefficient / (10 ^ d.scale : Nat)| := hsigns
    _ ≤ ((1 + double.relativeError) ^ 11 - 1) * (d.coefficient / (10 ^ d.scale : Nat)) := hwithin
    _ ≤ 12 * double.relativeError * (d.coefficient / (10 ^ d.scale : Nat)) :=
      mul_le_mul_of_nonneg_right hcount hquotient

/-- What a double keeps of a decimal: the sign, unless it is that of a zero without places, the number up to a dozen
roundings, and as much as any double can where the decimal is whole or has few digits. -/
structure KeptBy (d : Decimal) (x : Binary .double) : Prop where
  isFinite : x.isFinite = true
  negative : x.negative = (d.negative && (d.coefficient != 0 || d.scale != 0))
  close : |x.toRat - d.toRat| ≤ 12 * double.relativeError * |d.toRat|
  nearest : 10 ^ d.scale ∣ d.coefficient ∨ d.coefficient < 2 ^ 50 → x.IsNearest d.toRat

theorem toDouble_keeps (h : d.scale ≤ 22) : d.KeptBy d.toDouble where
  isFinite := by
    unfold Binary.isFinite
    rw [magnitude_toDouble]
    exact decide_eq_true (doubleMagnitude_lt_infinity d.coefficient_lt h)
  negative := d.negative_toDouble
  close := abs_toDouble_sub_le h
  nearest := by
    intro hfew
    have hdigits : 10 ^ d.scale ∣ d.coefficient ∨ d.coefficient < 2 ^ 50 ∧ d.scale ≤ 22 :=
      hfew.imp_right fun hlt => ⟨hlt, h⟩
    have hfinite := doubleMagnitude_lt_infinity d.coefficient_lt h
    rw [doubleMagnitude_eq_ofRatio hdigits] at hfinite
    have hnearest := Binary.ofRatio_isNearest d.toDouble.negative (Nat.pow_pos (by decide)) hfinite
    rwa [← nearestDouble_eq, ← toDouble_eq_nearestDouble hdigits, ← toRat_eq_signed] at hnearest

end Decimal

/-- A literal with three places. -/
def Sales.threePlacesLiteral : Expr := .node ⟨1⟩ 1 (.literal (.decimal threePlaces)) .decimal .scalar none []

namespace Value

/-! ## What is stored -/

/-- A decimal converts to a double that keeps it, and that double is stored where the decimal fills missing
doubles. -/
theorem coerce_decimal_keeps {d : Decimal} (h : d.scale ≤ 22) :
    ∃ x, (decimal d).coerce (.float .double) = some (.float .double x) ∧ d.KeptBy x
      ∧ ∀ (_ : Hasher) (e value : Expr) (s : Supply), e.type = .float .double → value.shape = .scalar →
        value.kind = .literal (.decimal d) →
          ∃ r fill, e.fillMissing value s = .ok r ∧ r.1.operands = [e, fill]
            ∧ fill.kind = .literal (.float .double x) := by
  have hcoerce : (decimal d).coerce (.float .double) = some (.float .double d.toDouble) := rfl
  refine ⟨d.toDouble, hcoerce, Decimal.toDouble_keeps h, ?_⟩
  intro _ e value s htype hscalar hkind
  have hliteral : value.kind.literal? = some (.decimal d) := by
    rw [hkind]
    rfl
  rw [← htype] at hcoerce
  have hfill : e.fill value s
      = .ok (s.node (.literal (.float .double d.toDouble)) (.float .double) .scalar none []) :=
    Expr.fill_eq_ok.mpr (.inl ⟨_, _, hliteral, hcoerce, rfl⟩)
  exact ⟨_, _, Expr.fillMissing_eq_ok.mpr ⟨hscalar, _, _, hfill, rfl⟩, rfl, rfl⟩

open Sales in
/-- A number with three places is stored as the nearest double. -/
theorem coerce_decimal_keeps_threePlaces : threePlaces.scale ≤ 22
    ∧ ∃ x r fill, @Expr.fillMissing .standard quantity threePlacesLiteral {} = .ok r
      ∧ r.1.operands = [quantity, fill] ∧ fill.kind = .literal (.float .double x)
      ∧ x.IsNearest threePlaces.toRat := by
  obtain ⟨x, _, hkept, hfilled⟩ := coerce_decimal_keeps (d := threePlaces) (by decide)
  obtain ⟨r, fill, hr, hoperands, hfill⟩ := hfilled .standard quantity threePlacesLiteral {} rfl rfl rfl
  exact ⟨by decide, x, r, fill, hr, hoperands, hfill, hkept.nearest (.inr (by decide))⟩

open Sales in
/-- Not all decimals are stored as the nearest double: the one of a decimal with many digits may be farther than
the one of a decimal with fewer. -/
theorem coerce_decimal_not_nearest : ¬ ∀ (d : Decimal) (x : Binary .double), d.scale ≤ 22 →
    (decimal d).coerce (.float .double) = some (.float .double x) → x.IsNearest d.toRat := by
  intro hall
  have hnearest := hall sixteenPlaces sixteenPlaces.toDouble (by decide) rfl
  have hclosest := hnearest.closest threePlaces.toDouble (by decide +kernel)
  -- both distances, over the denominator they share
  have hone := Decimal.one_double_pos
  have hpos : (0 : ℚ) < double.one * 10 ^ 16 := mul_pos hone (by norm_num)
  have hdistance : ∀ x : Binary .double, |x.toRat - sixteenPlaces.toRat|
      = (|x.signedUnits * 10 ^ 16 - double.one * 29209999999999999| : Int) / (double.one * 10 ^ 16) := by
    intro x
    have hnumber : sixteenPlaces.toRat = 29209999999999999 / 10 ^ 16 := rfl
    rw [hnumber, Binary.toRat, div_sub_div _ _ hone.ne' (by norm_num), abs_div, abs_of_pos hpos]
    push_cast
    norm_num
  rw [hdistance, hdistance, div_le_div_iff_of_pos_right hpos, Int.cast_le] at hclosest
  have hcloser : |threePlaces.toDouble.signedUnits * 10 ^ 16 - double.one * 29209999999999999|
      < |sixteenPlaces.toDouble.signedUnits * 10 ^ 16 - double.one * 29209999999999999| := by
    decide +kernel
  exact hcloser.not_ge hclosest

end Value

end Columnar
