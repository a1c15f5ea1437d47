import Columnar.Binary.Basic
import Mathlib.Algebra.Order.Ring.Nat
import Mathlib.Tactic.Ring

/-!
# `Proofs.Binary.Units` — what is a number of the format is not rounded

The units of a magnitude are a *significand* of so many bits, doubled as often as the magnitude says. A quotient
that comes to the units of a magnitude is rounded to that magnitude, so different magnitudes have different
units. And every single is a double: it has fewer bits, and fewer doublings.

## Contents
- `significand`, `magnitude_eq`, `units_eq`: the parts of a magnitude.
- `round_units`: rounding changes no number of the format.
- `exists_units_eq`: every significand with its doublings is a magnitude.
- `Binary.units_convert_double`: a finite single converted to a double is the same number.
-/

namespace Columnar

-- powers of numbers are those of core, whatever else is in scope
attribute [local instance (high)] instPowNat

namespace FloatFormat

variable {f : FloatFormat}

/-! ## The parts of a magnitude -/

/-- The bits of a magnitude that are doubled. -/
def significand (f : FloatFormat) (m : Nat) : Nat := m - f.doublings m * f.binade

theorem binade_pos (f : FloatFormat) : 0 < f.binade := Nat.two_pow_pos _

theorem units_eq (m : Nat) : f.units m = f.significand m * 2 ^ f.doublings m := rfl

@[simp]
theorem units_zero (f : FloatFormat) : f.units 0 = 0 := by
  show (0 - f.doublings 0 * f.binade) * 2 ^ f.doublings 0 = 0
  rw [Nat.zero_sub, Nat.zero_mul]

theorem magnitude_eq (m : Nat) : m = f.doublings m * f.binade + f.significand m := by
  have hle : f.doublings m * f.binade ≤ m :=
    (Nat.mul_le_mul_right _ (Nat.sub_le _ _)).trans (Nat.div_mul_le_self _ _)
  unfold significand
  omega

theorem significand_lt (m : Nat) : f.significand m < 2 * f.binade := by
  have hdiv := Nat.div_add_mod' m f.binade
  have hmod := Nat.mod_lt m f.binade_pos
  have hm := f.magnitude_eq m
  unfold doublings at hm
  rcases Nat.eq_zero_or_pos (m / f.binade) with hzero | hpos
  · rw [hzero] at hdiv hm
    omega
  · obtain ⟨k, hk⟩ := Nat.exists_eq_add_one.mpr hpos
    rw [hk, Nat.add_sub_cancel] at hm
    rw [hk, Nat.add_mul] at hdiv
    omega

/-- What is doubled has its leading bit. -/
theorem le_significand {m : Nat} (h : 0 < f.doublings m) : f.binade ≤ f.significand m := by
  have hdiv := Nat.div_mul_le_self m f.binade
  have hm := f.magnitude_eq m
  unfold doublings at h hm
  obtain ⟨k, hk⟩ := Nat.exists_eq_add_one.mpr (show 0 < m / f.binade by omega)
  rw [hk, Nat.add_sub_cancel] at hm
  rw [hk, Nat.add_mul] at hdiv
  omega

/-! ## Rounding -/

/-- A quotient that is a whole number needs no rounding. -/
theorem nearestEven_mul {den : Nat} (hden : 0 < den) (q : Nat) : nearestEven (q * den) den = q := by
  unfold nearestEven
  simp only [Nat.mul_div_cancel _ hden, Nat.mul_mod_left]
  rw [if_neg (by omega)]

theorem precision_eq (f : FloatFormat) : f.precision = f.precision - 1 + 1 := by
  cases f <;> rfl

/-- The units have the bits of the significand, and one more for each doubling. -/
theorem log2_units (m : Nat) : (f.units m).log2 + 1 - f.precision = f.doublings m := by
  have hlt := f.significand_lt m
  have hprecision := f.precision_eq
  unfold binade at hlt
  rw [← Nat.pow_add_one'] at hlt
  rw [units_eq]
  rcases Nat.eq_zero_or_pos (f.doublings m) with hzero | hpos
  · rw [hzero, Nat.pow_zero, Nat.mul_one]
    rcases Nat.eq_zero_or_pos (f.significand m) with hnone | hsome
    · rw [hnone, Nat.log2_zero]
      omega
    · have hlog := (Nat.log2_lt (Nat.pos_iff_ne_zero.mp hsome)).mpr hlt
      omega
  · have hle := le_significand hpos
    unfold binade at hle
    have hlog : (f.significand m * 2 ^ f.doublings m).log2 = f.precision - 1 + f.doublings m := by
      have hne : f.significand m * 2 ^ f.doublings m ≠ 0 :=
        Nat.mul_ne_zero (by have := f.binade_pos; unfold binade at this; omega) (Nat.two_pow_pos _).ne'
      rw [Nat.log2_eq_iff hne]
      constructor
      · rw [Nat.pow_add]
        exact Nat.mul_le_mul_right _ hle
      · rw [Nat.add_right_comm, Nat.pow_add]
        exact Nat.mul_lt_mul_of_pos_right hlt (Nat.two_pow_pos _)
    omega

/-- What comes to the units of a magnitude is rounded to it. -/
theorem round_units {m den : Nat} (hm : m ≤ f.infinity) (hden : 0 < den) :
    f.round (f.units m * den) den = m := by
  have hnum : f.units m * den = f.significand m * (den * 2 ^ f.doublings m) := by
    rw [units_eq]
    ring
  have hscaled : 0 < den * 2 ^ f.doublings m := Nat.mul_pos hden (Nat.two_pow_pos _)
  unfold round
  simp only [Nat.mul_div_cancel _ hden, log2_units]
  rw [hnum, nearestEven_mul hscaled, ← magnitude_eq, Nat.min_eq_left hm]

/-- Different magnitudes have different units. -/
theorem units_inj {m n : Nat} (hm : m ≤ f.infinity) (hn : n ≤ f.infinity) (h : f.units m = f.units n) :
    m = n := by
  rw [← round_units hm Nat.one_pos, ← round_units hn Nat.one_pos, h]

/-! ## Every significand with its doublings -/

/-- A significand of as many bits as there are, doubled so often, is a magnitude. -/
theorem exists_units_eq (e : Nat) {k : Nat} (hk : k < 2 * f.binade) :
    ∃ m < (e + 2) * f.binade, f.units m = k * 2 ^ e := by
  induction e generalizing k with
  | zero =>
    have hd : f.doublings k = 0 := by
      unfold doublings
      have := (Nat.div_lt_iff_lt_mul f.binade_pos).mpr hk
      omega
    refine ⟨k, by omega, ?_⟩
    unfold units
    rw [hd, Nat.zero_mul, Nat.sub_zero]
  | succ e ih =>
    by_cases hlead : k < f.binade
    · -- a bit is free, so one doubling is done in the significand
      obtain ⟨m, hm, hunits⟩ := ih (k := 2 * k) (by omega)
      refine ⟨m, hm.trans_le (Nat.mul_le_mul_right _ (by omega)), ?_⟩
      rw [hunits, Nat.pow_succ]
      ring
    · refine ⟨(e + 1) * f.binade + k, ?_, ?_⟩
      · calc (e + 1) * f.binade + k < (e + 1) * f.binade + 2 * f.binade := by omega
          _ = (e + 1 + 2) * f.binade := (Nat.add_mul _ _ _).symm
      · have hd : f.doublings ((e + 1) * f.binade + k) = e + 1 := by
          unfold doublings
          rw [Nat.mul_comm, Nat.mul_add_div f.binade_pos]
          have hone : k / f.binade = 1 := Nat.div_eq_of_lt_le (by omega) (by omega)
          omega
        unfold units
        rw [hd, Nat.add_sub_cancel_left]

end FloatFormat

/-! ## Singles among the doubles -/

/-- How often the unit of a double is doubled to give that of a single. -/
def FloatFormat.unitDoublings : Nat := double.unitExponent - single.unitExponent

theorem FloatFormat.double_one : double.one = 2 ^ unitDoublings * single.one := by
  unfold one
  rw [← Nat.pow_add]
  exact congrArg (2 ^ ·) (show double.unitExponent = unitDoublings + single.unitExponent from rfl)

namespace Binary

variable {f : FloatFormat}

/-- A finite magnitude is that of a finite double. -/
theorem exists_double_units {m : Nat} (hm : m < f.infinity) : ∃ n < FloatFormat.double.infinity,
    FloatFormat.double.units n * f.one = f.units m * FloatFormat.double.one := by
  cases f with
  | double => exact ⟨m, hm, rfl⟩
  | single =>
    have hdoublings : FloatFormat.single.doublings m < 254 := by
      have hdiv : m / FloatFormat.single.binade < 255 := (Nat.div_lt_iff_lt_mul (by decide)).mpr hm
      unfold FloatFormat.doublings
      omega
    have hsignificand : FloatFormat.single.significand m < 2 * FloatFormat.double.binade :=
      (FloatFormat.significand_lt m).trans (by decide)
    obtain ⟨n, hn, hunits⟩ := FloatFormat.exists_units_eq
      (FloatFormat.single.doublings m + FloatFormat.unitDoublings) hsignificand
    refine ⟨n, hn.trans_le (Nat.mul_le_mul_right _ ?_), ?_⟩
    · show FloatFormat.single.doublings m + 925 + 2 ≤ 2047
      omega
    · rw [hunits, FloatFormat.units_eq, FloatFormat.double_one, Nat.pow_add]
      ring

/-- A finite number converted to a double is the same number, behind the same sign. -/
theorem units_convert_double {x : Binary f} (hx : x.isFinite = true) :
    (x.convert .double).isFinite = true ∧ (x.convert .double).negative = x.negative
      ∧ FloatFormat.double.units (x.convert .double).magnitude * f.one
        = f.units x.magnitude * FloatFormat.double.one := by
  have hlt : x.magnitude < f.infinity := by simpa [isFinite] using hx
  obtain ⟨n, hn, hunits⟩ := exists_double_units hlt
  have hnan : ¬x.isNaN = true := by simp [isNaN, hlt.le]
  have hmagnitude : (x.convert .double).magnitude = n := by
    unfold convert
    rw [if_neg hnan, if_pos hx]
    unfold ofRatio FloatFormat.ofRatio
    simp only
    rw [← hunits]
    exact FloatFormat.round_units hn.le (Nat.two_pow_pos _)
  refine ⟨?_, ?_, ?_⟩
  · simpa [isFinite, hmagnitude] using hn
  · unfold convert
    rw [if_neg hnan, if_pos hx]
    rfl
  · rw [hmagnitude, hunits]

/-- Different finite numbers are different doubles. -/
theorem convert_double_inj {x y : Binary f} (hx : x.isFinite = true) (hy : y.isFinite = true)
    (h : x.convert .double = y.convert .double) : x = y := by
  obtain ⟨_, hsign, hunits⟩ := units_convert_double hx
  obtain ⟨_, hsign', hunits'⟩ := units_convert_double hy
  rw [h] at hsign hunits
  have hnegative : x.negative = y.negative := hsign.symm.trans hsign'
  have hsame : f.units x.magnitude = f.units y.magnitude :=
    Nat.eq_of_mul_eq_mul_right (Nat.two_pow_pos _) (hunits.symm.trans hunits')
  have hxlt : x.magnitude < f.infinity := by simpa [isFinite] using hx
  have hylt : y.magnitude < f.infinity := by simpa [isFinite] using hy
  have hmagnitude : x.magnitude = y.magnitude := FloatFormat.units_inj hxlt.le hylt.le hsame
  cases x
  cases y
  rw [mk.injEq]
  exact ⟨hnegative, hmagnitude⟩

end Binary

end Columnar
