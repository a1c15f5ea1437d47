import Columnar.Decimal.Basic
import Columnar.Proofs.Binary.Error
import Mathlib.Tactic.NormNum

/-!
# `Proofs.Decimal.Conversion` — decimals that are converted to doubles

A decimal is converted in several steps, each of which rounds: its whole and its fractional part become doubles, and
their sum is rounded to as many places as the decimal has. Up to the rounding to places, that is at most four
roundings in a row. Where the decimal has no more than fifteen digits, they are too small to reach the next multiple
of the last place; so the digits themselves come out before the last division, and that is rounded once. Where it has
more, the rounding to places is itself no more than a few roundings of so great a number.

## Contents
- `nearestDouble`: the number of a decimal, rounded once.
- `doubleMagnitude_of_dvd`: decimals that are whole numbers.
- `magnitude_toDouble`, `negative_toDouble`, `nearestDouble_eq`: both doubles in their two parts.
- `IsDivisor`, `within_product`: the steps before the rounding to places, counted.
- `doubleMagnitude_of_lt`, `toDouble_eq_nearestDouble`: decimals of few digits.
- `within_doubleMagnitude`, `doubleMagnitude_lt_infinity`: all decimals whose power of ten is a double.
-/

namespace Columnar.Decimal

-- powers of numbers are those of core, whatever else is in scope
attribute [local instance (high)] instPowNat

open FloatFormat

/-- The double nearest to the number of a decimal. Without places it is that of an integer, and otherwise it stands
behind the sign of the decimal. -/
def nearestDouble (d : Decimal) : Binary .double :=
  if d.scale = 0 then .ofInt .double d.mantissa
  else .ofRatio .double d.negative d.coefficient (10 ^ d.scale)

theorem doubleMagnitude_le_infinity (m scale : Nat) : doubleMagnitude m scale ≤ double.infinity := by
  unfold doubleMagnitude
  dsimp only
  split <;> exact double.round_le_infinity ..

variable {m scale : Nat}

/-! ## Whole numbers -/

theorem ofNatural_zero : double.ofNatural 0 = 0 := by
  show double.round (0 * double.one) 1 = 0
  rw [Nat.zero_mul, round_zero]

theorem doubleMagnitude_of_dvd (h : 10 ^ scale ∣ m) :
    doubleMagnitude m scale = double.ofRatio m (10 ^ scale) := by
  have hpow : 0 < 10 ^ scale := Nat.pow_pos (by decide)
  have hfraction : double.div (double.ofNatural (m % 10 ^ scale)) (double.ofNatural (10 ^ scale)) = 0 := by
    unfold FloatFormat.div
    rw [Nat.mod_eq_zero_of_dvd h, ofNatural_zero, units_zero, Nat.zero_mul, round_zero]
  unfold doubleMagnitude
  simp only
  rw [if_pos hfraction]
  refine ofRatio_congr Nat.one_pos hpow ?_
  rw [Nat.div_mul_cancel h, Nat.mul_one]

/-! ## Sign and magnitude -/

theorem magnitude_toDouble (d : Decimal) : d.toDouble.magnitude = doubleMagnitude d.coefficient d.scale := by
  unfold toDouble
  by_cases hscale : d.scale = 0
  · rw [if_pos hscale, hscale, doubleMagnitude_of_dvd (one_dvd _), ← natAbs_mantissa]
    rfl
  · rw [if_neg hscale]

/-- The sign is kept, but for a zero without places. -/
theorem negative_toDouble (d : Decimal) :
    d.toDouble.negative = (d.negative && (d.coefficient != 0 || d.scale != 0)) := by
  unfold toDouble
  by_cases hscale : d.scale = 0
  · rw [if_pos hscale, hscale]
    show decide (d.mantissa < 0) = _
    rw [Bool.eq_iff_iff, decide_eq_true_iff, mantissa_neg_iff]
    simp
  · rw [if_neg hscale]
    simp [hscale]

example : (Decimal.mk true 0 0 (by decide) (by decide)).toDouble.negative = false
    ∧ (Decimal.mk true 0 2 (by decide) (by decide)).toDouble.negative = true := by decide

/-- The nearest double stands behind the same sign. -/
theorem nearestDouble_eq (d : Decimal) :
    d.nearestDouble = .ofRatio .double d.toDouble.negative d.coefficient (10 ^ d.scale) := by
  unfold nearestDouble toDouble
  by_cases hscale : d.scale = 0
  · rw [if_pos hscale, if_pos hscale, hscale, ← natAbs_mantissa]
    rfl
  · rw [if_neg hscale, if_neg hscale]

/-- The double for a decimal is a number. -/
theorem isNaN_toDouble (d : Decimal) : d.toDouble.isNaN = false := by
  unfold Binary.isNaN
  rw [magnitude_toDouble]
  exact decide_eq_false (Nat.not_lt.mpr (doubleMagnitude_le_infinity _ _))

/-! ## The steps before the rounding to places -/

/-- The part of a double that one rounding can be off by. -/
theorem relativeError_double : double.relativeError = 1 / 2 ^ 53 := by
  unfold relativeError
  norm_num [binade, precision]

theorem one_pos (f : FloatFormat) : 0 < f.one := Nat.two_pow_pos _

theorem binade_double_le {e : Nat} (h : e ≤ 2045) : (e + 2) * double.binade ≤ double.infinity :=
  Nat.mul_le_mul_right _ (show e + 2 ≤ 2047 by omega)

theorem pow_add_unitExponent (e : Nat) : 2 ^ (e + double.unitExponent) = 2 ^ e * double.one := Nat.pow_add ..

/-- The number one is far above the least number with all bits of a significand, also when it is divided. -/
theorem binade_double_le_one : 4 * double.binade * 10 ^ 22 ≤ double.one :=
  calc 4 * double.binade * 10 ^ 22 ≤ 2 ^ 200 := by decide
    _ ≤ 2 ^ double.unitExponent := Nat.pow_le_pow_right (by decide) (by decide)

/-- The doubles go on far beyond all coefficients. -/
theorem lt_units_infinity : 2 ^ 97 * double.one < double.units double.infinity := by decide +kernel

-- the units of the number one are never counted out below
attribute [local irreducible] FloatFormat.one

theorem one_double_pos : (0 : ℚ) < double.one := by exact_mod_cast one_pos double

theorem one_double_ge : (4 * double.binade * 10 ^ 22 : ℚ) ≤ double.one := by exact_mod_cast binade_double_le_one

/-- All numbers in the steps are far below this one, in units. -/
theorem pow_double_eq : (2 : ℚ) ^ (120 + double.unitExponent) = 2 ^ 120 * double.one := by
  exact_mod_cast pow_add_unitExponent 120

theorem pow_double_le : (120 + double.unitExponent + 2) * double.binade ≤ double.infinity :=
  binade_double_le (by decide)

/-- What is a few roundings off a number is between its half and twice the number. -/
theorem within_bounds {k : Nat} {x y : ℚ} (h : double.Within k x y) (hk : k ≤ 11) (hy : 0 ≤ y) :
    y / 2 ≤ x ∧ x ≤ 2 * y := by
  have hgrowth : (1 + double.relativeError) ^ 11 - 1 ≤ 1 / 2 := by
    rw [relativeError_double]
    norm_num
  have hhalf : |x - y| ≤ 1 / 2 * y := le_trans (h.mono hk hy) (mul_le_mul_of_nonneg_right hgrowth hy)
  obtain ⟨hlow, hhigh⟩ := abs_le.mp hhalf
  constructor <;> linarith

/-- A quotient is rounded once, if it is neither tiny nor huge. -/
theorem within_ratio {k p : Nat} (hp : 0 < p) (hlow : (double.binade : ℚ) ≤ k * double.one / p)
    (hhigh : (k * double.one / p : ℚ) ≤ 2 ^ 120 * double.one) :
    double.Within 1 (double.units (double.ofRatio k p)) (k * double.one / p) := by
  rw [← Nat.cast_mul] at hlow hhigh ⊢
  rw [← pow_double_eq] at hhigh
  exact within_round hp hlow hhigh pow_double_le

/-- A natural number becomes a double by one rounding. -/
theorem within_ofNatural {k : Nat} (hk : k ≤ 2 ^ 100) :
    double.Within 1 (double.units (double.ofNatural k)) (k * double.one) := by
  rcases Nat.eq_zero_or_pos k with rfl | hpos
  · rw [ofNatural_zero, units_zero, Nat.cast_zero, zero_mul]
    exact (Within.refl _ _).mono (Nat.zero_le 1) le_rfl
  · have hquotient : (k * double.one : ℚ) / (1 : Nat) = k * double.one := by
      rw [Nat.cast_one, div_one]
    have hk : (k : ℚ) ≤ 2 ^ 100 := by exact_mod_cast hk
    have hpos : (1 : ℚ) ≤ k := by exact_mod_cast hpos
    have hone := one_double_pos
    have hbinade := one_double_ge
    have hbits : (0 : ℚ) ≤ double.binade := Nat.cast_nonneg _
    have hlow : (double.one : ℚ) ≤ k * double.one := le_mul_of_one_le_left hone.le hpos
    have hhigh : (k * double.one : ℚ) ≤ 2 ^ 100 * double.one := mul_le_mul_of_nonneg_right hk hone.le
    rw [← hquotient] at hlow hhigh ⊢
    exact within_ratio Nat.one_pos (by linarith) (by linarith)

/-- A divisor of moderate size that is a double. -/
structure IsDivisor (p : Nat) : Prop where
  pos : 0 < p
  le : p ≤ 10 ^ 22
  units : double.units (double.ofNatural p) = p * double.one

/-- The powers of ten that need no rounding. -/
theorem isDivisor_ten_pow (h : scale ≤ 22) : IsDivisor (10 ^ scale) where
  pos := Nat.pow_pos (by decide)
  le := Nat.pow_le_pow_right (by decide) h
  units := by
    have hbits : 5 ^ scale < 2 * double.binade :=
      (Nat.pow_le_pow_right (by decide) h).trans_lt (by decide)
    have hexponent : scale + double.unitExponent ≤ 2045 := by
      show scale + 1074 ≤ 2045
      omega
    rw [show 10 = 5 * 2 from rfl, Nat.mul_pow]
    exact units_ofNatural hbits (binade_double_le hexponent)

section

variable {p r : Nat} (hp : IsDivisor p)

include hp

/-- A part of the divisor, divided, is neither tiny nor more than the number one. -/
theorem IsDivisor.bounds (hr : 0 < r) : (4 * double.binade : ℚ) ≤ r * double.one / p := by
  have hpos : (0 : ℚ) < p := by exact_mod_cast hp.pos
  have hle : (p : ℚ) ≤ 10 ^ 22 := by exact_mod_cast hp.le
  have hr : (1 : ℚ) ≤ r := by exact_mod_cast hr
  rw [le_div_iff₀ hpos]
  calc (4 * double.binade : ℚ) * p ≤ 4 * double.binade * 10 ^ 22 := by gcongr
    _ ≤ double.one := one_double_ge
    _ ≤ r * double.one := le_mul_of_one_le_left one_double_pos.le hr

theorem IsDivisor.div_le (hm : m < 2 ^ 96) : (m * double.one / p : ℚ) ≤ 2 ^ 96 * double.one := by
  have hone := one_double_pos
  have hm : (m : ℚ) ≤ 2 ^ 96 := by exact_mod_cast hm.le
  have hp : (1 : ℚ) ≤ p := by exact_mod_cast hp.pos
  exact (div_le_self (by positivity) hp).trans (mul_le_mul_of_nonneg_right hm hone.le)

/-- The quotient by the divisor is rounded once, whatever is divided. -/
theorem IsDivisor.within_div {a : Nat} (hlow : (double.binade : ℚ) ≤ double.units a / p)
    (hhigh : (double.units a / p : ℚ) ≤ 2 ^ 120 * double.one) :
    double.Within 1 (double.units (double.div a (double.ofNatural p))) (double.units a / p) := by
  have hpos : (p : ℚ) ≠ 0 := by exact_mod_cast hp.pos.ne'
  have hone := one_double_pos.ne'
  have hquotient : (double.units a : ℚ) * double.one / double.units (double.ofNatural p) = double.units a / p := by
    rw [hp.units]
    push_cast
    field_simp
  have hunits : 0 < double.units (double.ofNatural p) := by
    rw [hp.units]
    exact Nat.mul_pos hp.pos (one_pos _)
  have hdiv := FloatFormat.within_div (f := double) (a := a) hunits (by rw [hquotient]; exact hlow)
    (by rw [hquotient, pow_double_eq]; exact hhigh) pow_double_le
  rw [hquotient] at hdiv
  exact hdiv

/-- The fractional part is rounded where its digits become a double, and where they are divided. -/
theorem IsDivisor.within_fraction (hr : 0 < r) (hlt : r < p) :
    double.Within 2 (double.units (double.div (double.ofNatural r) (double.ofNatural p))) (r * double.one / p) := by
  have hpos : (0 : ℚ) < p := by exact_mod_cast hp.pos
  have hone := one_double_pos
  have hbits : r ≤ 2 ^ 100 := (hlt.le.trans hp.le).trans (by decide)
  have hdigits := (within_ofNatural hbits).div_right hpos.le
  have hlow := hp.bounds hr
  have hhigh : (r * double.one / p : ℚ) ≤ double.one := by
    rw [div_le_iff₀ hpos, mul_comm]
    exact mul_le_mul_of_nonneg_left (by exact_mod_cast hlt.le) hone.le
  have hbinade : (0 : ℚ) ≤ double.binade := Nat.cast_nonneg _
  obtain ⟨hleast, hmost⟩ := within_bounds hdigits (by decide) (by linarith)
  exact hdigits.step (hp.within_div (by linarith) (by linarith))

section

variable (hm : m < 2 ^ 96) (hfraction : m % p ≠ 0)

include hm hfraction

/-- The sum of the two parts is rounded once more. -/
theorem IsDivisor.within_sum : double.Within 3 (double.units (double.add (double.ofNatural (m / p))
    (double.div (double.ofNatural (m % p)) (double.ofNatural p)))) (m * double.one / p) := by
  have hpos : (0 : ℚ) < p := by exact_mod_cast hp.pos
  have hone := one_double_pos
  have hbits : m / p ≤ 2 ^ 100 := ((Nat.div_le_self m p).trans hm.le).trans (by decide)
  have hwhole := (within_ofNatural hbits).mono (show 1 ≤ 2 by decide) (by positivity)
  have hparts := hwhole.add (hp.within_fraction (Nat.pos_of_ne_zero hfraction) (Nat.mod_lt m hp.pos))
  have hexact : ((m / p : Nat) : ℚ) * double.one + (m % p : Nat) * double.one / p = m * double.one / p := by
    have hdivision : (m : ℚ) = (m / p : Nat) * p + (m % p : Nat) := by
      exact_mod_cast (Nat.div_add_mod' m p).symm
    rw [hdivision]
    field_simp
  rw [hexact] at hparts
  have hnonzero : 0 < m := Nat.pos_of_ne_zero fun hzero => hfraction (by rw [hzero, Nat.zero_mod])
  have hlow := hp.bounds hnonzero
  have hhigh := hp.div_le hm
  have hbinade : (0 : ℚ) ≤ double.binade := Nat.cast_nonneg _
  obtain ⟨hleast, hmost⟩ := within_bounds hparts (by decide) (by linarith)
  exact hparts.step (within_add (by linarith) (by rw [pow_double_eq]; linarith) pow_double_le)

/-- The digits come out of four roundings. -/
theorem IsDivisor.within_product : double.Within 4 (double.units (double.mul (double.add (double.ofNatural (m / p))
    (double.div (double.ofNatural (m % p)) (double.ofNatural p))) (double.ofNatural p))) (m * double.one) := by
  have hpos : (0 : ℚ) < p := by exact_mod_cast hp.pos
  have hone := one_double_pos
  have hsum := (hp.within_sum hm hfraction).mul_right hpos.le
  rw [div_mul_cancel₀ _ hpos.ne'] at hsum
  generalize double.add (double.ofNatural (m / p)) _ = x at hsum ⊢
  have hproduct : (double.units x : ℚ) * double.units (double.ofNatural p) / double.one = double.units x * p := by
    rw [hp.units]
    push_cast
    rw [← mul_assoc, mul_div_cancel_right₀ _ hone.ne']
  have hnonzero : (1 : ℚ) ≤ m := by
    have hpos : 0 < m := Nat.pos_of_ne_zero fun hzero => hfraction (by rw [hzero, Nat.zero_mod])
    exact_mod_cast hpos
  have hm : (m : ℚ) ≤ 2 ^ 96 := by exact_mod_cast hm.le
  have hlow : (double.one : ℚ) ≤ m * double.one := le_mul_of_one_le_left hone.le hnonzero
  have hhigh : (m * double.one : ℚ) ≤ 2 ^ 96 * double.one := mul_le_mul_of_nonneg_right hm hone.le
  have hbinade : (0 : ℚ) ≤ double.binade := Nat.cast_nonneg _
  have hlarge := one_double_ge
  obtain ⟨hleast, hmost⟩ := within_bounds hsum (by decide) (by linarith)
  have hround := within_mul (f := double) (a := x) (b := double.ofNatural p) (by rw [hproduct]; linarith)
    (by rw [hproduct, pow_double_eq]; linarith) pow_double_le
  rw [hproduct] at hround
  exact hsum.step hround

end

end

/-! ## The rounding to places -/

/-- The integer that a double is rounded to is off by a half at most. -/
theorem abs_integral_sub_le (u : Nat) :
    |(((2 * u + double.one) / (2 * double.one) : Nat) : ℚ) * double.one - u| ≤ double.one / 2 := by
  have hone : 0 < 2 * double.one := Nat.mul_pos (by decide) (one_pos _)
  have hlow := Nat.div_mul_le_self (2 * u + double.one) (2 * double.one)
  have hhigh := Nat.lt_div_mul_add hone (a := 2 * u + double.one)
  have hlow : ((((2 * u + double.one) / (2 * double.one) : Nat) : ℚ) * (2 * double.one)) ≤ 2 * u + double.one := by
    exact_mod_cast hlow
  have hhigh : (2 * u + double.one : ℚ)
      < ((2 * u + double.one) / (2 * double.one) : Nat) * (2 * double.one) + 2 * double.one := by
    exact_mod_cast hhigh
  rw [abs_le]
  constructor <;> linarith

/-- Few digits come out as they are. -/
theorem toIntegral_of_lt {x : Nat} (hm : m < 2 ^ 50) (h : double.Within 4 (double.units x) (m * double.one)) :
    double.toIntegral x = double.ofNatural m := by
  have hone := one_double_pos
  have hsmall : ((1 + double.relativeError) ^ 4 - 1) * (m * double.one) < 1 / 2 * double.one := by
    have hdigits : (m : ℚ) + 1 ≤ 2 ^ 50 := by exact_mod_cast hm
    have hgrowth : ((1 + double.relativeError) ^ 4 - 1) * (2 ^ 50 - 1) < 1 / 2 := by
      rw [relativeError_double]
      norm_num
    have hcount := Within.growth_nonneg double 4
    rw [← mul_assoc]
    refine mul_lt_mul_of_pos_right (lt_of_le_of_lt ?_ hgrowth) hone
    exact mul_le_mul_of_nonneg_left (by linarith) hcount
  obtain ⟨hlow, hhigh⟩ := abs_lt.mp (h.trans_lt hsmall)
  have hfloor : (2 * double.units x + double.one) / (2 * double.one) = m := by
    refine Nat.div_eq_of_lt_le ?_ ?_
    · have hle : (m : ℚ) * (2 * double.one) ≤ 2 * double.units x + double.one := by linarith
      exact_mod_cast hle
    · have hlt : 2 * (double.units x : ℚ) + double.one < (m + 1) * (2 * double.one) := by linarith
      exact_mod_cast hlt
  unfold toIntegral
  rw [hfloor]

/-- Many digits come out as if they had been rounded a few times more. -/
theorem within_toIntegral {x : Nat} (hm : 2 ^ 50 ≤ m) (hlt : m < 2 ^ 96)
    (h : double.Within 4 (double.units x) (m * double.one)) :
    double.Within 10 (double.units (double.toIntegral x)) (m * double.one) := by
  have hone := one_double_pos
  have hleast : (2 ^ 50 * double.one : ℚ) ≤ m * double.one :=
    mul_le_mul_of_nonneg_right (by exact_mod_cast hm) hone.le
  have hmost : (m * double.one : ℚ) ≤ 2 ^ 96 * double.one :=
    mul_le_mul_of_nonneg_right (by exact_mod_cast hlt.le) hone.le
  obtain ⟨hlow, hhigh⟩ := within_bounds h (by decide) (by positivity)
  have hhalf := abs_integral_sub_le (double.units x)
  unfold toIntegral
  generalize (2 * double.units x + double.one) / (2 * double.one) = k at hhalf ⊢
  have hinteger : double.Within 5 (k * double.one) (double.units x) := by
    have hgrowth : 5 / 2 ^ 53 ≤ (1 + double.relativeError) ^ 5 - 1 := by
      rw [relativeError_double]
      norm_num
    have hexact : (1 - 5 / 2 ^ 53) * (m * double.one : ℚ) ≤ double.units x := by
      have herror : (1 + double.relativeError) ^ 4 - 1 ≤ 5 / 2 ^ 53 := by
        rw [relativeError_double]
        norm_num
      have hsmall := mul_le_mul_of_nonneg_right herror (show (0 : ℚ) ≤ m * double.one by positivity)
      have hdifference := (abs_le.mp h).1
      linarith
    calc |(k : ℚ) * double.one - double.units x| ≤ double.one / 2 := hhalf
      _ ≤ 5 / 2 ^ 53 * double.units x := by linarith
      _ ≤ ((1 + double.relativeError) ^ 5 - 1) * double.units x :=
        mul_le_mul_of_nonneg_right hgrowth (Nat.cast_nonneg _)
  have hbits : k ≤ 2 ^ 100 := by
    have hbound : (k : ℚ) * double.one ≤ 2 ^ 100 * double.one := by
      have hdifference := (abs_le.mp hhalf).2
      linarith
    exact_mod_cast le_of_mul_le_mul_right hbound hone
  have hplaces := h.trans hinteger
  exact hplaces.step (within_ofNatural hbits)

/-! ## Conversions -/

/-- A decimal that is no whole number is converted by way of its digits. -/
theorem doubleMagnitude_eq (hp : IsDivisor (10 ^ scale)) (hm : m < 2 ^ 96) (hfraction : m % 10 ^ scale ≠ 0) :
    ∃ x, double.Within 4 (double.units x) (m * double.one)
      ∧ doubleMagnitude m scale = double.div (double.toIntegral x) (double.ofNatural (10 ^ scale)) := by
  refine ⟨_, hp.within_product hm hfraction, ?_⟩
  unfold doubleMagnitude
  simp only
  refine if_neg ?_
  intro hzero
  have hpart := hp.within_fraction (Nat.pos_of_ne_zero hfraction) (Nat.mod_lt m hp.pos)
  have hpos := hp.bounds (Nat.pos_of_ne_zero hfraction)
  have hbinade : (0 : ℚ) < double.binade := by exact_mod_cast double.binade_pos
  obtain ⟨hlow, _⟩ := within_bounds hpart (by decide) (by linarith)
  rw [hzero, units_zero, Nat.cast_zero] at hlow
  linarith

/-- A decimal of few digits that is no whole number: its digits are rounded once, by the division. -/
theorem doubleMagnitude_of_lt (hm : m < 2 ^ 50) (h : scale ≤ 22) (hfraction : m % 10 ^ scale ≠ 0) :
    doubleMagnitude m scale = double.ofRatio m (10 ^ scale) := by
  have hp := isDivisor_ten_pow h
  obtain ⟨x, hx, hmagnitude⟩ := doubleMagnitude_eq hp (hm.trans (by decide)) hfraction
  have hdigits : double.units (double.ofNatural m) = m * double.one := by
    have hbits : m < 2 * double.binade := hm.trans (by decide)
    have hunits := units_ofNatural (f := double) (e := 0) hbits (binade_double_le (by decide))
    rwa [Nat.pow_zero, Nat.mul_one] at hunits
  rw [hmagnitude, toIntegral_of_lt hm hx]
  unfold FloatFormat.div ofRatio
  rw [hdigits, hp.units]
  refine round_congr (Nat.mul_pos hp.pos (one_pos _)) hp.pos ?_
  ring

/-- Whole numbers and decimals of few digits are converted to the nearest double. -/
theorem doubleMagnitude_eq_ofRatio (h : 10 ^ scale ∣ m ∨ m < 2 ^ 50 ∧ scale ≤ 22) :
    doubleMagnitude m scale = double.ofRatio m (10 ^ scale) := by
  by_cases hwhole : 10 ^ scale ∣ m
  · exact doubleMagnitude_of_dvd hwhole
  · obtain ⟨hdigits, hscale⟩ := h.resolve_left hwhole
    exact doubleMagnitude_of_lt hdigits hscale fun hzero => hwhole (Nat.dvd_of_mod_eq_zero hzero)

theorem toDouble_eq_nearestDouble {d : Decimal}
    (h : 10 ^ d.scale ∣ d.coefficient ∨ d.coefficient < 2 ^ 50 ∧ d.scale ≤ 22) : d.toDouble = d.nearestDouble := by
  have hmagnitude := doubleMagnitude_eq_ofRatio h
  unfold toDouble nearestDouble Binary.ofRatio
  congr

/-! ## All decimals -/

/-- The double nearest to a decimal is off by one rounding. -/
theorem within_ofRatio (hm : m < 2 ^ 96) {p : Nat} (hp : IsDivisor p) :
    double.Within 1 (double.units (double.ofRatio m p)) (m * double.one / p) := by
  rcases Nat.eq_zero_or_pos m with rfl | hnonzero
  · have hzero : double.ofRatio 0 p = 0 := by
      unfold ofRatio
      rw [Nat.zero_mul, round_zero]
    rw [hzero, units_zero, Nat.cast_zero, zero_mul, zero_div]
    exact (Within.refl _ _).mono (Nat.zero_le 1) le_rfl
  · have hone := one_double_pos
    have hlow := hp.bounds hnonzero
    have hhigh := hp.div_le hm
    have hbinade : (0 : ℚ) ≤ double.binade := Nat.cast_nonneg _
    exact within_ratio hp.pos (by linarith) (by linarith)

/-- A decimal is converted to a double that is off by eleven roundings at most, if its power of ten is a double. -/
theorem within_doubleMagnitude (hm : m < 2 ^ 96) (h : scale ≤ 22) :
    double.Within 11 (double.units (doubleMagnitude m scale)) (m * double.one / (10 ^ scale : Nat)) := by
  have hp := isDivisor_ten_pow h
  have hpos : (0 : ℚ) < (10 ^ scale : Nat) := by exact_mod_cast hp.pos
  have hone := one_double_pos
  by_cases hfew : 10 ^ scale ∣ m ∨ m < 2 ^ 50
  · rw [doubleMagnitude_eq_ofRatio (hfew.imp_right fun hdigits => ⟨hdigits, h⟩)]
    exact (within_ofRatio hm hp).mono (by decide) (by positivity)
  · obtain ⟨hfraction, hmany⟩ := not_or.mp hfew
    obtain ⟨x, hx, hmagnitude⟩ := doubleMagnitude_eq hp hm fun hzero => hfraction (Nat.dvd_of_mod_eq_zero hzero)
    have hnonzero : 0 < m := (Nat.two_pow_pos 50).trans_le (Nat.not_lt.mp hmany)
    have hdigits := (within_toIntegral (Nat.not_lt.mp hmany) hm hx).div_right hpos.le
    have hlow := hp.bounds hnonzero
    have hhigh := hp.div_le hm
    have hbinade : (0 : ℚ) ≤ double.binade := Nat.cast_nonneg _
    obtain ⟨hleast, hmost⟩ := within_bounds hdigits (by decide) (by linarith)
    rw [hmagnitude]
    exact hdigits.step (hp.within_div (by linarith) (by linarith))

/-- No decimal comes near the end of the doubles. -/
theorem doubleMagnitude_lt_infinity (hm : m < 2 ^ 96) (h : scale ≤ 22) :
    doubleMagnitude m scale < double.infinity := by
  have hone := one_double_pos
  have hmost := (isDivisor_ten_pow h).div_le hm
  obtain ⟨_, hhigh⟩ := within_bounds (within_doubleMagnitude hm h) (by decide) (by positivity)
  refine lt_of_le_of_ne (doubleMagnitude_le_infinity m scale) fun heq => ?_
  have hlarge := lt_units_infinity
  rw [heq] at hhigh
  generalize double.units double.infinity = u at hlarge hhigh
  have hlarge : (2 ^ 97 * double.one : ℚ) < u := by exact_mod_cast hlarge
  linarith

end Columnar.Decimal
