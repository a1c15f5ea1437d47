import Columnar.Proofs.Binary.Rounding
import Mathlib.Tactic.FieldSimp
import Mathlib.Tactic.Linarith

/-!
# `Proofs.Binary.Error` — how far rounding goes

A quotient is rounded by half a spacing at most. Where the spacing has doubled, and wherever else a quotient has all
the bits of a significand, half a spacing is a small part of the quotient itself. Steps in a row that are each off by
so small a part are off by no more than the product of the parts, so it is enough to count them.

## Contents
- `units_add`, `units_round`: the units of a significand with its doublings, and of a rounded quotient.
- `abs_nearestEven_sub_le`, `abs_units_round_sub_le`: the error, absolute and as a part of the quotient.
- `units_ofNatural`: numbers that need no rounding.
- `round_lt_infinity`: what is far from infinity is not rounded to it.
- `Within`: as far off as so many roundings can be, with the rules to count them.
- `within_round`, `within_add`, `within_mul`, `within_div`: one rounding each.
-/

namespace Columnar

-- powers of numbers are those of core, whatever else is in scope
attribute [local instance (high)] instPowNat

namespace FloatFormat

variable {f : FloatFormat} {num den : Nat}

/-- A significand that has all its bits where it is doubled comes to its doubled value, also at the end of the
spacing. -/
theorem units_add {d k : Nat} (hk : k ≤ 2 * f.binade) (hd : 0 < d → f.binade ≤ k) :
    f.units (d * f.binade + k) = k * 2 ^ d := by
  have hpos := f.binade_pos
  have hunits : ∀ e, f.doublings (d * f.binade + k) = e →
      f.units (d * f.binade + k) = (d * f.binade + k - e * f.binade) * 2 ^ e := by
    rintro e rfl
    rfl
  have hdiv : (d * f.binade + k) / f.binade = d + k / f.binade := by
    rw [Nat.add_comm, Nat.add_mul_div_right _ _ hpos, Nat.add_comm]
  rcases Nat.lt_or_eq_of_le hk with hlt | rfl
  · have hdoublings : f.doublings (d * f.binade + k) = d := by
      unfold doublings
      rw [hdiv]
      rcases Nat.lt_or_ge k f.binade with hlow | hhigh
      · have hnone : d = 0 := by
          by_contra hne
          exact absurd (hd (Nat.pos_of_ne_zero hne)) (Nat.not_le.mpr hlow)
        rw [Nat.div_eq_of_lt hlow, hnone]
      · rw [Nat.div_eq_of_lt_le (show 1 * f.binade ≤ k by omega) (show k < (1 + 1) * f.binade by omega)]
        omega
    rw [hunits d hdoublings, Nat.add_sub_cancel_left]
  · have hdoublings : f.doublings (d * f.binade + 2 * f.binade) = d + 1 := by
      unfold doublings
      rw [hdiv, Nat.mul_div_cancel _ hpos]
      omega
    have hrest : d * f.binade + 2 * f.binade - (d + 1) * f.binade = f.binade := by
      rw [← Nat.add_mul, ← Nat.sub_mul]
      have hone : d + 2 - (d + 1) = 1 := by omega
      rw [hone, Nat.one_mul]
    rw [hunits (d + 1) hdoublings, hrest, Nat.pow_succ]
    ring

/-- A quotient that is rounded to a finite magnitude, with that magnitude and its units in the spacing of the
quotient. -/
theorem round_of_lt_infinity (hfinite : f.round num den < f.infinity) :
    f.round num den = f.quotientDoublings num den * f.binade
      + nearestEven num (den * 2 ^ f.quotientDoublings num den) := by
  rw [round_eq] at hfinite ⊢
  omega

theorem units_round (hden : 0 < den) (hfinite : f.round num den < f.infinity) :
    f.units (f.round num den)
      = nearestEven num (den * 2 ^ f.quotientDoublings num den) * 2 ^ f.quotientDoublings num den := by
  have hscaled : 0 < den * 2 ^ f.quotientDoublings num den := Nat.mul_pos hden (Nat.two_pow_pos _)
  rw [round_of_lt_infinity hfinite]
  refine units_add ?_ fun hd => ?_
  · rw [← nearestEven_mul hscaled (2 * f.binade)]
    exact nearestEven_mono hscaled hscaled (Nat.mul_le_mul_right _ (lt_two_mul_binade hden).le)
  · rw [← nearestEven_mul hscaled f.binade]
    exact nearestEven_mono hscaled hscaled (Nat.mul_le_mul_right _ (binade_mul_le hden hd))

/-- The nearest integer is off by a half at most. -/
theorem abs_nearestEven_sub_le (hden : 0 < den) (num : Nat) : |(nearestEven num den : ℚ) - num / den| ≤ 1 / 2 := by
  have hpos : (0 : ℚ) < den := by exact_mod_cast hden
  have hquotient : (num : ℚ) / den = (num / den : Nat) + ((num % den : Nat) : ℚ) / den := by
    have hdivision : (num : ℚ) = den * (num / den : Nat) + (num % den : Nat) := by
      exact_mod_cast (Nat.div_add_mod num den).symm
    rw [div_eq_iff hpos.ne', add_mul, div_mul_cancel₀ _ hpos.ne', mul_comm _ (den : ℚ)]
    exact hdivision
  rw [hquotient, nearestEven_eq, abs_le]
  by_cases hup : RoundedUp num den
  · have hhalf : (den : ℚ) ≤ 2 * (num % den : Nat) := by
      unfold RoundedUp at hup
      exact_mod_cast (show den ≤ 2 * (num % den) by omega)
    have hlow : 1 / 2 ≤ ((num % den : Nat) : ℚ) / den := by
      rw [le_div_iff₀ hpos]
      linarith
    have hhigh : ((num % den : Nat) : ℚ) / den < 1 := by
      rw [div_lt_one hpos]
      exact_mod_cast Nat.mod_lt num hden
    rw [if_pos hup]
    push_cast
    constructor <;> linarith
  · have hhalf : 2 * ((num % den : Nat) : ℚ) ≤ den := by
      unfold RoundedUp at hup
      exact_mod_cast (show 2 * (num % den) ≤ den by omega)
    have hhigh : ((num % den : Nat) : ℚ) / den ≤ 1 / 2 := by
      rw [div_le_iff₀ hpos]
      linarith
    have hlow : 0 ≤ ((num % den : Nat) : ℚ) / den := by positivity
    rw [if_neg hup]
    constructor <;> linarith

/-- Half a spacing, as a part of any number that has all the bits of a significand. -/
def relativeError (f : FloatFormat) : ℚ := 1 / (2 * f.binade)

/-- A quotient that has all the bits of a significand, and is not rounded to infinity, is off by a small part of
itself at most. -/
theorem abs_units_round_sub_le (hden : 0 < den) (hbits : f.binade * den ≤ num)
    (hfinite : f.round num den < f.infinity) :
    |(f.units (f.round num den) : ℚ) - num / den| ≤ f.relativeError * (num / den) := by
  have hpos : (0 : ℚ) < den := by exact_mod_cast hden
  have hbinade : (0 : ℚ) < f.binade := by exact_mod_cast f.binade_pos
  -- the quotient has all the bits of a significand in the spacing where it lies
  have hspacing : f.binade * (den * 2 ^ f.quotientDoublings num den) ≤ num := by
    rcases Nat.eq_zero_or_pos (f.quotientDoublings num den) with hzero | hd
    · rw [hzero, Nat.pow_zero, Nat.mul_one]
      exact hbits
    · exact binade_mul_le hden hd
  rw [units_round hden hfinite]
  generalize f.quotientDoublings num den = d at hspacing ⊢
  have hpow : (0 : ℚ) < (2 ^ d : Nat) := by exact_mod_cast Nat.two_pow_pos d
  have hnearest := abs_nearestEven_sub_le (Nat.mul_pos hden (Nat.two_pow_pos d)) num
  have hspacing : (f.binade : ℚ) * (2 ^ d : Nat) ≤ num / den := by
    rw [le_div_iff₀ hpos]
    calc (f.binade : ℚ) * (2 ^ d : Nat) * den = ((f.binade * (den * 2 ^ d) : Nat) : ℚ) := by
          push_cast
          ring
      _ ≤ num := by exact_mod_cast hspacing
  have hfactor : ((nearestEven num (den * 2 ^ d) * 2 ^ d : Nat) : ℚ) - num / den
      = ((nearestEven num (den * 2 ^ d) : ℚ) - num / (den * 2 ^ d : Nat)) * (2 ^ d : Nat) := by
    push_cast at hpow ⊢
    field_simp
  rw [hfactor, abs_mul, abs_of_pos hpow]
  calc |(nearestEven num (den * 2 ^ d) : ℚ) - num / (den * 2 ^ d : Nat)| * (2 ^ d : Nat)
      ≤ 1 / 2 * (2 ^ d : Nat) := mul_le_mul_of_nonneg_right hnearest hpow.le
    _ = f.relativeError * (f.binade * (2 ^ d : Nat)) := by
      unfold relativeError
      field_simp
    _ ≤ f.relativeError * (num / den) := by
      refine mul_le_mul_of_nonneg_left hspacing ?_
      unfold relativeError
      positivity

/-- A number with no more bits than a significand, doubled, needs no rounding. -/
theorem units_ofNatural {k e : Nat} (hk : k < 2 * f.binade) (he : (e + f.unitExponent + 2) * f.binade ≤ f.infinity) :
    f.units (f.ofNatural (k * 2 ^ e)) = k * 2 ^ e * f.one := by
  obtain ⟨m, hm, hunits⟩ := exists_units_eq (f := f) (e + f.unitExponent) hk
  have hnumber : k * 2 ^ e * f.one = f.units m := by
    rw [hunits, Nat.pow_add]
    exact Nat.mul_assoc _ _ _
  have hround : f.ofNatural (k * 2 ^ e) = m := by
    show f.round (k * 2 ^ e * f.one) 1 = m
    rw [hnumber, ← Nat.mul_one (f.units m)]
    exact round_units (hm.le.trans he) Nat.one_pos
  rw [hround, hnumber]

/-- What is at most a power of two that has a magnitude is not rounded to infinity. -/
theorem round_lt_infinity {e : Nat} (hden : 0 < den) (h : num ≤ 2 ^ e * den) (he : (e + 2) * f.binade ≤ f.infinity) :
    f.round num den < f.infinity := by
  obtain ⟨m, hm, hunits⟩ := exists_units_eq (f := f) e (k := 1) (by have := f.binade_pos; omega)
  have hround := round_units (f := f) (m := m) (hm.le.trans he) Nat.one_pos
  refine lt_of_le_of_lt ?_ (hm.trans_le he)
  calc f.round num den ≤ f.round (f.units m * 1) 1 := round_mono hden Nat.one_pos (by
        rw [hunits, Nat.mul_one, Nat.mul_one, Nat.one_mul]
        exact h)
    _ = m := hround

/-! ## Roundings in a row -/

theorem relativeError_pos (f : FloatFormat) : 0 < f.relativeError := by
  have hbinade : (0 : ℚ) < f.binade := by exact_mod_cast f.binade_pos
  unfold relativeError
  positivity

/-- A number is no farther from another than so many roundings, one after the other, can take it. -/
def Within (f : FloatFormat) (k : Nat) (x y : ℚ) : Prop := |x - y| ≤ ((1 + f.relativeError) ^ k - 1) * y

namespace Within

variable {k l : Nat} {w x y z c : ℚ}

theorem growth_nonneg (f : FloatFormat) (k : Nat) : 0 ≤ (1 + f.relativeError) ^ k - 1 := by
  have hone : 1 ≤ (1 + f.relativeError) ^ k := one_le_pow₀ (by linarith [f.relativeError_pos])
  linarith

theorem refl (f : FloatFormat) (x : ℚ) : f.Within 0 x x := by
  unfold Within
  simp

theorem le (h : f.Within k x y) : x ≤ (1 + f.relativeError) ^ k * y := by
  have hdifference := (abs_le.mp h).2
  linarith

theorem mono (h : f.Within k x y) (hkl : k ≤ l) (hy : 0 ≤ y) : f.Within l x y := by
  have hgrowth : (1 + f.relativeError) ^ k ≤ (1 + f.relativeError) ^ l :=
    pow_le_pow_right₀ (by linarith [f.relativeError_pos]) hkl
  exact h.trans (mul_le_mul_of_nonneg_right (by linarith) hy)

/-- Roundings in a row are counted together. -/
theorem trans (h : f.Within k x y) (h' : f.Within l z x) : f.Within (k + l) z y := by
  have hx := h.le
  have hgrowth := growth_nonneg f l
  calc |z - y| ≤ |z - x| + |x - y| := abs_sub_le z x y
    _ ≤ ((1 + f.relativeError) ^ l - 1) * x + ((1 + f.relativeError) ^ k - 1) * y := add_le_add h' h
    _ ≤ ((1 + f.relativeError) ^ l - 1) * ((1 + f.relativeError) ^ k * y)
        + ((1 + f.relativeError) ^ k - 1) * y := by gcongr
    _ = ((1 + f.relativeError) ^ (k + l) - 1) * y := by ring

theorem step (h : f.Within k x y) (h' : f.Within 1 z x) : f.Within (k + 1) z y := h.trans h'

theorem add (h : f.Within k x y) (h' : f.Within k w z) : f.Within k (x + w) (y + z) := by
  calc |x + w - (y + z)| = |(x - y) + (w - z)| := by rw [add_sub_add_comm]
    _ ≤ |x - y| + |w - z| := abs_add_le _ _
    _ ≤ ((1 + f.relativeError) ^ k - 1) * y + ((1 + f.relativeError) ^ k - 1) * z := add_le_add h h'
    _ = ((1 + f.relativeError) ^ k - 1) * (y + z) := (mul_add _ _ _).symm

theorem mul_right (h : f.Within k x y) (hc : 0 ≤ c) : f.Within k (x * c) (y * c) := by
  unfold Within at *
  rw [← sub_mul, abs_mul, abs_of_nonneg hc, ← mul_assoc]
  exact mul_le_mul_of_nonneg_right h hc

theorem div_right (h : f.Within k x y) (hc : 0 ≤ c) : f.Within k (x / c) (y / c) := by
  rw [div_eq_mul_inv, div_eq_mul_inv]
  exact h.mul_right (inv_nonneg.mpr hc)

end Within

/-! ## Arithmetic -/

variable {a b e : Nat}

/-- A quotient that has all the bits of a significand, and is far from infinity, is off by one rounding. -/
theorem within_round (hden : 0 < den) (hlow : (f.binade : ℚ) ≤ num / den) (hhigh : (num : ℚ) / den ≤ 2 ^ e)
    (he : (e + 2) * f.binade ≤ f.infinity) : f.Within 1 (f.units (f.round num den)) (num / den) := by
  have hpos : (0 : ℚ) < den := by exact_mod_cast hden
  rw [le_div_iff₀ hpos] at hlow
  rw [div_le_iff₀ hpos] at hhigh
  unfold Within
  rw [pow_one, add_sub_cancel_left]
  exact abs_units_round_sub_le hden (by exact_mod_cast hlow)
    (round_lt_infinity hden (by exact_mod_cast hhigh) he)

theorem within_add (hlow : (f.binade : ℚ) ≤ f.units a + f.units b) (hhigh : (f.units a + f.units b : ℚ) ≤ 2 ^ e)
    (he : (e + 2) * f.binade ≤ f.infinity) : f.Within 1 (f.units (f.add a b)) (f.units a + f.units b) := by
  have hsum : ((f.units a + f.units b : Nat) : ℚ) / (1 : Nat) = f.units a + f.units b := by
    push_cast
    exact div_one _
  rw [← hsum] at hlow hhigh ⊢
  exact within_round Nat.one_pos hlow hhigh he

theorem within_mul (hlow : (f.binade : ℚ) ≤ f.units a * f.units b / f.one)
    (hhigh : (f.units a * f.units b / f.one : ℚ) ≤ 2 ^ e) (he : (e + 2) * f.binade ≤ f.infinity) :
    f.Within 1 (f.units (f.mul a b)) (f.units a * f.units b / f.one) := by
  have hone : 0 < f.one := Nat.two_pow_pos _
  rw [← Nat.cast_mul] at hlow hhigh ⊢
  exact within_round hone hlow hhigh he

theorem within_div (hb : 0 < f.units b) (hlow : (f.binade : ℚ) ≤ f.units a * f.one / f.units b)
    (hhigh : (f.units a * f.one / f.units b : ℚ) ≤ 2 ^ e) (he : (e + 2) * f.binade ≤ f.infinity) :
    f.Within 1 (f.units (f.div a b)) (f.units a * f.one / f.units b) := by
  rw [← Nat.cast_mul] at hlow hhigh ⊢
  exact within_round hb hlow hhigh he

end FloatFormat

end Columnar
