import Columnar.Proofs.Binary.Error
import Columnar.Proofs.Binary.Number

/-!
# `Proofs.Binary.Nearest` — a rounded number is the nearest float

In the spacing where a quotient lies it is rounded to the nearest multiple. Every other float is either such a
multiple too or lies below the whole range of that spacing, where no float is as close as the lowest of the range. So
no float is closer to the quotient than the one it is rounded to, and of two that are as close it is the even one.

## Contents
- `nearestEven_closest`, `nearestEven_even`: the nearest integers.
- `units_eq_mul_or_lt`: floats in the spacing of a quotient, and floats below it.
- `round_closest`: the nearest magnitude.
- `Binary.IsNearest`, `isNearest_of_closest`, `ofRatio_isNearest`: the nearest float, ties to even.
-/

namespace Columnar

-- powers of numbers are those of core, whatever else is in scope
attribute [local instance (high)] instPowNat

namespace FloatFormat

variable {f : FloatFormat} {num den : Nat}

/-! ## Integers -/

/-- Every integer but the nearest is off by a half at least. -/
theorem half_le_abs_sub (hden : 0 < den) {j : Nat} (hj : j ≠ nearestEven num den) :
    1 / 2 ≤ |(j : ℚ) - num / den| := by
  have hnearest := abs_nearestEven_sub_le hden num
  have happart : (1 : ℚ) ≤ |(j : ℚ) - nearestEven num den| := by
    have hne : (j : Int) - nearestEven num den ≠ 0 := by omega
    exact_mod_cast Int.one_le_abs hne
  have htriangle := abs_sub_le (j : ℚ) (num / den) (nearestEven num den)
  rw [abs_sub_comm (num / den : ℚ)] at htriangle
  linarith

/-- A nearest integer that is off by just a half is even. -/
theorem nearestEven_even (hden : 0 < den) (h : 1 / 2 ≤ |(nearestEven num den : ℚ) - num / den|) :
    nearestEven num den % 2 = 0 := by
  have hpos : (0 : ℚ) < den := by exact_mod_cast hden
  have hdivision : (num : ℚ) / den = (num / den : Nat) + ((num % den : Nat) : ℚ) / den := by
    rw [div_eq_iff hpos.ne', add_mul, div_mul_cancel₀ _ hpos.ne']
    exact_mod_cast (Nat.div_add_mod' num den).symm
  have hremainder : (0 : ℚ) ≤ ((num % den : Nat) : ℚ) / den := by positivity
  have hless : ((num % den : Nat) : ℚ) / den < 1 := by
    rw [div_lt_one hpos]
    exact_mod_cast Nat.mod_lt num hden
  rw [hdivision, nearestEven_eq] at h
  rw [nearestEven_eq]
  by_cases hup : RoundedUp num den
  · -- rounded up by a half, which is done above odd integers only
    rw [if_pos hup] at h ⊢
    have hhalf : ((num % den : Nat) : ℚ) / den ≤ 1 / 2 := by
      push_cast at h
      rw [add_sub_add_left_eq_sub, abs_of_pos (by linarith)] at h
      linarith
    rw [div_le_iff₀ hpos] at hhalf
    have hhalf : 2 * (num % den) ≤ den := by
      have hdouble : 2 * ((num % den : Nat) : ℚ) ≤ den := by linarith
      exact_mod_cast hdouble
    unfold RoundedUp at hup
    omega
  · rw [if_neg hup] at h ⊢
    have hhalf : 1 / 2 ≤ ((num % den : Nat) : ℚ) / den := by
      rw [sub_add_cancel_left, abs_neg, abs_of_nonneg hremainder] at h
      exact h
    rw [le_div_iff₀ hpos] at hhalf
    have hhalf : den ≤ 2 * (num % den) := by
      have hdouble : (den : ℚ) ≤ 2 * (num % den : Nat) := by linarith
      exact_mod_cast hdouble
    unfold RoundedUp at hup
    omega

/-- No integer is closer to a quotient than the nearest one, and of two that are as close it is the even one. -/
theorem nearestEven_closest (hden : 0 < den) (num j : Nat) :
    |(nearestEven num den : ℚ) - num / den| ≤ |(j : ℚ) - num / den|
      ∧ (|(j : ℚ) - num / den| = |(nearestEven num den : ℚ) - num / den| → j ≠ nearestEven num den →
        nearestEven num den % 2 = 0) := by
  by_cases hj : j = nearestEven num den
  · exact ⟨by rw [hj], fun _ hne => absurd hj hne⟩
  · have hhalf := half_le_abs_sub hden hj
    exact ⟨(abs_nearestEven_sub_le hden num).trans hhalf, fun htie _ => nearestEven_even hden (htie ▸ hhalf)⟩

/-! ## Magnitudes -/

/-- The units of a magnitude are a multiple of a spacing, or too few for all bits of a significand in that spacing. -/
theorem units_eq_mul_or_lt (d m : Nat) :
    (∃ j, f.units m = j * 2 ^ d) ∨ (0 < d ∧ f.units m < f.binade * 2 ^ d) := by
  rcases Nat.lt_or_ge (f.doublings m) d with hlt | hle
  · right
    refine ⟨by omega, ?_⟩
    calc f.units m < 2 * f.binade * 2 ^ f.doublings m :=
          Nat.mul_lt_mul_of_pos_right (f.significand_lt m) (Nat.two_pow_pos _)
      _ = f.binade * 2 ^ (f.doublings m + 1) := by ring
      _ ≤ f.binade * 2 ^ d := Nat.mul_le_mul_left _ (Nat.pow_le_pow_right (by decide) hlt)
  · left
    obtain ⟨e, he⟩ := Nat.exists_eq_add_of_le' hle
    refine ⟨f.significand m * 2 ^ e, ?_⟩
    rw [units_eq, he, Nat.pow_add, Nat.mul_assoc]

/-- The binades of a format are of even size, so the parity of a magnitude is that of its significand. -/
theorem mul_binade_add_mod_two (d k : Nat) : (d * f.binade + k) % 2 = k % 2 := by
  have heven : f.binade % 2 = 0 := by cases f <;> decide
  rw [Nat.add_mod, Nat.mul_mod, heven]
  omega

/-- No magnitude is closer to a quotient than the one it is rounded to, and of two that are as close it is the even
one. -/
theorem round_closest (hden : 0 < den) (hfinite : f.round num den < f.infinity) (m : Nat) :
    |(f.units (f.round num den) : ℚ) - num / den| ≤ |(f.units m : ℚ) - num / den|
      ∧ (|(f.units m : ℚ) - num / den| = |(f.units (f.round num den) : ℚ) - num / den| →
        f.units m ≠ f.units (f.round num den) → f.round num den % 2 = 0) := by
  have hbelow : 0 < f.quotientDoublings num den →
      f.binade * (den * 2 ^ f.quotientDoublings num den) ≤ num := binade_mul_le hden
  have hunits := units_round hden hfinite
  have hparity := (f.mul_binade_add_mod_two (f.quotientDoublings num den)
    (nearestEven num (den * 2 ^ f.quotientDoublings num den)))
  rw [← round_of_lt_infinity hfinite] at hparity
  rw [hunits, hparity]
  generalize f.quotientDoublings num den = d at hbelow ⊢
  have hpos : (0 : ℚ) < den := by exact_mod_cast hden
  have hpow : (0 : ℚ) < (2 ^ d : Nat) := by exact_mod_cast Nat.two_pow_pos d
  have hscaled : 0 < den * 2 ^ d := Nat.mul_pos hden (Nat.two_pow_pos d)
  -- distances in the spacing are distances of integers
  have hdistance : ∀ j : Nat, |((j * 2 ^ d : Nat) : ℚ) - num / den|
      = |(j : ℚ) - num / (den * 2 ^ d : Nat)| * (2 ^ d : Nat) := by
    intro j
    have hfactor : ((j * 2 ^ d : Nat) : ℚ) - num / den = ((j : ℚ) - num / (den * 2 ^ d : Nat)) * (2 ^ d : Nat) := by
      rw [sub_mul, Nat.cast_mul, Nat.cast_mul, div_mul_eq_mul_div, mul_div_mul_right _ _ hpow.ne']
    rw [hfactor, abs_mul, abs_of_pos hpow]
  rcases f.units_eq_mul_or_lt d m with ⟨j, hj⟩ | ⟨hd, hlt⟩
  · obtain ⟨hclosest, heven⟩ := nearestEven_closest hscaled num j
    rw [hj, hdistance, hdistance]
    refine ⟨mul_le_mul_of_nonneg_right hclosest hpow.le, fun htie hne => heven ?_ ?_⟩
    · exact mul_right_cancel₀ hpow.ne' htie
    · rintro rfl
      exact hne rfl
  · -- the lowest number of the spacing is closer than all below it
    have hlowest : ((f.binade * 2 ^ d : Nat) : ℚ) ≤ num / den := by
      rw [le_div_iff₀ hpos]
      have hle : f.binade * 2 ^ d * den ≤ num := by
        rw [Nat.mul_assoc, Nat.mul_comm (2 ^ d)]
        exact hbelow hd
      exact_mod_cast hle
    have hlt : (f.units m : ℚ) < (f.binade * 2 ^ d : Nat) := by exact_mod_cast hlt
    have hclosest : |((nearestEven num (den * 2 ^ d) * 2 ^ d : Nat) : ℚ) - num / den|
        ≤ |((f.binade * 2 ^ d : Nat) : ℚ) - num / den| := by
      rw [hdistance, hdistance]
      exact mul_le_mul_of_nonneg_right (nearestEven_closest hscaled num f.binade).1 hpow.le
    rw [abs_of_nonpos (by linarith : ((f.binade * 2 ^ d : Nat) : ℚ) - num / den ≤ 0)] at hclosest
    have hfarther : |((nearestEven num (den * 2 ^ d) * 2 ^ d : Nat) : ℚ) - num / den|
        < |(f.units m : ℚ) - num / den| := by
      rw [abs_of_neg (by linarith : (f.units m : ℚ) - num / den < 0)]
      linarith
    exact ⟨hfarther.le, fun htie _ => absurd htie hfarther.ne'⟩

end FloatFormat

/-! ## Floats -/

namespace Binary

variable {f : FloatFormat}

/-- No float is closer to a number, and of two that are as close it is the even one. -/
structure IsNearest (x : Binary f) (q : ℚ) : Prop where
  isFinite : x.isFinite = true
  closest : ∀ y : Binary f, y.isFinite = true → |x.toRat - q| ≤ |y.toRat - q|
  even : ∀ y : Binary f, y.isFinite = true → |y.toRat - q| = |x.toRat - q| → y.toRat ≠ x.toRat →
    x.magnitude % 2 = 0

theorem abs_signed {q : ℚ} (negative : Bool) (hq : 0 ≤ q) : |if negative then -q else q| = q := by
  cases negative with
  | true => rw [if_pos rfl, abs_neg, abs_of_nonneg hq]
  | false => rw [if_neg Bool.false_ne_true, abs_of_nonneg hq]

theorem abs_toRat (x : Binary f) : |x.toRat| = (f.units x.magnitude : ℚ) / f.one := by
  rw [toRat_eq]
  exact abs_signed x.negative (by positivity)

/-- Behind the same sign a float is as far from a number as without signs. -/
theorem abs_toRat_sub (x : Binary f) (q : ℚ) :
    |x.toRat - (if x.negative then -q else q)| = |(f.units x.magnitude : ℚ) / f.one - q| := by
  rw [toRat_eq]
  cases x.negative with
  | true => rw [if_pos rfl, if_pos rfl, neg_sub_neg, abs_sub_comm]
  | false => rw [if_neg Bool.false_ne_true, if_neg Bool.false_ne_true]

/-- The opposite of a closest float is farther: both are as far from zero only, and zero is a float. -/
theorem abs_sub_ne_of_units_eq {x y : Binary f} {q : ℚ} (hclosest : ∀ z : Binary f, |x.toRat - q| ≤ |z.toRat - q|)
    (hunits : f.units y.magnitude = f.units x.magnitude) (hne : y.toRat ≠ x.toRat) :
    |y.toRat - q| ≠ |x.toRat - q| := by
  intro htie
  have habs : |y.toRat| = |x.toRat| := by rw [abs_toRat, abs_toRat, hunits]
  have hopposite : y.toRat = -x.toRat := (abs_eq_abs.mp habs).resolve_left hne
  rcases abs_eq_abs.mp htie with heq | heq
  · exact hne (sub_left_inj.mp heq)
  · -- the number that both are as far from is zero
    have hq : q = 0 := by linarith
    have hzero := hclosest ⟨false, 0, Nat.two_pow_pos _⟩
    rw [hq, sub_zero, sub_zero, abs_toRat ⟨false, 0, _⟩] at hzero
    have hx : x.toRat = 0 := by
      have hnone : (f.units 0 : ℚ) / f.one = 0 := by
        rw [f.units_zero, Nat.cast_zero, zero_div]
      exact abs_eq_zero.mp (le_antisymm (hzero.trans hnone.le) (abs_nonneg _))
    rw [hopposite, hx, neg_zero] at hne
    exact hne rfl

/-- With signs a float is as far from a number at least as without signs. -/
theorem abs_abs_toRat_sub_le (x : Binary f) {q : ℚ} (negative : Bool) (hq : 0 ≤ q) :
    |(f.units x.magnitude : ℚ) / f.one - q| ≤ |x.toRat - (if negative then -q else q)| := by
  have hle := abs_abs_sub_abs_le x.toRat (if negative then -q else q)
  rwa [abs_signed negative hq, abs_toRat] at hle

/-- A float of the nearest magnitude is the nearest float, behind the same sign. -/
theorem isNearest_of_closest {x : Binary f} {q : ℚ} (hq : 0 ≤ q) (hfinite : x.isFinite = true)
    (hclosest : ∀ m, |(f.units x.magnitude : ℚ) / f.one - q| ≤ |(f.units m : ℚ) / f.one - q|)
    (heven : ∀ m, |(f.units m : ℚ) / f.one - q| = |(f.units x.magnitude : ℚ) / f.one - q| →
      f.units m ≠ f.units x.magnitude → x.magnitude % 2 = 0) :
    x.IsNearest (if x.negative then -q else q) := by
  have hall : ∀ y : Binary f,
      |x.toRat - (if x.negative then -q else q)| ≤ |y.toRat - (if x.negative then -q else q)| := by
    intro y
    rw [abs_toRat_sub]
    exact (hclosest _).trans (y.abs_abs_toRat_sub_le x.negative hq)
  refine ⟨hfinite, fun y _ => hall y, fun y _ htie hne => ?_⟩
  by_cases hunits : f.units y.magnitude = f.units x.magnitude
  · exact absurd htie (abs_sub_ne_of_units_eq hall hunits hne)
  · have hother := y.abs_abs_toRat_sub_le x.negative hq
    rw [htie, abs_toRat_sub] at hother
    exact heven y.magnitude (le_antisymm hother (hclosest _)) hunits

/-- A rounded quotient is the nearest float, behind the sign of the quotient. -/
theorem ofRatio_isNearest {num den : Nat} (negative : Bool) (hden : 0 < den)
    (hfinite : f.ofRatio num den < f.infinity) :
    (ofRatio f negative num den).IsNearest (if negative then -((num : ℚ) / den) else (num : ℚ) / den) := by
  have hone : (0 : ℚ) < f.one := by exact_mod_cast Nat.two_pow_pos f.unitExponent
  have hclosest := f.round_closest hden hfinite
  -- a distance of numbers is one of units, divided
  have hdistance : ∀ m : Nat, |(f.units m : ℚ) / f.one - num / den|
      = |(f.units m : ℚ) - (num * f.one : Nat) / den| / f.one := by
    intro m
    have hfactor : (f.units m : ℚ) / f.one - num / den = ((f.units m : ℚ) - (num * f.one : Nat) / den) / f.one := by
      rw [sub_div, Nat.cast_mul, div_right_comm, mul_div_cancel_right₀ _ hone.ne']
    rw [hfactor, abs_div, abs_of_pos hone]
  refine isNearest_of_closest (by positivity) (decide_eq_true hfinite) (fun m => ?_) (fun m htie hne => ?_)
  · rw [hdistance, hdistance]
    exact div_le_div_of_nonneg_right (hclosest m).1 hone.le
  · rw [hdistance, hdistance, div_left_inj' hone.ne'] at htie
    exact (hclosest m).2 htie hne

end Binary

end Columnar
