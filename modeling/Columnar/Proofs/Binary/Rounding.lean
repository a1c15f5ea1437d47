import Columnar.Proofs.Binary.Units
import Mathlib.Algebra.Order.Ring.Rat
import Mathlib.Data.Rat.Lemmas
import Mathlib.Tactic.Positivity

/-!
# `Proofs.Binary.Rounding` — rounding keeps the order

A quotient is rounded by doubling the spacing as often as its size demands and taking the nearest multiple. Where two
quotients are rounded with one spacing, the nearest multiples are in order because nearest integers are. Where the
greater one has a wider spacing, the smaller is rounded to the end of its own spacing at most, and there the wider
one begins.

## Contents
- `quotientDoublings`, `round_eq`: the spacing at a quotient, with its bounds.
- `nearestEven_mono`, `round_mono`, `ofRatio_mono`: nearest integers and magnitudes in order.
- `magnitudeOf`, `rankOf`, `rankOf_mono`: the place of a number among the floats, and its order.
-/

namespace Columnar

-- powers of numbers are those of core, whatever else is in scope
attribute [local instance (high)] instPowNat

namespace FloatFormat

variable {f : FloatFormat} {num den num' den' : Nat}

/-! ## The spacing at a quotient -/

/-- How often the spacing has doubled where a quotient lies. -/
def quotientDoublings (f : FloatFormat) (num den : Nat) : Nat := (num / den).log2 + 1 - f.precision

theorem round_eq (f : FloatFormat) (num den : Nat) :
    f.round num den = min (f.quotientDoublings num den * f.binade
      + nearestEven num (den * 2 ^ f.quotientDoublings num den)) f.infinity := rfl

theorem two_mul_binade (f : FloatFormat) : 2 * f.binade = 2 ^ f.precision := by
  rw [f.precision_eq, Nat.pow_succ, Nat.mul_comm]
  rfl

/-- A quotient has at most the bits of a significand, in the spacing where it lies. -/
theorem lt_two_mul_binade (hden : 0 < den) :
    num < 2 * f.binade * (den * 2 ^ f.quotientDoublings num den) := by
  have hbits : (num / den).log2 + 1 ≤ f.precision + f.quotientDoublings num den := by
    unfold quotientDoublings
    omega
  have hquotient : num / den < 2 ^ (f.precision + f.quotientDoublings num den) :=
    Nat.lt_log2_self.trans_le (Nat.pow_le_pow_right (by decide) hbits)
  calc num < 2 ^ (f.precision + f.quotientDoublings num den) * den := (Nat.div_lt_iff_lt_mul hden).mp hquotient
    _ = 2 * f.binade * (den * 2 ^ f.quotientDoublings num den) := by
      rw [two_mul_binade, Nat.pow_add]
      ring

/-- Where the spacing has doubled, a quotient has all the bits of a significand. -/
theorem binade_mul_le (hden : 0 < den) (h : 0 < f.quotientDoublings num den) :
    f.binade * (den * 2 ^ f.quotientDoublings num den) ≤ num := by
  have hbits : f.precision - 1 + f.quotientDoublings num den = (num / den).log2 := by
    have hprecision := f.precision_eq
    unfold quotientDoublings at h ⊢
    omega
  have hne : num / den ≠ 0 := by
    intro hzero
    have hprecision := f.precision_eq
    rw [hzero, Nat.log2_zero] at hbits
    omega
  have hquotient : 2 ^ (f.precision - 1 + f.quotientDoublings num den) ≤ num / den := by
    rw [hbits]
    exact Nat.log2_self_le hne
  calc f.binade * (den * 2 ^ f.quotientDoublings num den)
      = 2 ^ (f.precision - 1 + f.quotientDoublings num den) * den := by
        unfold binade
        rw [Nat.pow_add]
        ring
    _ ≤ num := (Nat.le_div_iff_mul_le hden).mp hquotient

theorem div_le_div_of_mul_le (hden : 0 < den) (hden' : 0 < den') (h : num * den' ≤ num' * den) :
    num / den ≤ num' / den' := by
  rw [Nat.le_div_iff_mul_le hden']
  have hfloor : num / den * den' * den ≤ num' * den :=
    calc num / den * den' * den = num / den * den * den' := by ring
      _ ≤ num * den' := Nat.mul_le_mul_right _ (Nat.div_mul_le_self _ _)
      _ ≤ num' * den := h
  exact Nat.le_of_mul_le_mul_right hfloor hden

theorem log2_mono {m n : Nat} (h : m ≤ n) : m.log2 ≤ n.log2 := by
  rcases Nat.eq_zero_or_pos m with rfl | hm
  · rw [Nat.log2_zero]
    exact Nat.zero_le _
  · have hn : n ≠ 0 := by omega
    exact (Nat.le_log2 hn).mpr ((Nat.log2_self_le (Nat.pos_iff_ne_zero.mp hm)).trans h)

/-- A greater quotient has no finer spacing. -/
theorem quotientDoublings_mono (hden : 0 < den) (hden' : 0 < den') (h : num * den' ≤ num' * den) :
    f.quotientDoublings num den ≤ f.quotientDoublings num' den' := by
  have hlog := log2_mono (div_le_div_of_mul_le hden hden' h)
  unfold quotientDoublings
  omega

/-! ## Nearest integers -/

/-- The quotient is rounded up exactly if its remainder is more than a half, or a half above an odd integer. -/
def RoundedUp (num den : Nat) : Prop := den < 2 * (num % den) ∨ (den = 2 * (num % den) ∧ num / den % 2 = 1)

instance (num den : Nat) : Decidable (RoundedUp num den) := inferInstanceAs (Decidable (_ ∨ _))

theorem nearestEven_eq (num den : Nat) :
    nearestEven num den = if RoundedUp num den then num / den + 1 else num / den := rfl

/-- Of two quotients over one integer, the greater is rounded up if the smaller is. -/
theorem RoundedUp.mono (hden : 0 < den) (hden' : 0 < den') (h : num * den' ≤ num' * den)
    (hdiv : num / den = num' / den') (hup : RoundedUp num den) : RoundedUp num' den' := by
  have hmod : num % den * den' ≤ num' % den' * den := by
    have hnum : num * den' = num / den * (den * den') + num % den * den' := by
      nth_rewrite 1 [← Nat.div_add_mod num den]
      ring
    have hnum' : num' * den = num / den * (den * den') + num' % den' * den := by
      nth_rewrite 1 [← Nat.div_add_mod num' den']
      rw [hdiv]
      ring
    omega
  by_contra hdown
  unfold RoundedUp at hup hdown
  -- the one remainder is no less than a half and the other no more, so both are a half
  have hhalf : den ≤ 2 * (num % den) := by omega
  have hhalf' : 2 * (num' % den') ≤ den' := by omega
  have hle : 2 * (num % den) * den' ≤ den * den' :=
    calc 2 * (num % den) * den' = 2 * (num % den * den') := Nat.mul_assoc _ _ _
      _ ≤ 2 * (num' % den' * den) := Nat.mul_le_mul_left _ hmod
      _ = 2 * (num' % den') * den := (Nat.mul_assoc _ _ _).symm
      _ ≤ den' * den := Nat.mul_le_mul_right _ hhalf'
      _ = den * den' := Nat.mul_comm _ _
  have hge : den' * den ≤ 2 * (num' % den') * den :=
    calc den' * den = den * den' := Nat.mul_comm _ _
      _ ≤ 2 * (num % den) * den' := Nat.mul_le_mul_right _ hhalf
      _ = 2 * (num % den * den') := Nat.mul_assoc _ _ _
      _ ≤ 2 * (num' % den' * den) := Nat.mul_le_mul_left _ hmod
      _ = 2 * (num' % den') * den := (Nat.mul_assoc _ _ _).symm
  have hremainder := Nat.le_of_mul_le_mul_right hle hden'
  have hremainder' := Nat.le_of_mul_le_mul_right hge hden
  rw [← hdiv] at hdown
  omega

/-- A greater quotient has no smaller nearest integer. -/
theorem nearestEven_mono (hden : 0 < den) (hden' : 0 < den') (h : num * den' ≤ num' * den) :
    nearestEven num den ≤ nearestEven num' den' := by
  have hdiv := div_le_div_of_mul_le hden hden' h
  rw [nearestEven_eq, nearestEven_eq]
  by_cases hup : RoundedUp num den
  · rcases Nat.lt_or_eq_of_le hdiv with hlt | heq
    · rw [if_pos hup]
      split <;> omega
    · rw [if_pos hup, if_pos (hup.mono hden hden' h heq), heq]
  · rw [if_neg hup]
    split <;> omega

/-! ## Magnitudes -/

/-- A greater quotient is not rounded to a smaller magnitude. -/
theorem round_mono (hden : 0 < den) (hden' : 0 < den') (h : num * den' ≤ num' * den) :
    f.round num den ≤ f.round num' den' := by
  have hdoublings : f.quotientDoublings num den ≤ f.quotientDoublings num' den' :=
    quotientDoublings_mono hden hden' h
  rw [round_eq, round_eq]
  refine min_le_min_right _ ?_
  have hpos : 0 < den * 2 ^ f.quotientDoublings num den := Nat.mul_pos hden (Nat.two_pow_pos _)
  have hpos' : 0 < den' * 2 ^ f.quotientDoublings num' den' := Nat.mul_pos hden' (Nat.two_pow_pos _)
  rcases Nat.lt_or_eq_of_le hdoublings with hlt | heq
  · -- the smaller quotient is rounded to the end of its spacing at most, where the wider one begins
    have hend : nearestEven num (den * 2 ^ f.quotientDoublings num den) ≤ 2 * f.binade := by
      rw [← nearestEven_mul hpos (2 * f.binade)]
      exact nearestEven_mono hpos hpos (Nat.mul_le_mul_right _ (lt_two_mul_binade hden).le)
    have hbegin : f.binade ≤ nearestEven num' (den' * 2 ^ f.quotientDoublings num' den') := by
      rw [← nearestEven_mul hpos' f.binade]
      exact nearestEven_mono hpos' hpos' (Nat.mul_le_mul_right _ (binade_mul_le hden' (by omega)))
    calc _ ≤ f.quotientDoublings num den * f.binade + 2 * f.binade := Nat.add_le_add_left hend _
      _ = (f.quotientDoublings num den + 1) * f.binade + f.binade := by ring
      _ ≤ f.quotientDoublings num' den' * f.binade + f.binade :=
        Nat.add_le_add_right (Nat.mul_le_mul_right _ hlt) _
      _ ≤ _ := Nat.add_le_add_left hbegin _
  · rw [← heq] at hpos' ⊢
    refine Nat.add_le_add_left (nearestEven_mono hpos hpos' ?_) _
    calc num * (den' * 2 ^ f.quotientDoublings num den) = num * den' * 2 ^ f.quotientDoublings num den :=
          (Nat.mul_assoc _ _ _).symm
      _ ≤ num' * den * 2 ^ f.quotientDoublings num den := Nat.mul_le_mul_right _ h
      _ = num' * (den * 2 ^ f.quotientDoublings num den) := Nat.mul_assoc _ _ _

/-- The magnitude depends on the quotient alone. -/
theorem round_congr (hden : 0 < den) (hden' : 0 < den') (h : num * den' = num' * den) :
    f.round num den = f.round num' den' :=
  Nat.le_antisymm (round_mono hden hden' h.le) (round_mono hden' hden h.ge)

theorem round_zero (f : FloatFormat) (den : Nat) : f.round 0 den = 0 := by
  have hdoublings : f.quotientDoublings 0 den = 0 := by
    unfold quotientDoublings
    rw [Nat.zero_div, Nat.log2_zero]
    cases f <;> rfl
  rw [round_eq, hdoublings, nearestEven_eq, if_neg]
  · simp
  · simp [RoundedUp]

/-- A greater quotient has no smaller magnitude. -/
theorem ofRatio_mono (hden : 0 < den) (hden' : 0 < den') (h : num * den' ≤ num' * den) :
    f.ofRatio num den ≤ f.ofRatio num' den' := by
  refine round_mono hden hden' ?_
  calc num * f.one * den' = num * den' * f.one := Nat.mul_right_comm _ _ _
    _ ≤ num' * den * f.one := Nat.mul_le_mul_right _ h
    _ = num' * f.one * den := Nat.mul_right_comm _ _ _

theorem ofRatio_congr (hden : 0 < den) (hden' : 0 < den') (h : num * den' = num' * den) :
    f.ofRatio num den = f.ofRatio num' den' :=
  Nat.le_antisymm (ofRatio_mono hden hden' h.le) (ofRatio_mono hden' hden h.ge)

/-! ## Numbers -/

/-- The magnitude nearest to a number without its sign. -/
def magnitudeOf (f : FloatFormat) (q : ℚ) : Nat := f.ofRatio q.num.natAbs q.den

theorem abs_eq_div (q : ℚ) : |q| = (q.num.natAbs : ℚ) / q.den := by
  rw [Rat.abs_def, Rat.divInt_eq_div]
  rfl

theorem magnitudeOf_mono {q r : ℚ} (h : |q| ≤ |r|) : f.magnitudeOf q ≤ f.magnitudeOf r := by
  rw [abs_eq_div, abs_eq_div, div_le_div_iff₀ (by exact_mod_cast q.pos) (by exact_mod_cast r.pos)] at h
  exact ofRatio_mono q.pos r.pos (by exact_mod_cast h)

theorem magnitudeOf_div (f : FloatFormat) (num : Nat) (hden : 0 < den) :
    f.magnitudeOf ((num : ℚ) / den) = f.ofRatio num den := by
  have habs := abs_eq_div ((num : ℚ) / den)
  rw [abs_of_nonneg (by positivity), div_eq_div_iff (by positivity) (by positivity)] at habs
  exact ofRatio_congr (Rat.pos _) hden (by exact_mod_cast habs.symm)

theorem magnitudeOf_neg (f : FloatFormat) (q : ℚ) : f.magnitudeOf (-q) = f.magnitudeOf q :=
  Nat.le_antisymm (magnitudeOf_mono (abs_neg q).le) (magnitudeOf_mono (abs_neg q).ge)

theorem magnitudeOf_le_infinity (f : FloatFormat) (q : ℚ) : f.magnitudeOf q ≤ f.infinity := f.round_le_infinity _ _

theorem magnitudeOf_zero (f : FloatFormat) : f.magnitudeOf 0 = 0 := by
  show f.round (0 * f.one) 1 = 0
  rw [Nat.zero_mul, round_zero]

/-- The rank of the float nearest to a number. -/
def rankOf (f : FloatFormat) (q : ℚ) : Int := if q < 0 then -(f.magnitudeOf q : Int) else f.magnitudeOf q

/-- A greater number has no smaller rank. -/
theorem rankOf_mono (f : FloatFormat) {q r : ℚ} (h : q ≤ r) : f.rankOf q ≤ f.rankOf r := by
  unfold rankOf
  by_cases hr : r < 0
  · have hmagnitude : f.magnitudeOf r ≤ f.magnitudeOf q := by
      refine magnitudeOf_mono ?_
      rw [abs_of_neg hr, abs_of_neg (h.trans_lt hr)]
      exact neg_le_neg h
    rw [if_pos hr, if_pos (h.trans_lt hr)]
    omega
  · by_cases hq : q < 0
    · rw [if_pos hq, if_neg hr]
      omega
    · have hmagnitude : f.magnitudeOf q ≤ f.magnitudeOf r := by
        refine magnitudeOf_mono ?_
        rw [abs_of_nonneg (not_lt.mp hq), abs_of_nonneg (not_lt.mp hr)]
        exact h
      rw [if_neg hq, if_neg hr]
      omega

end FloatFormat

end Columnar
