import Columnar.Proofs.Binary.Rounding
import Mathlib.Order.WithBot

/-!
# `Proofs.Binary.Number` — the number that a float denotes

A float that is not a NaN denotes a number or one of two infinities. Its rank is that of what it denotes, and
different numbers that are floats have different ranks. So floats are ordered as their numbers are.

## Contents
- `Extended`: numbers and infinities.
- `rankOfExtended`: the place of a number among the floats.
- `Binary.number?`, `Binary.rank_eq`: what a float denotes, and that it has the rank of it.
- `Binary.rank_lt_iff`: floats are ordered as their numbers are.
- `Binary.number?_convert`: a double that a float is converted to denotes the same.
-/

namespace Columnar

-- powers of numbers are those of core, whatever else is in scope
attribute [local instance (high)] instPowNat

/-- Numbers between two infinities. -/
abbrev Extended := WithBot (WithTop ℚ)

/-- A number among them. -/
abbrev Extended.finite (q : ℚ) : Extended := WithBot.some (WithTop.some q)

namespace FloatFormat

variable {f : FloatFormat}

/-- The rank of the float nearest to a number, or of an infinity. -/
def rankOfExtended (f : FloatFormat) : Extended → Int
  | none => -f.infinity
  | some none => f.infinity
  | some (some q) => f.rankOf q

theorem abs_rankOf_le (f : FloatFormat) (q : ℚ) : -(f.infinity : Int) ≤ f.rankOf q ∧ f.rankOf q ≤ f.infinity := by
  have hle := f.magnitudeOf_le_infinity q
  unfold rankOf
  split <;> omega

/-- What is greater has no smaller rank. -/
theorem rankOfExtended_mono (f : FloatFormat) {x y : Extended} (h : x ≤ y) :
    f.rankOfExtended x ≤ f.rankOfExtended y := by
  match x, y with
  | none, none => exact le_rfl
  | none, some none =>
    show -(f.infinity : Int) ≤ f.infinity
    omega
  | none, some (some r) => exact (f.abs_rankOf_le r).1
  | some _, none => exact absurd h (WithBot.not_coe_le_bot _)
  | some none, some none => exact le_rfl
  | some none, some (some r) => exact absurd (WithBot.coe_le_coe.mp h) (WithTop.not_top_le_coe r)
  | some (some q), some none => exact (f.abs_rankOf_le q).2
  | some (some q), some (some r) => exact f.rankOf_mono (WithTop.coe_le_coe.mp (WithBot.coe_le_coe.mp h))

end FloatFormat

namespace Binary

variable {f : FloatFormat} {x y : Binary f}

/-- The number that a finite float denotes. -/
def toRat (x : Binary f) : ℚ := x.signedUnits / f.one

/-- What a float denotes: a NaN nothing, an infinity itself, and any other float a number. -/
def number? (x : Binary f) : Option Extended :=
  if x.isNaN then none
  else if x.isFinite then some (.finite x.toRat)
  else some (if x.negative then ⊥ else ⊤)

theorem isNaN_of_number? {n : Extended} (h : x.number? = some n) : x.isNaN = false := by
  unfold number? at h
  cases hnan : x.isNaN with
  | true =>
    rw [if_pos hnan] at h
    cases h
  | false => rfl

theorem number?_of_isFinite (h : x.isFinite = true) : x.number? = some (.finite x.toRat) := by
  have hnan : ¬ x.isNaN = true := by
    simp only [isFinite, isNaN, decide_eq_true_eq] at h ⊢
    omega
  unfold number?
  rw [if_neg hnan, if_pos h]

theorem number?_of_not_isFinite (hnan : ¬ x.isNaN = true) (h : ¬ x.isFinite = true) :
    x.number? = some (if x.negative then ⊥ else ⊤) ∧ x.magnitude = f.infinity := by
  refine ⟨?_, ?_⟩
  · unfold number?
    rw [if_neg hnan, if_neg h]
  · simp only [isFinite, isNaN, decide_eq_true_eq] at h hnan
    omega

theorem toRat_eq (x : Binary f) :
    x.toRat = if x.negative then -((f.units x.magnitude : ℚ) / f.one) else (f.units x.magnitude : ℚ) / f.one := by
  unfold toRat signedUnits
  cases x.negative with
  | true =>
    rw [if_pos rfl, if_pos rfl]
    push_cast
    exact neg_div _ _
  | false => rfl

/-! ## Ranks -/

/-- The magnitude of a finite float is the one nearest to its number. -/
theorem magnitudeOf_toRat (h : x.isFinite = true) : f.magnitudeOf x.toRat = x.magnitude := by
  have hlt : x.magnitude < f.infinity := by simpa [isFinite] using h
  have hone : 0 < f.one := Nat.two_pow_pos _
  have hunits : f.magnitudeOf ((f.units x.magnitude : ℚ) / f.one) = x.magnitude := by
    rw [f.magnitudeOf_div _ hone]
    exact FloatFormat.round_units hlt.le hone
  rw [toRat_eq]
  cases x.negative with
  | true =>
    rw [if_pos rfl, f.magnitudeOf_neg]
    exact hunits
  | false => exact hunits

theorem rank_of_isFinite (h : x.isFinite = true) : x.rank = f.rankOf x.toRat := by
  have hmagnitude := magnitudeOf_toRat h
  have hquotient : 0 ≤ (f.units x.magnitude : ℚ) / f.one := by positivity
  unfold FloatFormat.rankOf rank
  rw [hmagnitude]
  cases hnegative : x.negative with
  | false =>
    have hsign : ¬ x.toRat < 0 := by
      rw [toRat_eq, hnegative]
      exact not_lt.mpr hquotient
    rw [if_neg hsign]
    rfl
  | true =>
    rw [if_pos rfl]
    by_cases hsign : x.toRat < 0
    · rw [if_pos hsign]
    · -- only a zero loses its sign
      have hzero : x.toRat = 0 := by
        rw [toRat_eq, hnegative, if_pos rfl] at hsign ⊢
        exact le_antisymm (neg_nonpos.mpr hquotient) (not_lt.mp hsign)
      rw [hzero, f.magnitudeOf_zero] at hmagnitude
      rw [if_neg hsign, ← hmagnitude]
      rfl

/-- The rank of a float is that of what it denotes. -/
theorem rank_eq {n : Extended} (h : x.number? = some n) : x.rank = f.rankOfExtended n := by
  by_cases hfinite : x.isFinite = true
  · rw [number?_of_isFinite hfinite] at h
    cases h
    exact rank_of_isFinite hfinite
  · have hnan : ¬ x.isNaN = true := by
      intro hnan
      unfold number? at h
      rw [if_pos hnan] at h
      cases h
    obtain ⟨hnumber, hmagnitude⟩ := number?_of_not_isFinite hnan hfinite
    rw [hnumber] at h
    unfold rank
    rw [hmagnitude]
    cases hnegative : x.negative with
    | true =>
      rw [hnegative] at h
      cases h
      rfl
    | false =>
      rw [hnegative] at h
      cases h
      rfl

/-- Floats of one rank denote the same: they are one float, or two zeros. -/
theorem number?_eq_of_rank_eq (h : x.rank = y.rank) : x.number? = y.number? := by
  by_cases hsign : x.negative = y.negative
  · have hmagnitude : x.magnitude = y.magnitude := by
      unfold rank at h
      rw [hsign] at h
      split at h <;> omega
    obtain ⟨_, _, _⟩ := x
    obtain ⟨_, _, _⟩ := y
    cases hsign
    cases hmagnitude
    rfl
  · have hzero : x.magnitude = 0 ∧ y.magnitude = 0 := by
      unfold rank at h
      cases hx : x.negative <;> cases hy : y.negative <;> simp [hx, hy] at h hsign <;> omega
    have hnumber : ∀ z : Binary f, z.magnitude = 0 → z.number? = some (.finite 0) := by
      intro z hz
      have hfinite : z.isFinite = true := by
        unfold isFinite
        rw [hz]
        cases f <;> rfl
      rw [number?_of_isFinite hfinite, toRat_eq, hz, f.units_zero]
      cases z.negative <;> simp
    rw [hnumber x hzero.1, hnumber y hzero.2]

/-- Floats are ordered as what they denote. -/
theorem rank_lt_iff {m n : Extended} (hx : x.number? = some m) (hy : y.number? = some n) :
    x.rank < y.rank ↔ m < n := by
  rw [rank_eq hx, rank_eq hy]
  constructor
  · intro h
    exact lt_of_not_ge fun hle => h.not_ge (f.rankOfExtended_mono hle)
  · intro h
    refine lt_of_le_of_ne (f.rankOfExtended_mono h.le) fun heq => ?_
    rw [← rank_eq hx, ← rank_eq hy] at heq
    have hsame := number?_eq_of_rank_eq heq
    rw [hx, hy, Option.some.injEq] at hsame
    exact h.ne hsame

/-! ## Conversion -/

/-- A float converted to a double denotes the same. -/
theorem number?_convert (x : Binary f) : (x.convert .double).number? = x.number? := by
  by_cases hnan : x.isNaN = true
  · have hquiet : (x.convert .double).isNaN = true := by
      unfold convert
      rw [if_pos hnan]
      have hpos : 0 < FloatFormat.double.binade / 2 := by decide
      unfold isNaN quiet
      simp only [decide_eq_true_eq]
      omega
    unfold number?
    rw [if_pos hnan, if_pos hquiet]
  · by_cases hfinite : x.isFinite = true
    · obtain ⟨hconverted, hsign, hunits⟩ := units_convert_double hfinite
      rw [number?_of_isFinite hfinite, number?_of_isFinite hconverted, toRat_eq, toRat_eq, hsign]
      have hquotient : (FloatFormat.double.units (x.convert .double).magnitude : ℚ) / FloatFormat.double.one
          = (f.units x.magnitude : ℚ) / f.one := by
        have hone : (f.one : ℚ) ≠ 0 := by exact_mod_cast (Nat.two_pow_pos _).ne'
        have hdouble : (FloatFormat.double.one : ℚ) ≠ 0 := by exact_mod_cast (Nat.two_pow_pos _).ne'
        rw [div_eq_div_iff hdouble hone]
        exact_mod_cast hunits
      rw [hquotient]
    · obtain ⟨hnumber, _⟩ := number?_of_not_isFinite hnan hfinite
      have hconverted : x.convert .double
          = ⟨x.negative, FloatFormat.double.infinity, FloatFormat.double.infinity_lt⟩ := by
        unfold convert
        rw [if_neg hnan, if_neg hfinite]
      rw [hnumber, hconverted]
      unfold number? isNaN isFinite
      simp

end Binary

end Columnar
