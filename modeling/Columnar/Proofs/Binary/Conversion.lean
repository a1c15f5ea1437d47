import Columnar.Proofs.Binary.Error
import Columnar.Proofs.Binary.Number

/-!
# `Proofs.Binary.Conversion` — conversions that keep the number

An integer made a float, and a float made one of another format, is the float nearest to the number, behind its
sign. So the number is kept exactly if the format has it at all, and then one float is the outcome on every way
to it: a float is known by its place among the floats and its sign.

## Contents
- `number?_eq_none_iff`, `number?_eq_finite_iff`, `isInfinite_iff`: what floats of each sort denote.
- `rank_ofRatio`, `rank_ofInt`, `rank_convert`: the place of a conversion among the floats.
- `ofIntExact?_eq_some_iff`, `convertExact?_eq_some_iff`: when a conversion is exact.
- `exists_number?_ofInt_iff`: the integers that a format has.
-/

namespace Columnar

-- powers of numbers are those of core, whatever else is in scope
attribute [local instance (high)] instPowNat

open FloatFormat

/-- A sign and an absolute value are the integer. -/
theorem ite_natAbs (n : Int) : (if decide (n < 0) = true then -(n.natAbs : ℚ) else n.natAbs) = n := by
  rw [Nat.cast_natAbs]
  by_cases hn : n < 0
  · rw [if_pos (decide_eq_true hn), abs_of_neg hn]
    push_cast
    exact neg_neg _
  · rw [if_neg (by simpa using hn), abs_of_nonneg (not_lt.mp hn)]

namespace Binary

variable {f g : FloatFormat} {x y : Binary f} {n : Extended}

/-! ## What floats denote -/

/-- A float is known by its place and its sign. -/
theorem eq_of_rank_eq (h : x.rank = y.rank) (hsign : x.negative = y.negative) : x = y := by
  have hmagnitude : x.magnitude = y.magnitude := by
    unfold rank at h
    rw [hsign] at h
    split at h <;> omega
  cases x
  cases y
  rw [mk.injEq]
  exact ⟨hsign, hmagnitude⟩

theorem number?_eq_none_iff : x.number? = none ↔ x.isNaN = true := by
  unfold number?
  cases x.isNaN with
  | true => simp
  | false => cases x.isFinite <;> simp

theorem number?_eq_finite_iff {q : ℚ} : x.number? = some (.finite q) ↔ x.isFinite = true ∧ x.toRat = q := by
  by_cases hfinite : x.isFinite = true
  · rw [number?_of_isFinite hfinite]
    simp [hfinite, Extended.finite]
  · refine iff_of_false (fun h => ?_) fun h => hfinite h.1
    have hnan := isNaN_of_number? h
    rw [(number?_of_not_isFinite (by simp [hnan]) hfinite).1] at h
    cases hsign : x.negative <;> rw [hsign] at h <;> cases h

theorem number?_infinite (negative : Bool) :
    (⟨negative, f.infinity, f.infinity_lt⟩ : Binary f).number? = some (if negative then ⊥ else ⊤) :=
  (number?_of_not_isFinite (by simp [isNaN]) (by simp [isFinite])).1

theorem isInfinite_iff : x.isInfinite = true ↔ x.number? = some ⊥ ∨ x.number? = some ⊤ := by
  constructor
  · intro h
    obtain ⟨negative, magnitude, hlt⟩ := x
    have hmagnitude : magnitude = f.infinity := by simpa [isInfinite] using h
    subst hmagnitude
    rw [number?_infinite]
    cases negative <;> simp
  · intro h
    have hnan : ¬ x.isNaN = true := by
      rw [← number?_eq_none_iff]
      rcases h with h | h <;> simp [h]
    by_cases hfinite : x.isFinite = true
    · rw [number?_of_isFinite hfinite] at h
      rcases h with h | h <;> cases h
    · exact beq_iff_eq.mpr (number?_of_not_isFinite hnan hfinite).2

/-- Floats are equal as numbers exactly if they denote the same. -/
theorem sameNumber_iff : x.sameNumber y = true ↔ ∃ n, x.number? = some n ∧ y.number? = some n := by
  unfold sameNumber
  rw [Bool.and_eq_true, Bool.and_eq_true, Bool.not_eq_true', Bool.not_eq_true', beq_iff_eq]
  constructor
  · rintro ⟨⟨hx, _⟩, hrank⟩
    have hnumber : x.number? ≠ none := by
      rw [Ne, number?_eq_none_iff, hx]
      exact Bool.false_ne_true
    obtain ⟨n, hn⟩ := Option.ne_none_iff_exists'.mp hnumber
    exact ⟨n, hn, number?_eq_of_rank_eq hrank ▸ hn⟩
  · rintro ⟨n, hx, hy⟩
    exact ⟨⟨isNaN_of_number? hx, isNaN_of_number? hy⟩, (rank_eq hx).trans (rank_eq hy).symm⟩

/-! ## The nearest float -/

theorem rank_ofRatio (f : FloatFormat) (negative : Bool) (num : Nat) {den : Nat} (hden : 0 < den) :
    (ofRatio f negative num den).rank = f.rankOf (if negative then -((num : ℚ) / den) else (num : ℚ) / den) := by
  have hquotient : (0 : ℚ) ≤ (num : ℚ) / den := by positivity
  have hmagnitude := f.magnitudeOf_div num hden
  have hrank : (ofRatio f negative num den).rank
      = if negative then -(f.ofRatio num den : Int) else f.ofRatio num den := rfl
  rw [hrank, ← hmagnitude]
  unfold rankOf
  cases negative with
  | false => rw [if_neg Bool.false_ne_true, if_neg Bool.false_ne_true, if_neg (not_lt.mpr hquotient)]
  | true =>
    rw [if_pos rfl, if_pos rfl, f.magnitudeOf_neg]
    rcases hquotient.eq_or_lt with hzero | hpos
    · -- a zero has no sign, and its rank is zero with either
      rw [← hzero, f.magnitudeOf_zero]
      simp
    · rw [if_pos (neg_lt_zero.mpr hpos)]

theorem rank_ofInt (f : FloatFormat) (k : Int) : (ofInt f k).rank = f.rankOf k := by
  unfold ofInt
  rw [rank_ofRatio f _ _ Nat.one_pos, Nat.cast_one, div_one, ite_natAbs]

@[simp] theorem negative_convert (g : FloatFormat) (x : Binary f) : (x.convert g).negative = x.negative := by
  unfold convert
  split
  · rfl
  · split <;> rfl

/-- A float converted to a format is the nearest one there. -/
theorem rank_convert (h : x.number? = some n) : (x.convert g).rank = g.rankOfExtended n := by
  have hnan : ¬ x.isNaN = true := by simp [isNaN_of_number? h]
  unfold convert
  rw [if_neg hnan]
  by_cases hfinite : x.isFinite = true
  · rw [number?_of_isFinite hfinite] at h
    cases h
    have hone : 0 < f.one := Nat.two_pow_pos _
    rw [if_pos hfinite, rank_ofRatio g _ _ hone, ← toRat_eq]
    rfl
  · rw [(number?_of_not_isFinite hnan hfinite).1] at h
    rw [if_neg hfinite]
    unfold rank
    cases hsign : x.negative <;> rw [hsign] at h <;> cases h <;> rfl

/-! ## Exact conversions -/

/-- The nearest float denotes a number exactly if some float of its format does. -/
theorem number?_eq_some_iff_exists (h : x.rank = f.rankOfExtended n) :
    x.number? = some n ↔ ∃ y : Binary f, y.number? = some n := by
  constructor
  · intro hx
    exact ⟨x, hx⟩
  · rintro ⟨y, hy⟩
    rw [number?_eq_of_rank_eq (h.trans (rank_eq hy).symm)]
    exact hy

/-- An integer is made a float exactly if the nearest float denotes it. -/
theorem ofIntExact?_eq_some_iff {k : Int} :
    ofIntExact? f k = some x ↔ x = ofInt f k ∧ x.number? = some (.finite k) := by
  have hunits : ∀ y : Binary f, y.signedUnits = k * f.one ↔ y.toRat = k := by
    intro y
    have hone : (f.one : ℚ) ≠ 0 := by exact_mod_cast (Nat.two_pow_pos _).ne'
    unfold toRat
    rw [div_eq_iff hone]
    exact_mod_cast Iff.rfl
  unfold ofIntExact?
  simp only [hunits, ← number?_eq_finite_iff]
  by_cases hexact : (ofInt f k).number? = some (.finite k)
  · rw [if_pos hexact, Option.some.injEq]
    constructor
    · rintro rfl
      exact ⟨rfl, hexact⟩
    · rintro ⟨rfl, _⟩
      rfl
  · rw [if_neg hexact]
    refine iff_of_false nofun ?_
    rintro ⟨rfl, hx⟩
    exact hexact hx

/-- A double is made a float of another format exactly if the nearest float there denotes the same. -/
theorem convertExact?_eq_some_iff {x : Binary .double} {y : Binary g} :
    x.convertExact? g = some y ↔ y = x.convert g ∧ ∃ n, x.number? = some n ∧ y.number? = some n := by
  have hback : ∀ z : Binary g, (z.convert .double).sameNumber x = true
      ↔ ∃ n, x.number? = some n ∧ z.number? = some n := by
    intro z
    rw [sameNumber_iff, number?_convert]
    exact exists_congr fun _ => and_comm
  unfold convertExact?
  simp only [hback]
  by_cases hexact : ∃ n, x.number? = some n ∧ (x.convert g).number? = some n
  · rw [if_pos hexact, Option.some.injEq]
    constructor
    · rintro rfl
      exact ⟨rfl, hexact⟩
    · rintro ⟨rfl, _⟩
      rfl
  · rw [if_neg hexact]
    refine iff_of_false nofun ?_
    rintro ⟨rfl, hy⟩
    exact hexact hy

/-- On its way through another format, an integer that is kept becomes what it becomes at once. -/
theorem convert_ofInt {k : Int} (h : (ofInt f k).number? = some (.finite k)) :
    (ofInt f k).convert g = ofInt g k := by
  refine eq_of_rank_eq ?_ (negative_convert g _)
  rw [rank_convert h, rank_ofInt]
  rfl

/-- A float that is kept on its way through another format comes back. -/
theorem convert_convert {z : Binary g} (hz : z = x.convert g) (hx : x.number? = some n) (hkept : z.number? = some n) :
    z.convert f = x := by
  refine eq_of_rank_eq ?_ ?_
  · rw [rank_convert hkept, rank_eq hx]
  · rw [negative_convert, hz, negative_convert]

/-! ## Integers of a format -/

theorem add_mul_binade_le (f : FloatFormat) {e : Nat} (he : e ≤ f.precision + 64) :
    (e + f.unitExponent + 2) * f.binade ≤ f.infinity := by
  refine Nat.mul_le_mul_right _ ?_
  cases f with
  | single =>
    have he : e ≤ 24 + 64 := he
    show e + 149 + 2 ≤ 255
    omega
  | double =>
    have he : e ≤ 53 + 64 := he
    show e + 1074 + 2 ≤ 2047
    omega

/-- An integer that comes to a significand, doubled, is kept. -/
theorem number?_ofInt_of_natAbs_eq {k : Int} {c e : Nat} (hc : c < 2 ^ f.precision) (he : e ≤ 64)
    (hk : k.natAbs = c * 2 ^ e) : (ofInt f k).number? = some (.finite k) := by
  have hunits : f.units (ofInt f k).magnitude = k.natAbs * f.one := by
    rw [hk, ← units_ofNatural (two_mul_binade f ▸ hc) (add_mul_binade_le f (by omega)), ← hk]
    rfl
  have hfinite : (ofInt f k).magnitude < f.infinity := by
    refine round_lt_infinity (e := f.precision + 64 + f.unitExponent) Nat.one_pos ?_ (add_mul_binade_le f le_rfl)
    rw [Nat.mul_one, Nat.pow_add]
    refine Nat.mul_le_mul_right _ ?_
    calc k.natAbs = c * 2 ^ e := hk
      _ ≤ 2 ^ f.precision * 2 ^ 64 := Nat.mul_le_mul hc.le (Nat.pow_le_pow_right (by decide) he)
      _ = 2 ^ (f.precision + 64) := (Nat.pow_add ..).symm
  rw [number?_eq_finite_iff, toRat_eq, hunits, Nat.cast_mul]
  refine ⟨decide_eq_true hfinite, ?_⟩
  have hone : (f.one : ℚ) ≠ 0 := by exact_mod_cast (Nat.two_pow_pos _).ne'
  rw [mul_div_cancel_right₀ _ hone]
  exact ite_natAbs k

/-- The units of a float that denotes an integer. -/
theorem units_eq_of_number?_eq {k : Int} (h : x.number? = some (.finite k)) :
    f.units x.magnitude = k.natAbs * f.one := by
  obtain ⟨_, hnumber⟩ := number?_eq_finite_iff.mp h
  have hone : (f.one : ℚ) ≠ 0 := by exact_mod_cast (Nat.two_pow_pos _).ne'
  unfold toRat at hnumber
  rw [div_eq_iff hone] at hnumber
  have hsigned : x.signedUnits = k * f.one := by exact_mod_cast hnumber
  have habs := congrArg Int.natAbs hsigned
  rw [Int.natAbs_mul, Int.natAbs_natCast] at habs
  rw [← habs]
  unfold signedUnits
  cases x.negative <;> simp

/-- A format has an integer exactly if it comes to as many bits as a significand has, doubled some times. -/
theorem exists_number?_ofInt_iff {k : Int} (hk : k.natAbs ≤ 2 ^ 64) :
    (∃ x : Binary f, x.number? = some (.finite k)) ↔ ∃ c e, k.natAbs = c * 2 ^ e ∧ c < 2 ^ f.precision := by
  constructor
  · rintro ⟨x, hx⟩
    have hunits := units_eq_of_number?_eq hx
    rw [units_eq] at hunits
    have hbits : f.significand x.magnitude < 2 ^ f.precision := two_mul_binade f ▸ f.significand_lt x.magnitude
    rcases Nat.le_total f.unitExponent (f.doublings x.magnitude) with hle | hle
    · obtain ⟨e, he⟩ := Nat.exists_eq_add_of_le' hle
      refine ⟨_, e, Nat.eq_of_mul_eq_mul_right (Nat.two_pow_pos f.unitExponent) ?_, hbits⟩
      rw [Nat.mul_assoc, ← Nat.pow_add, ← he]
      exact hunits.symm
    · -- all bits of the integer are bits of the significand
      obtain ⟨e, he⟩ := Nat.exists_eq_add_of_le' hle
      have hone : f.one = 2 ^ e * 2 ^ f.doublings x.magnitude := by
        unfold one
        rw [he, Nat.pow_add]
      rw [hone, ← Nat.mul_assoc] at hunits
      have hsignificand := Nat.eq_of_mul_eq_mul_right (Nat.two_pow_pos _) hunits
      refine ⟨k.natAbs, 0, by rw [Nat.pow_zero, Nat.mul_one], lt_of_le_of_lt ?_ hbits⟩
      rw [hsignificand]
      exact Nat.le_mul_of_pos_right _ (Nat.two_pow_pos _)
  · rintro ⟨c, e, hkeq, hc⟩
    rcases Nat.eq_zero_or_pos c with rfl | hpos
    · rw [Nat.zero_mul] at hkeq
      exact ⟨_, number?_ofInt_of_natAbs_eq (e := 0) hc (by decide) (by rw [hkeq, Nat.zero_mul])⟩
    · have hexponent : e ≤ 64 := by
        refine (Nat.pow_le_pow_iff_right (by decide : 1 < 2)).mp ?_
        calc 2 ^ e ≤ c * 2 ^ e := Nat.le_mul_of_pos_left _ hpos
          _ ≤ 2 ^ 64 := hkeq ▸ hk
      exact ⟨_, number?_ofInt_of_natAbs_eq hc hexponent hkeq⟩

end Binary

end Columnar
