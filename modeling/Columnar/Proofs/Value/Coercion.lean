import Columnar.Proofs.Expr.Checker
import Columnar.Proofs.Value.Number
import Columnar.Value.Coercion

/-!
# `Proofs.Value.Coercion` — converted literals denote what they denoted

Seven rules say what a conversion makes of a value. All but one keep the number: only a decimal that becomes a
double is rounded. So what a value becomes on a way over another type is what it becomes at once, where both are
possible.

## Contents
- `Converts`, `coerce_eq_some_iff`: the rules of conversion, which leave nothing out.
- `Converts.number?_eq`: all rules but one keep the number.
- `coerce_exact`: what is kept, and which integers and doubles convert.
- `Converts.trans`, `coerce_coherent`: conversions in a row.
-/

namespace Columnar

-- powers of numbers are those of core, whatever else is in scope
attribute [local instance (high)] instPowNat

open FloatFormat

/-! ## Integers of a width -/

namespace Wide

/-- An odd number of 54 bits. -/
def odd : BoundedInt .w64 := ⟨2 ^ 53 + 3, by decide⟩

/-- An even number of 54 bits. -/
def even : BoundedInt .w64 := ⟨2 ^ 53 + 6, by decide⟩

end Wide

namespace BoundedInt

variable {p q : IntWidth}

theorem ofInt?_eq_some_iff {n : Int} {m : BoundedInt p} : ofInt? p n = some m ↔ m.val = n := by
  unfold ofInt?
  by_cases h : p.Contains n
  · rw [dif_pos h, Option.some.injEq]
    constructor
    · rintro rfl
      rfl
    · rintro rfl
      rfl
  · rw [dif_neg h]
    refine iff_of_false nofun ?_
    rintro rfl
    exact h m.inRange

theorem natAbs_le (n : BoundedInt p) : n.val.natAbs ≤ 2 ^ (p.bits - 1) := by
  have h := n.inRange
  unfold IntWidth.Contains at h
  cases p <;> simp [IntWidth.bits] at h ⊢ <;> omega

/-- A decimal is made of the integer alone, whatever its width. -/
theorem ofBounded_congr {n : BoundedInt p} {m : BoundedInt q} (h : m.val = n.val) :
    Decimal.ofBounded m = Decimal.ofBounded n := by
  simp [Decimal.ofBounded, h]

end BoundedInt

namespace Decimal

variable {w : IntWidth}

theorem mantissa_ofBounded (n : BoundedInt w) : (ofBounded n).mantissa = n.val := by
  show (if decide (n.val < 0) = true then -(n.val.natAbs : Int) else n.val.natAbs) = n.val
  by_cases hnegative : n.val < 0
  · rw [if_pos (decide_eq_true hnegative)]
    omega
  · rw [if_neg (mt of_decide_eq_true hnegative)]
    omega

theorem toRat_ofBounded (n : BoundedInt w) : (ofBounded n).toRat = n.val := by
  unfold toRat
  rw [mantissa_ofBounded]
  exact div_one _

/-- An integer that becomes a double by way of a decimal is rounded as the integer itself. -/
theorem toDouble_ofBounded (n : BoundedInt w) : (ofBounded n).toDouble = Binary.ofInt .double n.val :=
  congrArg (Binary.ofInt .double) (mantissa_ofBounded n)

end Decimal

namespace Value

variable {v w u : Value} {t : ElementType}

/-! ## The rules of conversion -/

/-- What a conversion makes of a value. -/
inductive Converts : Value → Value → Prop
  | same (v : Value) : Converts v v
  | int {p q : IntWidth} {n : BoundedInt p} {m : BoundedInt q} : m.val = n.val → Converts (.int p n) (.int q m)
  | intToFloat {p : IntWidth} {n : BoundedInt p} {f : FloatFormat} :
      (Binary.ofInt f n.val).number? = some (.finite n.val) → Converts (.int p n) (.float f (.ofInt f n.val))
  | intToDecimal {p : IntWidth} (n : BoundedInt p) : Converts (.int p n) (.decimal (.ofBounded n))
  | widen (x : Binary .single) : Converts (.float .single x) (.float .double (x.convert .double))
  | narrow {x : Binary .double} {n : Extended} : x.number? = some n → (x.convert .single).number? = some n →
      Converts (.float .double x) (.float .single (x.convert .single))
  | decimalToDouble (d : Decimal) : Converts (.decimal d) (.float .double d.toDouble)

/-- A converted value is made by one of the rules. -/
theorem converts_of_coerce (h : v.coerce t = some w) : Converts v w := by
  unfold coerce at h
  split at h
  · cases h
    exact .same v
  · split at h
    · obtain ⟨m, hm, rfl⟩ := Option.map_eq_some_iff.mp h
      exact .int (BoundedInt.ofInt?_eq_some_iff.mp hm)
    · obtain ⟨x, hx, rfl⟩ := Option.map_eq_some_iff.mp h
      obtain ⟨rfl, hnumber⟩ := Binary.ofIntExact?_eq_some_iff.mp hx
      exact .intToFloat hnumber
    · cases h
      exact .intToDecimal _
    · cases h
      exact .widen _
    · obtain ⟨y, hy, rfl⟩ := Option.map_eq_some_iff.mp h
      obtain ⟨rfl, n, hx, hkept⟩ := Binary.convertExact?_eq_some_iff.mp hy
      exact .narrow hx hkept
    · cases h
      exact .decimalToDouble _
    · cases h

/-- A value is converted to the type of what one of the rules makes of it, and it becomes just that. -/
theorem Converts.coerce (h : Converts v w) : v.coerce w.type = some w := by
  cases h with
  | same => exact if_pos rfl
  | @int p q n m hval =>
    by_cases hwidth : p = q
    · subst hwidth
      have hsame : n = m := by
        cases n
        cases m
        cases hval
        rfl
      subst hsame
      exact if_pos rfl
    · refine (if_neg fun htype => hwidth (ElementType.int.inj htype)).trans ?_
      show (BoundedInt.ofInt? q n.val).map _ = _
      rw [BoundedInt.ofInt?_eq_some_iff.mpr hval]
      rfl
  | @intToFloat p n f hnumber =>
    refine (if_neg nofun).trans ?_
    show (Binary.ofIntExact? f n.val).map _ = _
    rw [Binary.ofIntExact?_eq_some_iff.mpr ⟨rfl, hnumber⟩]
    rfl
  | intToDecimal => rfl
  | widen => rfl
  | @narrow x n hx hkept =>
    refine (if_neg nofun).trans ?_
    show (x.convertExact? .single).map _ = _
    rw [Binary.convertExact?_eq_some_iff.mpr ⟨rfl, n, hx, hkept⟩]
    rfl
  | decimalToDouble => rfl

/-- The rules say when a value converts to a type, and to what. -/
theorem coerce_eq_some_iff : v.coerce t = some w ↔ Converts v w ∧ w.type = t := by
  constructor
  · intro h
    exact ⟨converts_of_coerce h, coerce_type h⟩
  · rintro ⟨h, rfl⟩
    exact h.coerce

/-- Under a type there is one outcome at most. -/
theorem Converts.unique (h : Converts v w) (h' : Converts v u) (htype : w.type = u.type) : w = u :=
  Option.some.inj (h.coerce.symm.trans (htype ▸ h'.coerce))

/-! ## What is kept -/

/-- A float that is not a number. -/
def isNaN : Value → Bool
  | float _ x => x.isNaN
  | _ => false

theorem isNaN_float_eq {f g : FloatFormat} {x : Binary f} {y : Binary g} (h : x.number? = y.number?) :
    (float f x).isNaN = (float g y).isNaN := by
  show x.isNaN = y.isNaN
  rw [Bool.eq_iff_iff, ← Binary.number?_eq_none_iff, ← Binary.number?_eq_none_iff, h]

/-- All rules but that for decimals keep what a value denotes, and a NaN remains a NaN. -/
theorem Converts.number?_eq (h : Converts v w) (hexact : ¬ (v.type = .decimal ∧ w.type = .float .double)) :
    w.number? = v.number? ∧ w.isNaN = v.isNaN := by
  cases h with
  | same => exact ⟨rfl, rfl⟩
  | int hval => simp [number?, isNaN, hval]
  | intToFloat hnumber => exact ⟨hnumber, Binary.isNaN_of_number? hnumber⟩
  | intToDecimal n => simp [number?, isNaN, Decimal.toRat_ofBounded]
  | widen x => exact ⟨Binary.number?_convert x, isNaN_float_eq (Binary.number?_convert x)⟩
  | narrow hx hkept => exact ⟨hkept.trans hx.symm, isNaN_float_eq (hkept.trans hx.symm)⟩
  | decimalToDouble d => exact absurd ⟨rfl, rfl⟩ hexact

/-! ## What converts -/

variable {p : IntWidth} {f : FloatFormat}

theorem coerce_int_float_isSome_iff {n : BoundedInt p} :
    ((int p n).coerce (.float f)).isSome = true ↔ ∃ x : Binary f, x.number? = some (.finite n.val) := by
  rw [← Binary.number?_eq_some_iff_exists (Binary.rank_ofInt f n.val), Option.isSome_iff_exists]
  simp only [coerce_eq_some_iff]
  constructor
  · rintro ⟨w, hw, htype⟩
    cases hw with
    | intToFloat hnumber =>
      cases htype
      exact hnumber
    | _ => cases htype
  · intro hnumber
    exact ⟨_, .intToFloat hnumber, rfl⟩

theorem coerce_int_int_isSome_iff {n : BoundedInt p} {q : IntWidth} :
    ((int p n).coerce (.int q)).isSome = true ↔ q.Contains n.val := by
  rw [Option.isSome_iff_exists]
  simp only [coerce_eq_some_iff]
  constructor
  · rintro ⟨w, hw, htype⟩
    cases hw with
    | same =>
      cases htype
      exact n.inRange
    | @int _ _ _ m hval =>
      cases htype
      exact hval ▸ m.inRange
    | _ => cases htype
  · intro hcontains
    exact ⟨int q ⟨n.val, hcontains⟩, .int rfl, rfl⟩

theorem coerce_double_single_isSome_iff {x : Binary .double} :
    ((float .double x).coerce (.float .single)).isSome = true
      ↔ ∃ n, x.number? = some n ∧ ∃ y : Binary .single, y.number? = some n := by
  rw [Option.isSome_iff_exists]
  simp only [coerce_eq_some_iff]
  constructor
  · rintro ⟨w, hw, htype⟩
    cases hw with
    | same => cases htype
    | narrow hx hkept => exact ⟨_, hx, _, hkept⟩
  · rintro ⟨n, hx, hy⟩
    exact ⟨_, .narrow hx ((Binary.number?_eq_some_iff_exists (Binary.rank_convert hx)).mpr hy), rfl⟩

/-- A converted value is of the type that was asked for, and it is the value itself if that was its type. Unless a
decimal becomes a double, it denotes the same number or infinity, or is a NaN if that was one. An integer converts
to a float exactly if it has no more bits than a significand, up to zeros at its end; to a width exactly if that
contains it; and to a decimal always. A double converts to a single exactly if it is infinite or if its number is
that of a single. -/
theorem coerce_exact :
    (∀ (v w : Value) (t : ElementType), v.coerce t = some w →
        w.type = t ∧ (v.type = t → w = v)
          ∧ (¬ (v.type = .decimal ∧ t = .float .double) → w.number? = v.number? ∧ w.isNaN = v.isNaN))
      ∧ (∀ (p : IntWidth) (n : BoundedInt p),
        (∀ f, ((int p n).coerce (.float f)).isSome = true ↔ ∃ k e, n.val.natAbs = k * 2 ^ e ∧ k < 2 ^ f.precision)
          ∧ (∀ q, ((int p n).coerce (.int q)).isSome = true ↔ q.Contains n.val)
          ∧ ((int p n).coerce .decimal).isSome = true)
      ∧ ∀ x, ((float .double x).coerce (.float .single)).isSome = true
        ↔ x.isInfinite = true
          ∨ ∃ q, x.number? = some (.finite q) ∧ ∃ y : Binary .single, y.number? = some (.finite q) := by
  refine ⟨?_, ?_, ?_⟩
  · intro v w t h
    obtain ⟨hconverts, rfl⟩ := coerce_eq_some_iff.mp h
    refine ⟨rfl, fun htype => ?_, fun hexact => hconverts.number?_eq hexact⟩
    exact hconverts.unique (.same v) htype.symm
  · intro p n
    refine ⟨fun f => ?_, fun q => coerce_int_int_isSome_iff, rfl⟩
    have hbound : n.val.natAbs ≤ 2 ^ 64 := n.natAbs_le.trans (by cases p <;> decide)
    rw [coerce_int_float_isSome_iff, Binary.exists_number?_ofInt_iff hbound]
  · intro x
    rw [coerce_double_single_isSome_iff, Binary.isInfinite_iff]
    constructor
    · rintro ⟨n, hx, hy⟩
      match n with
      | none => exact .inl (.inl hx)
      | some none => exact .inl (.inr hx)
      | some (some q) => exact .inr ⟨q, hx, hy⟩
    · rintro ((hx | hx) | ⟨q, hx, hy⟩)
      · exact ⟨_, hx, _, Binary.number?_infinite true⟩
      · exact ⟨_, hx, _, Binary.number?_infinite false⟩
      · exact ⟨_, hx, hy⟩

open Wide in
/-- It is no number of at most 53 bits, doubled some times, and does not convert. -/
theorem coerce_exact_unrepresentable : ((int .w64 odd).coerce (.float .double)).isSome = false := by
  obtain ⟨_, hints, _⟩ := coerce_exact
  rw [← Bool.not_eq_true, (hints .w64 odd).1 .double]
  rintro ⟨k, e, heq, hk⟩
  have heq : 2 ^ 53 + 3 = k * 2 ^ e := heq
  have hk : k < 2 ^ 53 := hk
  cases e with
  | zero => omega
  | succ e =>
    -- the number is odd
    have hdouble : k * 2 ^ (e + 1) = k * 2 ^ e * 2 := by rw [Nat.pow_succ, Nat.mul_assoc]
    omega

/-! ## Conversions in a row -/

/-- What a value becomes on a way over another type is made of it by one of the rules, provided that it converts to
the last type at all. -/
theorem Converts.trans (h : Converts v w) (h' : Converts w u) (hat : ∃ u', Converts v u' ∧ u'.type = u.type) :
    Converts v u := by
  obtain ⟨u', hat, htype⟩ := hat
  cases h with
  | same => exact h'
  | int hval =>
    cases h' with
    | same => exact .int hval
    | int hval' => exact .int (hval'.trans hval)
    | intToFloat hnumber =>
      rw [hval] at hnumber ⊢
      exact .intToFloat hnumber
    | intToDecimal =>
      rw [BoundedInt.ofBounded_congr hval]
      exact .intToDecimal _
  | intToFloat hnumber =>
    cases h' with
    | same => exact .intToFloat hnumber
    | widen =>
      have hkept := (Binary.number?_convert _).trans hnumber
      rw [Binary.convert_ofInt hnumber] at hkept ⊢
      exact .intToFloat hkept
    | narrow hx hkept =>
      rw [← hx, hnumber, Binary.convert_ofInt hnumber] at hkept
      rw [Binary.convert_ofInt hnumber]
      exact .intToFloat hkept
  | intToDecimal =>
    cases h' with
    | same => exact .intToDecimal _
    | decimalToDouble =>
      -- the integer is a double, since it also converts at once
      cases hat with
      | intToFloat hnumber =>
        obtain rfl := ElementType.float.inj htype
        rw [Decimal.toDouble_ofBounded]
        exact .intToFloat hnumber
      | _ => cases htype
  | widen =>
    cases h' with
    | same => exact .widen _
    | narrow hx hkept =>
      -- a single that has been widened comes back
      rw [Binary.convert_convert rfl ((Binary.number?_convert _).symm.trans hx) hx]
      exact .same _
  | narrow hx hkept =>
    cases h' with
    | same => exact .narrow hx hkept
    | widen =>
      rw [Binary.convert_convert rfl hx hkept]
      exact .same _
  | decimalToDouble =>
    cases h' with
    | same => exact .decimalToDouble _
    | narrow =>
      -- no decimal becomes a single at once
      cases hat <;> cases htype

/-- Let a value convert to a type. Where what it becomes converts to a second type, and the value does so at once,
both ways end at one value, bit for bit. A way back ends where it began, and a second conversion to the same type
changes nothing. -/
theorem coerce_coherent {a : ElementType} (h : v.coerce a = some w) :
    (∀ b u u', w.coerce b = some u → v.coerce b = some u' → u = u' ∧ u.same u' = true)
      ∧ (∀ u, w.coerce v.type = some u → u = v)
      ∧ w.coerce a = some w := by
  obtain ⟨hfirst, rfl⟩ := coerce_eq_some_iff.mp h
  have hone : ∀ b u u', w.coerce b = some u → v.coerce b = some u' → u = u' := by
    intro b u u' hu hu'
    obtain ⟨hsecond, rfl⟩ := coerce_eq_some_iff.mp hu
    obtain ⟨hat, htype⟩ := coerce_eq_some_iff.mp hu'
    exact (hfirst.trans hsecond ⟨u', hat, htype⟩).unique hat htype.symm
  refine ⟨fun b u u' hu hu' => ?_, fun u hu => ?_, (Converts.same w).coerce⟩
  · obtain rfl := hone b u u' hu hu'
    exact ⟨rfl, same_refl u⟩
  · exact hone v.type u v hu (Converts.same v).coerce

open Wide in
/-- As a decimal and then a double, it is the double that it is at once. -/
theorem coerce_coherent_even : ∃ u u', (int .w64 even).coerce .decimal = some (.decimal (.ofBounded even))
    ∧ (decimal (.ofBounded even)).coerce (.float .double) = some u ∧ (int .w64 even).coerce (.float .double) = some u'
    ∧ u = u' := by
  have hfirst : (int .w64 even).coerce .decimal = some (.decimal (.ofBounded even)) := rfl
  have hsecond :
      (decimal (.ofBounded even)).coerce (.float .double) = some (float .double (.ofInt .double even.val)) := by
    decide +kernel
  have hat : (int .w64 even).coerce (.float .double) = some (float .double (.ofInt .double even.val)) := by
    decide +kernel
  obtain ⟨hcoherent, _⟩ := coerce_coherent hfirst
  exact ⟨_, _, hfirst, hsecond, hat, (hcoherent _ _ _ hsecond hat).1⟩

end Value

end Columnar
