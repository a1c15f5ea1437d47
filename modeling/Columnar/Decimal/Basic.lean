import Columnar.Binary.Basic
import Columnar.Text.Digits

/-!
# `Columnar.Decimal.Basic` — decimal fractions

A decimal is a sign and a *coefficient* below `2 ^ 96`, together with the number of the coefficient's
digits that stand behind the point, at most 28. Trailing zeros are kept, so `1.5` and `1.50` are two
decimals and one number, and so are the two zeros.

## Contents
- `Decimal`, `Decimal.make?`: the type and the decimals that exist.
- `Decimal.sameNumber`, `Decimal.reduced`: equality as numbers, and the form that equal numbers share.
- `Decimal.text`: exactly as many digits behind the point as the scale says.
- `Decimal.toDouble`: conversion to a floating-point number through its whole and fractional parts.
-/

namespace Columnar

-- powers of numbers are those of core, whatever else is in scope
attribute [local instance (high)] instPowNat

/-- The number `coefficient / 10 ^ scale` behind a sign. -/
structure Decimal where
  negative : Bool
  coefficient : Nat
  scale : Nat
  coefficient_lt : coefficient < 2 ^ (96 : Nat)
  scale_le : scale ≤ 28
  deriving DecidableEq, Repr

namespace Decimal

/-- The decimal with a given sign, coefficient and scale, if both numbers are in range. -/
def signed? (negative : Bool) (coefficient scale : Nat) : Option Decimal :=
  if h : coefficient < 2 ^ (96 : Nat) ∧ scale ≤ 28 then some ⟨negative, coefficient, scale, h.1, h.2⟩
  else none

/-- The decimal `mantissa / 10 ^ scale`, if both are in range. Its sign is that of the mantissa, so zero
has none. -/
def make? (mantissa : Int) (scale : Nat) : Option Decimal :=
  signed? (mantissa < 0) mantissa.natAbs scale

/-- The coefficient with its sign: the number times `10 ^ scale`. -/
def mantissa (d : Decimal) : Int := if d.negative then -(d.coefficient : Int) else d.coefficient

theorem natAbs_mantissa (d : Decimal) : d.mantissa.natAbs = d.coefficient := by
  unfold mantissa
  split <;> simp

/-- A zero is never negative as a number. -/
theorem mantissa_neg_iff {d : Decimal} : d.mantissa < 0 ↔ d.negative = true ∧ d.coefficient ≠ 0 := by
  unfold mantissa
  split
  · next hnegative =>
    refine ⟨fun h => ⟨hnegative, by omega⟩, fun h => ?_⟩
    have hnonzero := h.2
    omega
  · next hnegative =>
    refine ⟨fun h => ?_, fun h => absurd h.1 hnegative⟩
    omega

/-- Equality as numbers: neither the scale nor the sign of a zero counts. -/
def sameNumber (a b : Decimal) : Bool :=
  a.mantissa * 10 ^ b.scale == b.mantissa * 10 ^ a.scale

/-- A fraction with the zeros at its end dropped. -/
def reduce (mantissa : Int) : Nat → Int × Nat
  | 0 => (mantissa, 0)
  | scale + 1 => if mantissa % 10 = 0 then reduce (mantissa / 10) scale else (mantissa, scale + 1)

/-- The mantissa and scale that all decimals of the same number share. -/
def reduced (d : Decimal) : Int × Nat := reduce d.mantissa d.scale

/-- The digits of a decimal, exactly `scale` of them behind the point. -/
def chars (d : Decimal) : List Char :=
  Text.signed d.negative (Text.positional d.coefficient d.scale)

/-- The text of a decimal. -/
def text (d : Decimal) : String := String.ofList d.chars

/-- The magnitude of the double for `m / 10 ^ scale`. The whole and the fractional part are converted on their own,
and if there is a fraction, their sum is rounded to `scale` places. -/
def doubleMagnitude (m scale : Nat) : Nat :=
  let f := FloatFormat.double
  let p := 10 ^ scale
  let whole := f.ofNatural (m / p)
  let fraction := f.div (f.ofNatural (m % p)) (f.ofNatural p)
  if fraction = 0 then whole
  else f.div (f.toIntegral (f.mul (f.add whole fraction) (f.ofNatural p))) (f.ofNatural p)

theorem doubleMagnitude_lt (m scale : Nat) :
    doubleMagnitude m scale < 2 ^ FloatFormat.double.magnitudeBits := by
  unfold doubleMagnitude
  dsimp only
  split <;> exact FloatFormat.round_lt ..

/-- The double that a decimal converts to. Without places it is converted as an integer, so that a zero has no sign;
with places the sign is put back at the end, that of a zero too. -/
def toDouble (d : Decimal) : Binary .double :=
  if d.scale = 0 then .ofInt .double d.mantissa
  else ⟨d.negative, doubleMagnitude d.coefficient d.scale, doubleMagnitude_lt ..⟩

end Decimal

end Columnar
