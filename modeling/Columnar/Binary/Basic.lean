/-!
# `Columnar.Binary.Basic` — binary floating-point numbers as exact data

A floating-point number is a sign and a *magnitude*: the bits below the sign, read as a natural
number. Magnitudes are ordered as the numbers they stand for, and every finite magnitude is a whole
number of *units*, the unit being the least positive number of the format. All arithmetic is
therefore exact arithmetic on natural numbers, followed by one rounding.

## Contents
- `FloatFormat`: the single and double formats and their parameters.
- `FloatFormat.units`, `FloatFormat.round`: what a magnitude stands for, and the magnitude nearest to
  a quotient, ties going to the even neighbour.
- `Binary f`: the numbers of a format, with infinities and NaNs, compared by bits or by order.
-/

namespace Columnar

-- powers of numbers are those of core, whatever else is in scope
attribute [local instance (high)] instPowNat

/-- The two binary floating-point formats. -/
inductive FloatFormat
  | single
  | double
  deriving DecidableEq, Repr

namespace FloatFormat

/-- Significant bits of a normal number, its leading one included. -/
def precision : FloatFormat → Nat
  | single => 24
  | double => 53

/-- Bits of the exponent field. -/
def exponentBits : FloatFormat → Nat
  | single => 8
  | double => 11

/-- The unit of the format, its least positive number, is `2 ^ -unitExponent`. -/
def unitExponent : FloatFormat → Nat
  | single => 149
  | double => 1074

/-- Units in the number one. -/
def one (f : FloatFormat) : Nat := 2 ^ f.unitExponent

/-- Magnitudes that share an exponent, and so a spacing. -/
def binade (f : FloatFormat) : Nat := 2 ^ (f.precision - 1)

/-- Bits of a number below its sign. -/
def magnitudeBits (f : FloatFormat) : Nat := f.exponentBits + (f.precision - 1)

/-- The magnitude of infinity; larger magnitudes are NaNs. -/
def infinity (f : FloatFormat) : Nat := (2 ^ f.exponentBits - 1) * f.binade

theorem infinity_lt (f : FloatFormat) : f.infinity < 2 ^ f.magnitudeBits := by
  cases f <;> decide

/-! ## Units -/

/-- How often the spacing has doubled below a magnitude. -/
def doublings (f : FloatFormat) (m : Nat) : Nat := m / f.binade - 1

/-- The number of units that a magnitude stands for. -/
def units (f : FloatFormat) (m : Nat) : Nat :=
  (m - f.doublings m * f.binade) * 2 ^ f.doublings m

/-! ## Rounding -/

/-- The integer nearest to `num / den`; a half goes to the even neighbour. -/
def nearestEven (num den : Nat) : Nat :=
  let q := num / den
  let r := num % den
  if den < 2 * r ∨ (den = 2 * r ∧ q % 2 = 1) then q + 1 else q

/-- The magnitude nearest to `num / den` units: a half goes to the even neighbour, and what lies
beyond the largest finite number is infinite. -/
def round (f : FloatFormat) (num den : Nat) : Nat :=
  let s := (num / den).log2 + 1 - f.precision
  min (s * f.binade + nearestEven num (den * 2 ^ s)) f.infinity

theorem round_le_infinity (f : FloatFormat) (num den : Nat) : f.round num den ≤ f.infinity :=
  Nat.min_le_right ..

theorem round_lt (f : FloatFormat) (num den : Nat) : f.round num den < 2 ^ f.magnitudeBits :=
  Nat.lt_of_le_of_lt (f.round_le_infinity num den) f.infinity_lt

/-! ## Arithmetic on finite magnitudes -/

/-- The magnitude nearest to the quotient `num / den`. -/
def ofRatio (f : FloatFormat) (num den : Nat) : Nat := f.round (num * f.one) den

/-- The magnitude nearest to a natural number. -/
def ofNatural (f : FloatFormat) (n : Nat) : Nat := f.ofRatio n 1

/-- The rounded sum of two finite magnitudes. -/
def add (f : FloatFormat) (a b : Nat) : Nat := f.round (f.units a + f.units b) 1

/-- The rounded product of two finite magnitudes. -/
def mul (f : FloatFormat) (a b : Nat) : Nat := f.round (f.units a * f.units b) f.one

/-- The rounded quotient of two finite magnitudes, the divisor not zero. -/
def div (f : FloatFormat) (a b : Nat) : Nat := f.round (f.units a * f.one) (f.units b)

/-- The magnitude of the integer nearest to a finite magnitude; a half goes up. -/
def toIntegral (f : FloatFormat) (a : Nat) : Nat :=
  f.ofNatural ((2 * f.units a + f.one) / (2 * f.one))

end FloatFormat

/-! ## Numbers -/

/-- A floating-point number of format `f`. -/
structure Binary (f : FloatFormat) where
  negative : Bool
  magnitude : Nat
  magnitude_lt : magnitude < 2 ^ f.magnitudeBits
  deriving DecidableEq, Repr

namespace Binary

variable {f : FloatFormat}

/-- The number with a given bit pattern; bits beyond the format's width are dropped. -/
def ofBits (f : FloatFormat) (n : Nat) : Binary f where
  negative := n / 2 ^ f.magnitudeBits % 2 == 1
  magnitude := n % 2 ^ f.magnitudeBits
  magnitude_lt := Nat.mod_lt _ (Nat.two_pow_pos _)

/-- The bit pattern of a number. -/
def toBits (x : Binary f) : Nat :=
  (if x.negative then 2 ^ f.magnitudeBits else 0) + x.magnitude

/-- Neither infinite nor a NaN. -/
def isFinite (x : Binary f) : Bool := x.magnitude < f.infinity

/-- One of the two infinities. -/
def isInfinite (x : Binary f) : Bool := x.magnitude == f.infinity

/-- Not a number: the magnitudes beyond infinity. -/
def isNaN (x : Binary f) : Bool := f.infinity < x.magnitude

/-- The same bits: the equality under which a NaN equals itself and the two zeros differ. -/
def sameBits (x y : Binary f) : Bool :=
  x.negative == y.negative && x.magnitude == y.magnitude

/-- Orders the numbers other than NaNs; the two zeros share a rank. -/
def rank (x : Binary f) : Int :=
  if x.negative then -(x.magnitude : Int) else x.magnitude

/-- Numerical equality: no NaN equals anything, and the two zeros are equal. -/
def sameNumber (x y : Binary f) : Bool := !x.isNaN && !y.isNaN && x.rank == y.rank

/-- A finite number as a signed count of units. -/
def signedUnits (x : Binary f) : Int :=
  if x.negative then -(f.units x.magnitude : Int) else f.units x.magnitude

/-! ## Conversion -/

/-- The number nearest to the quotient `num / den`, with a given sign. -/
def ofRatio (f : FloatFormat) (negative : Bool) (num den : Nat) : Binary f where
  negative := negative
  magnitude := f.ofRatio num den
  magnitude_lt := f.round_lt ..

/-- The number nearest to an integer. -/
def ofInt (f : FloatFormat) (n : Int) : Binary f := ofRatio f (n < 0) n.natAbs 1

/-- The integer as a number of the format, where no rounding is needed. -/
def ofIntExact? (f : FloatFormat) (n : Int) : Option (Binary f) :=
  let x := ofInt f n
  if x.isFinite ∧ x.signedUnits = n * f.one then some x else none

/-- A NaN's payload carried to another format: the payload keeps its leading bits, and the bit that
marks the NaN as quiet is set. -/
def quiet (f g : FloatFormat) (magnitude : Nat) : Nat :=
  let payload := magnitude % f.binade * g.binade / f.binade
  g.infinity + g.binade / 2 + payload % (g.binade / 2)

theorem quiet_lt (f g : FloatFormat) (m : Nat) : quiet f g m < 2 ^ g.magnitudeBits := by
  have h : m % f.binade * g.binade / f.binade % (g.binade / 2) < g.binade / 2 :=
    Nat.mod_lt _ (by cases g <;> decide)
  have h' : g.infinity + g.binade / 2 + g.binade / 2 ≤ 2 ^ g.magnitudeBits := by
    cases g <;> decide
  show g.infinity + g.binade / 2 + m % f.binade * g.binade / f.binade % (g.binade / 2) < _
  omega

/-- The nearest number of another format; infinities and NaNs stay what they are. -/
def convert (g : FloatFormat) (x : Binary f) : Binary g :=
  if x.isNaN then ⟨x.negative, quiet f g x.magnitude, quiet_lt ..⟩
  else if x.isFinite then ofRatio g x.negative (f.units x.magnitude) f.one
  else ⟨x.negative, g.infinity, g.infinity_lt⟩

/-- The number in another format, where it is one: never for a NaN, always for an infinity. -/
def convertExact? (g : FloatFormat) (x : Binary f) : Option (Binary g) :=
  let y := x.convert g
  if (y.convert f).sameNumber x then some y else none

end Binary

end Columnar
