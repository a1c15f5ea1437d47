import Columnar.Binary.Basic
import Columnar.Text.Digits

/-!
# `Columnar.Binary.Shortest` — the shortest decimal text of a floating-point number

A finite number is written with the fewest digits that read back to the same number of its format,
and of those texts the one nearest to it. There is never an exponent.

## Contents
- `Cell`: the numbers that round to a given magnitude, as an interval of half units.
- `shortest`: the coarsest decimal grid with a point in the cell, and that point.
- `Binary.text`: the number written out.
-/

namespace Columnar

-- powers of numbers are those of core, whatever else is in scope
attribute [local instance (high)] instPowNat

/-- The numbers that round to one magnitude. Its ends are midpoints between neighbouring magnitudes,
counted in half units, and belong to it exactly when the magnitude is even. -/
structure Cell where
  lower : Nat
  centre : Nat
  upper : Nat
  /-- Half units in the number one. -/
  one : Nat
  closed : Bool

namespace Cell

/-- The cell of a positive finite magnitude. -/
def ofMagnitude (f : FloatFormat) (m : Nat) : Cell where
  lower := f.units (m - 1) + f.units m
  centre := 2 * f.units m
  upper := f.units m + f.units (m + 1)
  one := 2 * f.one
  closed := m % 2 == 0

/-- Whether `num / den` half units lie in the cell. -/
def contains (c : Cell) (num den : Nat) : Bool :=
  if c.closed then c.lower * den ≤ num && num ≤ c.upper * den
  else c.lower * den < num && num < c.upper * den

/-- The multiple of `10 ^ exponent` in the cell that is nearest to its centre, if there is one; of two
that are equally near, the larger. The multiple is given by its factor. -/
def onGrid? (c : Cell) (exponent : Int) : Option Nat :=
  let step := 10 ^ exponent.toNat * c.one
  let den := 10 ^ (-exponent).toNat
  let below := c.centre * den / step
  let rest := c.centre * den % step
  let isIn := fun n => c.contains (n * step) den
  match isIn below, isIn (below + 1) with
  | true, true => some (if 2 * rest < step then below else below + 1)
  | true, false => some below
  | false, true => some (below + 1)
  | false, false => none

/-- The first grid from `10 ^ exponent` downwards that meets the cell, and its point there. -/
def shortestFrom (c : Cell) : Nat → Int → Nat × Int
  | 0, exponent => (0, exponent)
  | steps + 1, exponent =>
    match c.onGrid? exponent with
    | some n => (n, exponent)
    | none => c.shortestFrom steps (exponent - 1)

/-- A power of ten above the cell's centre: the decimal logarithm of two is less than `0.30103`. -/
def startExponent (c : Cell) : Int :=
  ((c.centre.log2 : Int) + 1 - c.one.log2) * 30103 / 100000 + 2

/-- The shortest decimal in the cell, as a factor and a power of ten. Seventeen significant digits tell
all double numbers apart, and the search starts at most three places above the first of them. -/
def shortest (c : Cell) : Nat × Int := c.shortestFrom 21 c.startExponent

end Cell

namespace Binary

/-- The digits of a finite magnitude, without a sign. -/
def magnitudeText (f : FloatFormat) (m : Nat) : List Char :=
  if m = 0 then ['0']
  else
    let (n, exponent) := (Cell.ofMagnitude f m).shortest
    Text.positional (n * 10 ^ exponent.toNat) (-exponent).toNat

/-- The shortest text that reads back to the number: no exponent, no point behind a whole number,
and `-0`, `inf`, `-inf`, `NaN` for the numbers that have no digits of their own. -/
def chars {f : FloatFormat} (x : Binary f) : List Char :=
  if x.isNaN then ['N', 'a', 'N']
  else Text.signed x.negative (if x.isFinite then magnitudeText f x.magnitude else ['i', 'n', 'f'])

/-- The text of a number. -/
def text {f : FloatFormat} (x : Binary f) : String := String.ofList x.chars

end Binary

end Columnar
