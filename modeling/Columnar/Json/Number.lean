import Columnar.Binary.Basic
import Columnar.Text.Digits

/-!
# `Columnar.Json.Number` — numbers in documents

A number is scanned into its digits first and given a value afterwards. Whole numbers of 64 bits keep their
value. All others become doubles by a quick method: as many leading digits as fit into 64 bits are rounded
to a double, which is then multiplied or divided by a power of ten and so rounded a second time.

## Contents
- `Numeral`, `Numeral.scan`: the digits of a number.
- `Numeral.value?`: its value, unless it is too large.
-/

namespace Columnar.Json

-- powers of numbers are those of core, whatever else is in scope
attribute [local instance (high)] instPowNat

/-- The parts of a written number. Digits are given by their values. -/
structure Numeral where
  negative : Bool
  whole : List Nat
  fraction : Option (List Nat)
  /-- The digits behind the exponent mark, and whether a minus sign stands in front of them. -/
  exponent : Option (Bool × List Nat)
  deriving DecidableEq, Repr

/-- The value of a number. -/
inductive Number
  | int (n : Int)
  | double (x : Binary .double)
  deriving DecidableEq, Repr

namespace Numeral

/-! ## Scanning -/

/-- The digits that a text starts with, and the rest. -/
def scanDigits (cs : List Char) : List Nat × List Char :=
  ((cs.takeWhile Text.isDigit).filterMap Text.digitValue?, cs.dropWhile Text.isDigit)

/-- One or more digits. -/
def scanSomeDigits (cs : List Char) : Option (List Nat × List Char) :=
  match scanDigits cs with
  | ([], _) => none
  | r => some r

/-- The digits in front of the point: a zero stands alone. -/
def scanWhole (cs : List Char) : Option (List Nat × List Char) :=
  match scanDigits cs with
  | ([], _) => none
  | (0 :: _ :: _, _) => none
  | r => some r

/-- The point and the digits behind it, if there is a point. -/
def scanFraction : List Char → Option (Option (List Nat) × List Char)
  | '.' :: cs => (scanSomeDigits cs).map fun (ds, cs) => (some ds, cs)
  | cs => some (none, cs)

/-- The exponent mark, a sign and digits, if there is a mark. -/
def scanExponent : List Char → Option (Option (Bool × List Nat) × List Char)
  | c :: cs =>
    if c = 'e' ∨ c = 'E' then
      match cs with
      | '-' :: cs => (scanSomeDigits cs).map fun (ds, cs) => (some (true, ds), cs)
      | '+' :: cs => (scanSomeDigits cs).map fun (ds, cs) => (some (false, ds), cs)
      | cs => (scanSomeDigits cs).map fun (ds, cs) => (some (false, ds), cs)
    else some (none, c :: cs)
  | [] => some (none, [])

/-- The number that a text starts with, and the rest. -/
def scan (cs : List Char) : Option (Numeral × List Char) := do
  let (negative, cs) := match cs with
    | '-' :: cs => (true, cs)
    | cs => (false, cs)
  let (whole, cs) ← scanWhole cs
  let (fraction, cs) ← scanFraction cs
  let (exponent, cs) ← scanExponent cs
  some (⟨negative, whole, fraction, exponent⟩, cs)

/-! ## Value -/

/-- Appends digits to a coefficient as long as it stays within 64 bits; returns it with the digits left
over. -/
def absorb (n : Nat) : List Nat → Nat × List Nat
  | [] => (n, [])
  | d :: ds => if 10 * n + d < 2 ^ (64 : Nat) then absorb (10 * n + d) ds else (n, d :: ds)

/-- Scales a magnitude by a power of ten. Powers are taken from the doubles `10 ^ 0` to `10 ^ 308`; a
smaller one is approached in steps of `10 ^ -308`, and a larger one is out of range. -/
def scale? (m : Nat) (exponent : Int) : Nat → Option Nat
  | 0 => some 0
  | steps + 1 =>
    let f := FloatFormat.double
    if exponent.natAbs ≤ 308 then
      let p := f.ofNatural (10 ^ exponent.natAbs)
      if exponent < 0 then some (f.div m p)
      else if f.mul m p < f.infinity then some (f.mul m p) else none
    else if m = 0 then some 0
    else if 0 ≤ exponent then none
    else scale? (f.div m (f.ofNatural (10 ^ (308 : Nat)))) (exponent + 308) steps

/-- The magnitude of `coefficient * 10 ^ exponent`, the exponent being given with the part that was
written. A written exponent beyond 31 bits stands for zero or is out of range. -/
def magnitude? (coefficient : Nat) (start : Int) (written : Option (Bool × List Nat)) : Option Nat :=
  let (below, digits) := written.getD (false, [])
  let e : Nat := digits.foldl (fun n d => 10 * n + d) 0
  let m := FloatFormat.double.ofNatural coefficient
  if 2 ^ (31 : Nat) ≤ e then if coefficient ≠ 0 ∧ !below then none else some 0
  else scale? m (if below then start - e else start + e) 4

/-- A magnitude with a sign; it is finite. -/
def double (negative : Bool) (m : Nat) : Number :=
  .double ⟨negative, min m FloatFormat.double.infinity,
    Nat.lt_of_le_of_lt (Nat.min_le_right ..) FloatFormat.double.infinity_lt⟩

/-- The value of a number, unless it is too large to be one. -/
def value? (n : Numeral) : Option Number :=
  let (coefficient, wholeRest) := absorb 0 n.whole
  let isWhole := n.fraction.isNone && n.exponent.isNone && wholeRest.isEmpty
  if isWhole && !n.negative then some (.int coefficient)
  else if isWhole && 0 < coefficient && coefficient ≤ 2 ^ (63 : Nat) then some (.int (-coefficient))
  else
    let digits := n.fraction.getD []
    let (all, fractionRest) := absorb coefficient digits
    let start := (wholeRest.length : Int) - (digits.length - fractionRest.length)
    (magnitude? all start n.exponent).map (double n.negative)

end Numeral

end Columnar.Json
