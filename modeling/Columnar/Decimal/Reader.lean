import Columnar.Decimal.Basic

/-!
# `Columnar.Decimal.Reader` — decimals read from text

A text is a sign, digits, a point among them, and underscores behind digits. Digits beyond what a decimal
holds are rounded away, a half going up in absolute value; digits in front of the point that do not fit
are an error. A second form adds a power of ten.

## Contents
- `Decimal.ofChars?`: the plain form.
- `Decimal.ofScientific?`: the form with an exponent.
- `Decimal.read?`: either of them.
-/

namespace Columnar.Decimal

-- powers of numbers are those of core, whatever else is in scope
attribute [local instance (high)] instPowNat

/-! ## The plain form -/

/-- The decimal of a coefficient behind a sign; zero loses its sign. -/
def withSign? (negative : Bool) (m scale : Nat) : Option Decimal :=
  signed? (negative && m != 0) m scale

/-- Ends a text of more digits than fit. The first digit left out decides the rounding, and a coefficient
that rounds out of range gives up its last place. Behind that digit only digits and underscores may follow,
and they count for nothing. -/
def roundOff? (negative : Bool) (m scale next : Nat) (rest : List Char) : Option Decimal :=
  if !rest.all fun c => Text.isDigit c || c == '_' then none
  else if next < 5 then withSign? negative m scale
  else if m + 1 < 2 ^ (96 : Nat) then withSign? negative (m + 1) scale
  else if scale = 0 then none
  else withSign? negative ((m + 5) / 10) (scale - 1)

/-- Coefficients from here on no longer take a further digit within 64 bits, whatever that digit is. -/
def wordLimit : Nat := (2 ^ (64 : Nat) - 1) / 10 - 255

/-- Ends a text behind its last decimal place. Where all digits but the last fit a word, the very next
character decides the rounding, an underscore counting as zero; otherwise underscores are skipped first. -/
def afterLastPlace? (negative : Bool) (m scale : Nat) (cs : List Char) : Option Decimal :=
  let short := m / 10 < wordLimit
  match if short then cs else cs.dropWhile (· == '_') with
  | [] => withSign? negative m scale
  | c :: cs =>
    let next? := if c = '_' then some 0 else Text.digitValue? c
    next?.bind fun next => roundOff? negative m scale next cs

/-- Reads the digits behind the sign. `point` and `digit` tell whether a point and a digit have been
seen, and `m` and `scale` what has been read so far. -/
def readDigits (negative point digit : Bool) (m scale : Nat) : List Char → Option Decimal
  | [] => if digit then withSign? negative m scale else none
  | c :: cs =>
    if point && 28 ≤ scale then afterLastPlace? negative m scale (c :: cs)
    else match Text.digitValue? c with
      | some d =>
        if 10 * m + d < 2 ^ (96 : Nat) then
          readDigits negative point true (10 * m + d) (if point then scale + 1 else 0) cs
        else if point then roundOff? negative m scale d cs
        else none
      | none =>
        if c = '.' && !point then readDigits negative true digit m scale cs
        else if c = '_' && digit then readDigits negative point digit m scale cs
        else none

/-- The plain form: an optional sign, then digits with at most one point. -/
def ofChars? : List Char → Option Decimal
  | '-' :: cs => readDigits true false false 0 0 cs
  | '+' :: cs => readDigits false false false 0 0 cs
  | cs => readDigits false false false 0 0 cs

/-! ## The form with an exponent -/

/-- An exponent without its minus sign: digits, perhaps behind a plus sign, of a 32-bit number. -/
def exponent? (cs : List Char) : Option Nat :=
  let digits := match cs with
    | '+' :: ds => ds
    | ds => ds
  (Text.natural? digits).filter (· < 2 ^ (32 : Nat))

/-- Multiplies by a power of ten. A power up to the scale moves the point, a larger one, up to `10 ^ 28`,
yields a whole number, and what is out of range is an error. -/
def raised? (d : Decimal) (exponent : Nat) : Option Decimal :=
  if exponent ≤ d.scale then signed? d.negative d.coefficient (d.scale - exponent)
  else if exponent ≤ 28 then make? (d.mantissa * 10 ^ (exponent - d.scale)) 0
  else none

/-- Divides by a power of ten, at most `10 ^ 28`. What lies behind the last place of a decimal is rounded
away, a half going up in absolute value, and the sign stays even where nothing else does. -/
def lowered? (d : Decimal) (exponent : Nat) : Option Decimal :=
  if 28 < exponent then none
  else
    let unit := 10 ^ (d.scale + exponent - 28)
    signed? d.negative ((d.coefficient + unit / 2) / unit) (min 28 (d.scale + exponent))

/-- The form with an exponent behind `e` or `E`. -/
def ofScientific? (cs : List Char) : Option Decimal :=
  let isMark := fun c => c == 'e' || c == 'E'
  match cs.dropWhile (!isMark ·) with
  | [] => none
  | _ :: tail => do
    let d ← ofChars? (cs.takeWhile (!isMark ·))
    match tail with
    | '-' :: ds => d.lowered? (← exponent? ds)
    | ds => d.raised? (← exponent? ds)

/-- Reads the plain form or else the one with an exponent. -/
def read? (cs : List Char) : Option Decimal := (ofChars? cs).or (ofScientific? cs)

end Columnar.Decimal
