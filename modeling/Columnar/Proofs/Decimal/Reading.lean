import Columnar.Decimal.Reader
import Columnar.Proofs.Decimal.Writing
import Columnar.Proofs.Text.Reading

/-!
# `Proofs.Decimal.Reading` — a decimal is read back from its text

What is written has never more digits than fit, so nothing is rounded when it is read: the digits in front of
the point and those behind it give the coefficient, and the latter are counted. Only the sign of a zero is lost.

## Contents
- `readDigits_digit`, `readDigits_digits`, `readDigits_positional`: one digit, a run of digits, all digits.
- `dropZeroSign`, `read?_chars`: what is read is the decimal, but for the sign of a zero.
- `text_injective`: different decimals have different texts.
-/

namespace Columnar.Decimal

-- powers of numbers are those of core, whatever else is in scope
attribute [local instance (high)] instPowNat

open Text

/-! ## Digits -/

variable {negative point digit : Bool} {m scale : Nat} {cs rest : List Char}

/-- A digit is taken where there is room for it. -/
theorem readDigits_digit {c : Char} (hc : c.isDigit = true) (hscale : point = true → scale < 28)
    (hm : 10 * m + (c.toNat - '0'.toNat) < 2 ^ (96 : Nat)) :
    readDigits negative point digit m scale (c :: rest)
      = readDigits negative point true (10 * m + (c.toNat - '0'.toNat)) (if point then scale + 1 else 0) rest := by
  have hroom : ¬(point && 28 ≤ scale) = true := by
    rw [Bool.and_eq_true, decide_eq_true_eq]
    rintro ⟨hpoint, hfull⟩
    exact absurd (hscale hpoint) (Nat.not_lt.mpr hfull)
  rw [readDigits, if_neg hroom, digitValue?_of_isDigit hc]
  exact if_pos hm

/-- Digits behind a number make it no smaller. -/
theorem le_ofDigitChars (cs : List Char) (n : Nat) : n ≤ Nat.ofDigitChars 10 cs n := by
  rw [Nat.ofDigitChars_eq_ofDigitChars_zero]
  exact (Nat.le_mul_of_pos_left n (Nat.pow_pos (by decide))).trans (Nat.le_add_right _ _)

/-- A run of digits is taken as a whole, and counted behind the point. -/
theorem readDigits_digits (hcs : ∀ c ∈ cs, c.isDigit = true)
    (hscale : if point then scale + cs.length ≤ 28 else scale = 0)
    (hm : Nat.ofDigitChars 10 cs m < 2 ^ (96 : Nat)) :
    readDigits negative point digit m scale (cs ++ rest)
      = readDigits negative point (digit || !cs.isEmpty) (Nat.ofDigitChars 10 cs m)
        (if point then scale + cs.length else 0) rest := by
  induction cs generalizing digit m scale with
  | nil =>
    rw [List.isEmpty_nil, Bool.not_true, Bool.or_false]
    cases point with
    | false =>
      cases hscale
      rfl
    | true => rfl
  | cons c cs ih =>
    rw [Nat.ofDigitChars_cons] at hm ⊢
    have hroom : point = true → scale < 28 := by
      rintro rfl
      rw [if_pos rfl, List.length_cons] at hscale
      omega
    have hrest := fun c hc => hcs c (List.mem_cons_of_mem _ hc)
    rw [List.cons_append, readDigits_digit (hcs c List.mem_cons_self) hroom
      ((le_ofDigitChars cs _).trans_lt hm), List.isEmpty_cons, Bool.not_false, Bool.or_true]
    cases point with
    | false => exact ih hrest rfl hm
    | true =>
      rw [if_pos rfl, List.length_cons] at hscale
      rw [if_pos rfl, if_pos rfl, ih hrest (by rw [if_pos rfl]; omega) hm, if_pos rfl, List.length_cons,
        Nat.add_right_comm]
      rfl

/-- All digits of a decimal are taken, and no digit is left out. -/
theorem readDigits_positional (negative : Bool) {n places : Nat} (hn : n < 2 ^ (96 : Nat))
    (hplaces : places ≤ 28) :
    readDigits negative false false 0 0 (positional n places) = withSign? negative n places := by
  have hwhole : ∀ w < 2 ^ (96 : Nat), ∀ rest, readDigits negative false false 0 0 (digits w ++ rest)
      = readDigits negative false true w 0 rest := by
    intro w hw rest
    have hvalue : Nat.ofDigitChars 10 (digits w) 0 = w := Nat.ofDigitChars_ten_toDigits
    have hread : readDigits negative false false 0 0 (digits w ++ rest) = _ :=
      readDigits_digits (fun _ => isDigit_of_mem_digits) rfl (hvalue.symm ▸ hw)
    rw [hread, hvalue, List.isEmpty_eq_false_iff.mpr (digits_ne_nil w)]
    rfl
  unfold positional
  by_cases hnone : places = 0
  · rw [if_pos hnone, hnone, ← List.append_nil (digits n), hwhole n hn]
    rfl
  · have hpow : 0 < 10 ^ places := Nat.pow_pos (by decide)
    have hlength := length_padded (Nat.pos_of_ne_zero hnone) (Nat.mod_lt n hpow)
    have hvalue : Nat.ofDigitChars 10 (padded places (n % 10 ^ places)) (n / 10 ^ places) = n := by
      rw [Nat.ofDigitChars_eq_ofDigitChars_zero, ofDigitChars_padded, hlength]
      exact Nat.div_add_mod n _
    have hscale : 0 + (padded places (n % 10 ^ places)).length ≤ 28 := by omega
    have hread : readDigits negative true true (n / 10 ^ places) 0 (padded places (n % 10 ^ places) ++ []) = _ :=
      readDigits_digits (fun _ => isDigit_of_mem_padded) hscale (hvalue.symm ▸ hn)
    rw [List.append_nil, hvalue, hlength, if_pos rfl, Nat.zero_add] at hread
    rw [if_neg hnone, hwhole _ ((Nat.div_le_self _ _).trans_lt hn)]
    -- the point is no digit, and there was none before
    show readDigits negative true true (n / 10 ^ places) 0 (padded places (n % 10 ^ places)) = _
    rw [hread]
    rfl

/-! ## Decimals -/

/-- The decimal without the sign of a zero. -/
def dropZeroSign (d : Decimal) : Decimal := { d with negative := d.negative && d.coefficient != 0 }

theorem dropZeroSign_eq_iff {d : Decimal} : d.dropZeroSign = d ↔ ¬ (d.negative = true ∧ d.coefficient = 0) := by
  obtain ⟨negative, coefficient, scale, _, _⟩ := d
  unfold dropZeroSign
  cases negative <;> simp

/-- The sign of a zero does not count. -/
theorem sameNumber_dropZeroSign (d : Decimal) : d.dropZeroSign.sameNumber d = true := by
  have hmantissa : d.dropZeroSign.mantissa = d.mantissa := by
    unfold mantissa dropZeroSign
    by_cases hzero : d.coefficient = 0
    · simp [hzero]
    · simp [hzero]
  rw [sameNumber_iff, hmantissa]
  rfl

theorem withSign?_eq (d : Decimal) : withSign? d.negative d.coefficient d.scale = some d.dropZeroSign :=
  dif_pos ⟨d.coefficient_lt, d.scale_le⟩

/-- A decimal is read back from its text, but for the sign of a zero. -/
theorem read?_chars (d : Decimal) : read? d.chars = some d.dropZeroSign := by
  have hdigits := readDigits_positional d.negative d.coefficient_lt d.scale_le
  have hplain : ofChars? d.chars = some d.dropZeroSign := by
    rw [withSign?_eq] at hdigits
    unfold chars signed
    cases hnegative : d.negative with
    | true =>
      rw [hnegative] at hdigits
      exact hdigits
    | false =>
      obtain ⟨c, cs, hcs, hc⟩ := exists_positional_eq d.coefficient d.scale
      rw [hnegative, hcs] at hdigits
      rw [if_neg Bool.false_ne_true, hcs]
      unfold ofChars?
      -- a digit is no sign
      split
      · next heq =>
        cases (List.cons.inj heq).1
        exact absurd hc (by decide)
      · next heq =>
        cases (List.cons.inj heq).1
        exact absurd hc (by decide)
      · exact hdigits
  unfold read?
  rw [hplain]
  rfl

/-- Different decimals have different texts. -/
theorem text_injective : Function.Injective text := by
  intro a b h
  have hchars : a.chars = b.chars := String.ofList_injective h
  have hread := read?_chars a
  rw [hchars, read?_chars b, Option.some.injEq] at hread
  have hnumber : a.sameNumber b = true :=
    sameNumber_trans (sameNumber_symm a.sameNumber_dropZeroSign) (hread ▸ b.sameNumber_dropZeroSign)
  exact (text_eq_iff hnumber).mp h

end Columnar.Decimal
