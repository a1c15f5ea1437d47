import Columnar.Proofs.Text.Digits
import Columnar.Text.Blank
import Mathlib.Data.List.TakeWhile

/-!
# `Proofs.Text.Reading` — written digits are read back

Digits are read one after the other, each behind ten times what was read before. That is the fold of the
library (`Nat.ofDigitChars`) as long as there is nothing but digits, and zeros in front add nothing to it.

## Contents
- `digitValue?_of_isDigit`: a digit has a value.
- `ofDigits_eq`, `ofDigits_padded`: the number that digits denote is the one that was written.
- `takeWhile_digits`, `dropWhile_digits`: a run of digits ends where another character stands.
- `trimStart_cons`: a text that starts with no white space.
-/

namespace Columnar.Text

-- powers of numbers are those of core, whatever else is in scope
attribute [local instance (high)] instPowNat

/-! ## Digits -/

theorem digitValue?_of_isDigit {c : Char} (hc : c.isDigit = true) :
    digitValue? c = some (c.toNat - '0'.toNat) := by
  unfold Char.isDigit at hc
  rw [Bool.and_eq_true, decide_eq_true_eq, decide_eq_true_eq] at hc
  exact if_pos hc

theorem isDigit_of_isDigit {c : Char} (hc : c.isDigit = true) : isDigit c = true := by
  unfold isDigit
  rw [digitValue?_of_isDigit hc]
  rfl

/-! ## Numbers -/

/-- Digits are added behind a number one by one. -/
theorem ofDigits_eq {cs : List Char} (hcs : ∀ c ∈ cs, c.isDigit = true) :
    ofDigits cs = Nat.ofDigitChars 10 cs 0 := by
  unfold ofDigits Nat.ofDigitChars
  refine List.foldl_ext _ _ _ fun n c hc => ?_
  rw [digitValue?_of_isDigit (hcs c hc)]
  rfl

theorem ofDigitChars_padded (width n : Nat) : Nat.ofDigitChars 10 (padded width n) 0 = n := by
  unfold padded digits
  rw [Nat.ofDigitChars_append, Nat.ofDigitChars_replicate_zero, Nat.mul_zero, Nat.ofDigitChars_ten_toDigits]

theorem ofDigits_padded (width n : Nat) : ofDigits (padded width n) = n := by
  rw [ofDigits_eq fun _ => isDigit_of_mem_padded, ofDigitChars_padded]

/-! ## Runs of digits -/

section

variable {cs rest : List Char} (hcs : ∀ c ∈ cs, c.isDigit = true)

include hcs

theorem takeWhile_digits (hrest : rest.takeWhile isDigit = []) :
    (cs ++ rest).takeWhile isDigit = cs := by
  rw [List.takeWhile_append_of_pos fun c hc => isDigit_of_isDigit (hcs c hc), hrest, List.append_nil]

theorem dropWhile_digits (hrest : rest.takeWhile isDigit = []) :
    (cs ++ rest).dropWhile isDigit = rest := by
  rw [List.dropWhile_append_of_pos fun c hc => isDigit_of_isDigit (hcs c hc)]
  have hboth := List.takeWhile_append_dropWhile (p := isDigit) (l := rest)
  rwa [hrest, List.nil_append] at hboth

end

theorem takeWhile_padded (width n : Nat) : (padded width n).takeWhile isDigit = padded width n :=
  List.takeWhile_eq_self_iff.mpr fun _ hc => isDigit_of_isDigit (isDigit_of_mem_padded hc)

theorem dropWhile_padded (width n : Nat) : (padded width n).dropWhile isDigit = [] :=
  List.dropWhile_eq_nil_iff.mpr fun _ hc => isDigit_of_isDigit (isDigit_of_mem_padded hc)

/-! ## White space -/

theorem trimStart_cons {c : Char} (hc : isBlank c = false) (cs : List Char) :
    trimStart (c :: cs) = c :: cs := by
  unfold trimStart
  rw [List.dropWhile_cons_of_neg]
  simp [hc]

theorem isBlank_of_isDigit {c : Char} (hc : c.isDigit = true) : isBlank c = false := by
  have hrange : 48 ≤ c.toNat ∧ c.toNat ≤ 57 := by
    unfold Char.isDigit at hc
    rw [Bool.and_eq_true, decide_eq_true_eq, decide_eq_true_eq] at hc
    exact hc
  unfold isBlank
  simp only [Bool.or_eq_false_iff, Bool.and_eq_false_iff, decide_eq_false_iff_not, beq_eq_false_iff_ne]
  omega

end Columnar.Text
