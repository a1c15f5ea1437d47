import Columnar.Text.Digits
import Mathlib.Data.Nat.Digits.Lemmas

/-!
# `Proofs.Text.Digits` — what written numbers look like

A number is written in digits, at least one of them, and a text with a point shows its places.

## Contents
- `isDigit_of_mem_digits`, `isDigit_of_mem_padded`: what is written are digits.
- `exists_digits_eq`, `exists_padded_eq`, `exists_positional_eq`: and there is one in front.
- `length_padded`, `length_positional`: how many there are.
- `not_mem_digits`, `not_mem_positional`: there is nothing else but a point.
- `signed_eq`: a sign stands in front and nowhere else.
-/

namespace Columnar.Text

-- powers of numbers are those of core, whatever else is in scope
attribute [local instance (high)] instPowNat

/-! ## Digits -/

theorem isDigit_of_mem_digits {n : Nat} {c : Char} (hc : c ∈ digits n) : c.isDigit = true :=
  Nat.isDigit_of_mem_toDigits (by decide) (by decide) hc

theorem isDigit_of_mem_padded {width n : Nat} {c : Char} (hc : c ∈ padded width n) :
    c.isDigit = true := by
  unfold padded at hc
  rcases List.mem_append.mp hc with hc | hc
  · rw [List.eq_of_mem_replicate hc]
    rfl
  · exact isDigit_of_mem_digits hc

theorem digits_ne_nil (n : Nat) : digits n ≠ [] := Nat.toDigits_ne_nil

theorem padded_ne_nil (width n : Nat) : padded width n ≠ [] := by
  unfold padded
  exact List.append_ne_nil_of_right_ne_nil _ (digits_ne_nil n)

theorem exists_digits_eq (n : Nat) : ∃ c cs, digits n = c :: cs ∧ c.isDigit = true := by
  obtain ⟨c, cs, hcs⟩ := List.exists_cons_of_ne_nil (digits_ne_nil n)
  exact ⟨c, cs, hcs, isDigit_of_mem_digits (hcs ▸ List.mem_cons_self)⟩

theorem exists_padded_eq (width n : Nat) : ∃ c cs, padded width n = c :: cs ∧ c.isDigit = true := by
  obtain ⟨c, cs, hcs⟩ := List.exists_cons_of_ne_nil (padded_ne_nil width n)
  exact ⟨c, cs, hcs, isDigit_of_mem_padded (hcs ▸ List.mem_cons_self)⟩

/-- There is a digit in front of the point. -/
theorem exists_positional_eq (n places : Nat) : ∃ c cs, positional n places = c :: cs ∧ c.isDigit = true := by
  unfold positional
  by_cases hplaces : places = 0
  · rw [if_pos hplaces]
    exact exists_digits_eq n
  · obtain ⟨c, cs, hcs, hc⟩ := exists_digits_eq (n / 10 ^ places)
    rw [if_neg hplaces, hcs]
    exact ⟨c, _, rfl, hc⟩

/-! ## Lengths -/

theorem length_padded {width n : Nat} (hwidth : 0 < width) (hn : n < 10 ^ width) :
    (padded width n).length = width := by
  have hle : (digits n).length ≤ width := (Nat.length_toDigits_le_iff (by decide) hwidth).mpr hn
  unfold padded
  rw [List.length_append, List.length_replicate]
  omega

/-- Behind the digits of the whole part there is a point and one digit for each place, or nothing. -/
theorem length_positional (n places : Nat) : (positional n places).length
    = (digits (n / 10 ^ places)).length + if places = 0 then 0 else places + 1 := by
  unfold positional
  by_cases hplaces : places = 0
  · rw [if_pos hplaces, if_pos hplaces, hplaces]
    simp
  · have hlast : n % 10 ^ places < 10 ^ places := Nat.mod_lt _ (Nat.pow_pos (by decide))
    rw [if_neg hplaces, if_neg hplaces, List.length_append, List.length_cons,
      length_padded (Nat.pos_of_ne_zero hplaces) hlast]

/-! ## Other characters -/

theorem not_mem_digits {c : Char} (hc : c.isDigit = false) (n : Nat) : c ∉ digits n := by
  intro hmem
  rw [isDigit_of_mem_digits hmem] at hc
  cases hc

theorem not_mem_positional {c : Char} (hc : c.isDigit = false) (hpoint : c ≠ '.') (n places : Nat) :
    c ∉ positional n places := by
  unfold positional
  by_cases hplaces : places = 0
  · rw [if_pos hplaces]
    exact not_mem_digits hc n
  · rw [if_neg hplaces]
    intro hmem
    rcases List.mem_append.mp hmem with hmem | hmem
    · exact not_mem_digits hc _ hmem
    · rcases List.mem_cons.mp hmem with hmem | hmem
      · exact hpoint hmem
      · rw [isDigit_of_mem_padded hmem] at hc
        cases hc

/-- A sign in front of a text without signs can be told from the text. -/
theorem signed_eq {s t : Bool} {cs ds : List Char} (hcs : '-' ∉ cs) (hds : '-' ∉ ds)
    (h : signed s cs = signed t ds) : s = t ∧ cs = ds := by
  unfold signed at h
  cases s <;> cases t <;> simp only [Bool.false_eq_true, if_false, if_true] at h
  · exact ⟨rfl, h⟩
  · exact absurd (h ▸ List.mem_cons_self) hcs
  · exact absurd (h ▸ List.mem_cons_self) hds
  · exact ⟨rfl, (List.cons.inj h).2⟩

end Columnar.Text
