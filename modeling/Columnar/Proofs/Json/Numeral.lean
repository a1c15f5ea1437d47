import Columnar.Proofs.Json.Reading
import Columnar.Proofs.Text.Reading

/-!
# `Proofs.Json.Numeral` — whole numbers in documents are read back

A whole number is written without leading zeros, so its digits are taken as they stand. They go on up to the first
character that is none, and nothing else belongs to the number if this character is neither a point nor an exponent
mark. Up to 64 bits all digits are absorbed, and the number they denote is the one that was written.

## Contents
- `Numeral.Ends`: a text behind which no number goes on.
- `Numeral.placesOf`, `exists_placesOf_eq`, `absorb_placesOf`: the digits of a number, by their values.
- `Numeral.scan_integer`, `Numeral.value?_integer`: an integer is scanned as it is written, and has its own value.
- `Reader.readNumber_integer`: both together.
-/

namespace Columnar.Json

-- powers of numbers are those of core, whatever else is in scope
attribute [local instance (high)] instPowNat

open Text

namespace Numeral

/-- The text starts with nothing that a number could be continued with. -/
def Ends (rest : List Char) : Prop :=
  ∀ c ∈ rest.head?, Text.isDigit c = false ∧ c ≠ '.' ∧ c ≠ 'e' ∧ c ≠ 'E'

/-! ## Digits -/

/-- The values of the digits that a number is written with. -/
def placesOf (n : Nat) : List Nat := (digits n).filterMap digitValue?

theorem digitValue?_digitChar : ∀ d < 10, digitValue? d.digitChar = some d := by
  decide

theorem placesOf_of_lt {n : Nat} (h : n < 10) : placesOf n = [n] := by
  unfold placesOf digits
  rw [Nat.toDigits_of_lt_base h, List.filterMap_cons, digitValue?_digitChar n h]
  rfl

theorem placesOf_of_le {n : Nat} (h : 10 ≤ n) : placesOf n = placesOf (n / 10) ++ [n % 10] := by
  unfold placesOf digits
  rw [Nat.toDigits_of_base_le (by decide) h, List.filterMap_append, List.filterMap_cons,
    digitValue?_digitChar _ (Nat.mod_lt n (by decide))]
  rfl

/-- Only zero is written with a zero in front. -/
theorem exists_placesOf_eq {n : Nat} (h : n ≠ 0) : ∃ d ds, placesOf n = d :: ds ∧ d ≠ 0 := by
  induction n using Nat.strongRecOn with
  | ind n ih =>
    by_cases hlt : n < 10
    · exact ⟨n, [], placesOf_of_lt hlt, h⟩
    · obtain ⟨d, ds, hds, hd⟩ := ih (n / 10) (by omega) (by omega)
      refine ⟨d, ds ++ [n % 10], ?_, hd⟩
      rw [placesOf_of_le (Nat.le_of_not_lt hlt), hds, List.cons_append]

/-- Digits are absorbed in parts, as long as nothing is left over. -/
theorem absorb_append {ds es : List Nat} {m k : Nat} (h : absorb m ds = (k, [])) :
    absorb m (ds ++ es) = absorb k es := by
  induction ds generalizing m with
  | nil =>
    cases h
    rfl
  | cons d ds ih =>
    rw [absorb] at h
    rw [List.cons_append, absorb]
    by_cases hroom : 10 * m + d < 2 ^ (64 : Nat)
    · rw [if_pos hroom] at h ⊢
      exact ih h
    · rw [if_neg hroom] at h
      cases h

/-- All digits of a number of 64 bits are absorbed. -/
theorem absorb_placesOf {n : Nat} (h : n < 2 ^ (64 : Nat)) : absorb 0 (placesOf n) = (n, []) := by
  induction n using Nat.strongRecOn with
  | ind n ih =>
    have hlast : ∀ m, 10 * m + n % 10 = n → absorb m [n % 10] = (n, []) := by
      intro m hm
      rw [absorb, hm, if_pos h]
      rfl
    by_cases hlt : n < 10
    · have honly := hlast 0 (by omega)
      rw [Nat.mod_eq_of_lt hlt] at honly
      rw [placesOf_of_lt hlt, honly]
    · rw [placesOf_of_le (Nat.le_of_not_lt hlt), absorb_append (ih (n / 10) (by omega) (by omega))]
      exact hlast _ (Nat.div_add_mod n 10)

/-! ## Scanning -/

section

variable {rest : List Char} (h : Ends rest)
include h

theorem Ends.takeWhile_eq_nil : rest.takeWhile Text.isDigit = [] := by
  cases rest with
  | nil => rfl
  | cons c cs =>
    obtain ⟨hdigit, _⟩ := h c rfl
    rw [List.takeWhile_cons, hdigit]
    rfl

theorem scanWhole_digits (n : Nat) : scanWhole (digits n ++ rest) = some (placesOf n, rest) := by
  have hdigits : scanDigits (digits n ++ rest) = (placesOf n, rest) := by
    unfold scanDigits placesOf
    rw [takeWhile_digits (fun _ => isDigit_of_mem_digits) h.takeWhile_eq_nil,
      dropWhile_digits (fun _ => isDigit_of_mem_digits) h.takeWhile_eq_nil]
  unfold scanWhole
  rw [hdigits]
  by_cases hzero : n = 0
  · rw [hzero]
    rfl
  · obtain ⟨d, ds, hds, hd⟩ := exists_placesOf_eq hzero
    rw [hds]
    obtain ⟨d, rfl⟩ := Nat.exists_eq_succ_of_ne_zero hd
    rfl

theorem scanFraction_of_ends : scanFraction rest = some (none, rest) := by
  unfold scanFraction
  split
  · exact absurd rfl (h '.' rfl).2.1
  · rfl

theorem scanExponent_of_ends : scanExponent rest = some (none, rest) := by
  unfold scanExponent
  cases rest with
  | nil => rfl
  | cons c cs =>
    obtain ⟨_, _, hlower, hupper⟩ := h c rfl
    exact if_neg (not_or.mpr ⟨hlower, hupper⟩)

/-- An integer is scanned into its sign and its digits. -/
theorem scan_integer (n : Int) :
    scan (integer n ++ rest) = some (⟨decide (n < 0), placesOf n.natAbs, none, none⟩, rest) := by
  unfold scan integer signed
  by_cases hsign : n < 0
  · simp only [hsign, decide_true, if_true, List.cons_append, scanWhole_digits h, scanFraction_of_ends h,
      scanExponent_of_ends h, Option.bind_eq_bind, Option.bind_some]
  · have hwhole := scanWhole_digits h n.natAbs
    obtain ⟨c, cs, hcs, hc⟩ := exists_digits_eq n.natAbs
    simp only [hsign, decide_false, Bool.false_eq_true, if_false]
    rw [hcs, List.cons_append] at hwhole ⊢
    -- a digit is no sign
    split
    · next heq =>
      cases (List.cons.inj heq).1
      exact absurd hc (by decide)
    · simp only [hwhole, scanFraction_of_ends h, scanExponent_of_ends h, Option.bind_eq_bind, Option.bind_some]

end

/-! ## Value -/

/-- The digits of an integer of 64 bits have it as their value. -/
theorem value?_integer {n : Int} (h : n.natAbs ≤ 2 ^ (63 : Nat)) :
    value? ⟨decide (n < 0), placesOf n.natAbs, none, none⟩ = some (.int n) := by
  have habsorb : absorb 0 (placesOf n.natAbs) = (n.natAbs, []) := absorb_placesOf (by omega)
  unfold value?
  simp only [habsorb, Option.isNone_none, List.isEmpty_nil, Bool.and_self, Bool.true_and]
  by_cases hsign : n < 0
  · have hrange : (decide (0 < n.natAbs) && decide (n.natAbs ≤ 2 ^ (63 : Nat))) = true := by
      rw [Bool.and_eq_true, decide_eq_true_eq, decide_eq_true_eq]
      exact ⟨by omega, h⟩
    rw [decide_eq_true hsign, if_neg (by decide), if_pos hrange]
    exact congrArg (fun m => some (Number.int m)) (by omega)
  · rw [decide_eq_false hsign, if_pos Bool.not_false]
    exact congrArg (fun m => some (Number.int m)) (by omega)

end Numeral

namespace Reader

theorem isSpace_of_isDigit {c : Char} (hc : c.isDigit = true) : isSpace c = false := by
  unfold isSpace
  simp only [Bool.or_eq_false_iff, beq_eq_false_iff_ne, ne_eq]
  refine ⟨⟨⟨?_, ?_⟩, ?_⟩, ?_⟩ <;> rintro rfl <;> exact absurd hc (by decide)

/-- A written integer of 64 bits is read as the integer that it is. -/
theorem readNumber_integer {n : Int} (hn : n.natAbs ≤ 2 ^ (63 : Nat)) {rest : List Char} (h : Numeral.Ends rest) :
    readNumber (integer n ++ rest) = some (.int n, rest) := by
  have hspace : skipSpace (integer n ++ rest) = integer n ++ rest := by
    unfold integer signed
    by_cases hsign : n < 0
    · simp only [hsign, decide_true, if_true, List.cons_append]
      exact skipSpace_cons rfl _
    · obtain ⟨c, cs, hcs, hc⟩ := exists_digits_eq n.natAbs
      simp only [hsign, decide_false, Bool.false_eq_true, if_false]
      rw [hcs, List.cons_append]
      exact skipSpace_cons (isSpace_of_isDigit hc) _
  unfold readNumber
  rw [hspace]
  simp only [Numeral.scan_integer h, Numeral.value?_integer hn, Option.bind_eq_bind, Option.bind_some]

end Reader

end Columnar.Json
