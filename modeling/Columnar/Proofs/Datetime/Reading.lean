import Columnar.Datetime.Reader
import Columnar.Proofs.Text.Reading

/-!
# `Proofs.Datetime.Reading` — a moment is read back from its text

Every number of a written moment has a fixed width, but for a year beyond four digits, which has a sign and
ends at the dash behind it. So each is read as it was written, whatever text stands behind it. The text does not
show whether a second stands among the seconds or among the nanoseconds: it is read as the former, unless it is a
leap second.

## Contents
- `IsRegular`, `carried`, `carried_eq_iff`: moments that are read as they are, and what becomes of the others.
- `readMark_cons`, `readNumber_padded`, `readRun_padded`: marks and numbers.
- `readYear_yearChars`, `readFraction_fractionChars`: the two ends of a moment.
- `read?_chars`, `isoText_eq_iff`: the whole, and the moments that share a text.
- `Noon.uncounted`, `Noon.counted`: two of them.
-/

namespace Columnar.Datetime

-- powers of numbers are those of core, whatever else is in scope
attribute [local instance (high)] instPowNat

open Text

/-! ## Seconds among the nanoseconds -/

/-- The nanoseconds stay within their second, or run through the leap second behind second 59. -/
def IsRegular (t : Datetime) : Prop := t.nanosecond < nanosPerSecond ∨ t.second = 59

instance : DecidablePred IsRegular := fun t =>
  inferInstanceAs (Decidable (t.nanosecond < nanosPerSecond ∨ t.second = 59))

/-- The regular moment of the same text: a whole second among the nanoseconds is counted as a second. -/
def carried (t : Datetime) : Datetime :=
  if h : t.IsRegular then t
  else { t with
    second := t.second + 1
    nanosecond := t.nanosecond - nanosPerSecond
    isTime := by
      have htime := t.isTime
      unfold IsRegular at h
      omega
    isFraction := Nat.lt_of_le_of_lt (Nat.sub_le _ _) t.isFraction }

theorem isRegular_carried (t : Datetime) : t.carried.IsRegular := by
  unfold carried
  split
  · next h => exact h
  · have hfraction := t.isFraction
    exact Or.inl (show t.nanosecond - nanosPerSecond < nanosPerSecond by omega)

theorem carried_of_isRegular {t : Datetime} (h : t.IsRegular) : t.carried = t := dif_pos h

theorem carried_eq_iff {t : Datetime} : t.carried = t ↔ t.IsRegular := by
  refine ⟨fun h => ?_, carried_of_isRegular⟩
  rw [← h]
  exact t.isRegular_carried

/-- Nanoseconds beyond a second are one second and a rest. -/
theorem nanosecond_div {t : Datetime} (h : ¬ t.nanosecond < nanosPerSecond) : t.nanosecond / nanosPerSecond = 1 := by
  have hfraction := t.isFraction
  unfold nanosPerSecond at h hfraction ⊢
  omega

theorem chars_carried (separator : Char) (t : Datetime) : t.carried.chars separator = t.chars separator := by
  unfold carried
  split
  · rfl
  · next h =>
    have hfraction := t.isFraction
    obtain ⟨hover, _⟩ := not_or.mp h
    have hwhole := nanosecond_div hover
    have hnone : (t.nanosecond - nanosPerSecond) / nanosPerSecond = 0 := Nat.div_eq_of_lt (by omega)
    have hrest : (t.nanosecond - nanosPerSecond) % nanosPerSecond = t.nanosecond % nanosPerSecond :=
      (Nat.mod_eq_sub_mod (Nat.not_lt.mp hover)).symm
    unfold chars
    simp only [hwhole, hnone, hrest, Nat.add_zero]

/-! ## Marks and numbers -/

theorem readMark_cons {c : Char} (hc : isBlank c = false) (cs : List Char) :
    readMark c (c :: cs) = some cs := by
  unfold readMark
  rw [trimStart_cons hc]
  exact if_pos rfl

/-- No white space stands in front of a number. -/
theorem trimStart_padded (width n : Nat) (rest : List Char) :
    trimStart (padded width n ++ rest) = padded width n ++ rest := by
  obtain ⟨c, cs, hcs, hc⟩ := exists_padded_eq width n
  rw [hcs, List.cons_append, trimStart_cons (isBlank_of_isDigit hc)]

/-- A number of full width is read whatever stands behind it, be it a digit. -/
theorem readNumber_padded {width n : Nat} (hwidth : 0 < width) (hn : n < 10 ^ width) (rest : List Char) :
    readNumber width (padded width n ++ rest) = some (n, rest) := by
  have hlength := length_padded hwidth hn
  have htake : ((padded width n ++ rest).take width).takeWhile isDigit = padded width n := by
    rw [List.take_left' hlength, takeWhile_padded]
  unfold readNumber
  rw [trimStart_padded]
  simp only [htake, if_neg (padded_ne_nil width n), ofDigits_padded, List.drop_left]

/-- A number of any width is read up to the dash behind it. -/
theorem readRun_padded (width n : Nat) (rest : List Char) :
    readRun (padded width n ++ '-' :: rest) = some (n, '-' :: rest) := by
  have hdash : ('-' :: rest).takeWhile isDigit = [] := rfl
  unfold readRun
  simp only [takeWhile_digits (fun _ => isDigit_of_mem_padded) hdash,
    dropWhile_digits (fun _ => isDigit_of_mem_padded) hdash, if_neg (padded_ne_nil width n), ofDigits_padded]

/-! ## The year and the fraction -/

theorem readYear_yearChars (year : Int) (rest : List Char) :
    readYear (yearChars year ++ '-' :: rest) = some (year, '-' :: rest) := by
  unfold yearChars
  by_cases hfour : 0 ≤ year ∧ year ≤ 9999
  · have hread := readNumber_padded (by decide) (show year.natAbs < 10 ^ 4 by omega) ('-' :: rest)
    obtain ⟨c, cs, hcs, hdigit⟩ := exists_padded_eq 4 year.natAbs
    rw [if_pos hfour]
    unfold readYear
    rw [trimStart_padded]
    rw [hcs] at hread ⊢
    -- a digit is no sign
    split
    · next heq =>
      cases (List.cons.inj heq).1
      exact absurd hdigit (by decide)
    · next heq =>
      cases (List.cons.inj heq).1
      exact absurd hdigit (by decide)
    · rw [hread, Option.map_some]
      simp only [Option.some.injEq, Prod.mk.injEq, and_true]
      omega
  · rw [if_neg hfour]
    by_cases hsign : year < 0
    · rw [if_pos hsign, List.cons_append]
      unfold readYear
      rw [trimStart_cons rfl]
      simp only [readRun_padded, Option.map_some, Option.some.injEq, Prod.mk.injEq, and_true]
      omega
    · rw [if_neg hsign, List.cons_append]
      unfold readYear
      rw [trimStart_cons rfl]
      simp only [readRun_padded, Option.map_some, Option.some.injEq, Prod.mk.injEq, and_true]
      omega

/-- Three, six or nine digits behind a point are read as nanoseconds. -/
theorem readFraction_padded {width n : Nat} (hwidth : 0 < width) (hle : width ≤ 9) (hn : n < 10 ^ width) :
    readFraction ('.' :: padded width n) = some (n * 10 ^ (9 - width), []) := by
  have hlength := length_padded hwidth hn
  have htake : ((padded width n).take 9).takeWhile isDigit = padded width n := by
    rw [List.take_of_length_le (hlength.trans_le hle), takeWhile_padded]
  unfold readFraction
  simp only [htake, dropWhile_padded, if_neg (padded_ne_nil width n), ofDigits_padded, hlength]

theorem readFraction_fractionChars {nanos : Nat} (h : nanos < nanosPerSecond) :
    readFraction (fractionChars nanos) = some (nanos, []) := by
  unfold nanosPerSecond at h
  unfold fractionChars
  by_cases hzero : nanos = 0
  · rw [if_pos hzero, hzero]
    rfl
  · rw [if_neg hzero]
    by_cases hmilli : nanos % 1000000 = 0
    · rw [if_pos hmilli, readFraction_padded (by decide) (by decide) (show nanos / 1000000 < 1000 by omega)]
      exact congrArg (fun n => some (n, [])) (show nanos / 1000000 * 1000000 = nanos by omega)
    · rw [if_neg hmilli]
      by_cases hmicro : nanos % 1000 = 0
      · rw [if_pos hmicro, readFraction_padded (by decide) (by decide) (show nanos / 1000 < 1000000 by omega)]
        exact congrArg (fun n => some (n, [])) (show nanos / 1000 * 1000 = nanos by omega)
      · rw [if_neg hmicro, readFraction_padded (by decide) (by decide) (show nanos < 1000000000 from h)]
        exact congrArg (fun n => some (n, [])) (Nat.mul_one nanos)

/-! ## The whole -/

theorem daysInMonth_le (year : Int) (month : Nat) : daysInMonth year month ≤ 31 := by
  unfold daysInMonth
  split <;> first | decide | skip
  split <;> decide

/-- There is no thirteenth month. -/
theorem month_le (t : Datetime) : t.month ≤ 12 := by
  have hday := t.isDay
  by_contra hmonth
  have hnone : daysInMonth t.year t.month = 0 := by
    unfold daysInMonth
    split <;> omega
  omega

/-- A regular moment can be given by its parts. -/
theorem make?_eq {t : Datetime} (h : t.IsRegular) :
    make? t.year t.month t.day t.hour t.minute t.second t.nanosecond = some t := by
  unfold make?
  rw [dif_pos t.isYear, dif_pos t.isDay, dif_pos t.isTime, dif_pos ⟨t.isFraction, h⟩]

/-- A regular moment is read back from its text for documents. -/
theorem read?_chars_of_isRegular {t : Datetime} (h : t.IsRegular) : read? (t.chars 'T') = some t := by
  have hpair : ∀ {n : Nat}, n < 100 → ∀ rest, readNumber 2 (padded 2 n ++ rest) = some (n, rest) :=
    fun hn rest => readNumber_padded (by decide) hn rest
  have hmonth := t.month_le
  have hday := t.isDay.2.trans (daysInMonth_le t.year t.month)
  have htime := t.isTime
  have hfraction := t.isFraction
  have hrest : t.nanosecond % nanosPerSecond < nanosPerSecond := Nat.mod_lt _ (by decide)
  have hsecond : t.second + t.nanosecond / nanosPerSecond < 100 := by
    unfold nanosPerSecond at hfraction ⊢
    omega
  unfold read? chars
  simp only [List.append_assoc, List.cons_append]
  -- part by part, from the year to the fraction
  refine Option.bind_eq_some_iff.mpr ⟨_, readYear_yearChars _ _, ?_⟩
  refine Option.bind_eq_some_iff.mpr ⟨_, readMark_cons rfl _, ?_⟩
  refine Option.bind_eq_some_iff.mpr ⟨_, hpair (show t.month < 100 by omega) _, ?_⟩
  refine Option.bind_eq_some_iff.mpr ⟨_, readMark_cons rfl _, ?_⟩
  refine Option.bind_eq_some_iff.mpr ⟨_, hpair (show t.day < 100 by omega) _, ?_⟩
  refine Option.bind_eq_some_iff.mpr ⟨_, readMark_cons rfl _, ?_⟩
  refine Option.bind_eq_some_iff.mpr ⟨_, hpair (show t.hour < 100 by omega) _, ?_⟩
  refine Option.bind_eq_some_iff.mpr ⟨_, readMark_cons rfl _, ?_⟩
  refine Option.bind_eq_some_iff.mpr ⟨_, hpair (show t.minute < 100 by omega) _, ?_⟩
  refine Option.bind_eq_some_iff.mpr ⟨_, readMark_cons rfl _, ?_⟩
  refine Option.bind_eq_some_iff.mpr ⟨_, hpair hsecond _, ?_⟩
  refine Option.bind_eq_some_iff.mpr ⟨_, readFraction_fractionChars hrest, ?_⟩
  rw [if_neg (show ¬trimStart [] ≠ [] from not_not.mpr rfl)]
  have hmake := make?_eq h
  -- only a leap second has a whole second among its nanoseconds
  by_cases hleap : t.nanosecond < nanosPerSecond
  · rw [Nat.div_eq_of_lt hleap, Nat.mod_eq_of_lt hleap, Nat.add_zero, if_neg (by omega)]
    exact hmake
  · have hlast := h.resolve_left hleap
    have hwhole := nanosecond_div hleap
    have hsum := Nat.div_add_mod t.nanosecond nanosPerSecond
    rw [hwhole, Nat.mul_one] at hsum
    rw [hwhole, hlast, hsum, if_pos rfl]
    rw [hlast] at hmake
    exact hmake

/-- What is read from the text of a moment is the regular moment of that text. -/
theorem read?_chars (t : Datetime) : read? (t.chars 'T') = some t.carried := by
  rw [← chars_carried]
  exact read?_chars_of_isRegular t.isRegular_carried

theorem read?_isoText (t : Datetime) : read? t.isoText.toList = some t.carried := by
  unfold isoText
  rw [String.toList_ofList, read?_chars]

/-- Moments have one text exactly if they differ in nothing but where a second is counted. -/
theorem isoText_eq_iff {t u : Datetime} : t.isoText = u.isoText ↔ t.carried = u.carried := by
  constructor
  · intro htext
    have hread := t.read?_isoText
    rw [htext, u.read?_isoText, Option.some.injEq] at hread
    exact hread.symm
  · intro hcarried
    unfold isoText
    rw [← chars_carried, hcarried, chars_carried]

theorem text_carried (t : Datetime) : t.carried.text = t.text := by
  unfold text
  rw [chars_carried]

end Columnar.Datetime

/-! ## Two moments of one text -/

namespace Columnar.Noon

/-- A second and a half after noon, with the whole second among the nanoseconds. -/
def uncounted : Datetime := ⟨2020, 1, 1, 12, 0, 0, 1500000000, rfl, by decide, by decide, by decide⟩

/-- A second and a half after noon, with the whole second counted. -/
def counted : Datetime := ⟨2020, 1, 1, 12, 0, 1, 500000000, rfl, by decide, by decide, by decide⟩

theorem not_isRegular_uncounted : ¬ uncounted.IsRegular := by decide

theorem carried_uncounted : uncounted.carried = counted := rfl

end Columnar.Noon
