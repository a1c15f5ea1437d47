import Columnar.Proofs.Datetime.Reading
import Columnar.Proofs.Decimal.Reading
import Columnar.Proofs.Expr.Payload
import Columnar.Proofs.Json.Numeral
import Columnar.Proofs.Value.Coercion
import Columnar.Value.Json

/-!
# `Proofs.Value.Reading` — a value is read back from its document

The tag of a value says how the rest of its document is to be read, and every type but the floats has a form that is
read back: booleans are words, integers numbers of at most 64 bits, and all others strings. Two things are lost. A
decimal zero comes back without its sign, though with its scale, and is equal to what it was. A moment with a second
among its nanoseconds comes back with that second counted, unless it is a leap second, and is another moment of the
same text.

## Contents
- `Value.IsNegativeZero`, `Value.IsRegular`: the values that are changed.
- `Value.carried`, `Value.canonical`: what becomes of them.
- `Reader.word_append`: words.
- `Value.payloadReader_payloadJson`, `Value.reader_toJson`: a value without its tag, and with it.
- `Value.ofJsonText?_text`: a whole document.
- `Value.json_roundtrip`: what is kept.
-/

namespace Columnar

open Json.Reader

/-- A word that stands in front. -/
theorem Json.Reader.word_append {c : Char} (hc : isSpace c = false) (w rest : List Char) :
    word (c :: w) (c :: w ++ rest) = some rest := by
  have hfront : (c :: w).isPrefixOf (c :: w ++ rest) = true :=
    List.isPrefixOf_iff_prefix.mpr (List.prefix_append _ _)
  unfold word
  rw [List.cons_append, skipSpace_cons hc, ← List.cons_append]
  simp only [hfront, if_true, List.drop_left]

namespace Value

/-! ## What is lost -/

/-- A decimal zero with a minus sign. -/
def IsNegativeZero : Value → Prop
  | decimal d => d.negative = true ∧ d.coefficient = 0
  | _ => False

/-- A value that is no moment, or a moment without an uncounted second other than a leap second. -/
def IsRegular : Value → Prop
  | datetime t => t.IsRegular
  | _ => True

/-- The value with all seconds of a moment counted. -/
def carried : Value → Value
  | datetime t => datetime t.carried
  | v => v

/-- The value without the sign of a decimal zero, and with all seconds of a moment counted. -/
def canonical : Value → Value
  | decimal d => decimal d.dropZeroSign
  | v => v.carried

theorem carried_eq_iff {v : Value} : v.carried = v ↔ v.IsRegular := by
  cases v with
  | datetime t =>
    rw [carried, datetime.injEq]
    exact Datetime.carried_eq_iff
  | _ => exact iff_of_true rfl trivial

theorem map_carried {vs : List Value} (h : ∀ v ∈ vs, v.IsRegular) : vs.map carried = vs :=
  (List.map_congr_left fun v hv => carried_eq_iff.mpr (h v hv)).trans (List.map_id vs)

theorem canonical_type (v : Value) : v.canonical.type = v.type := by
  cases v <;> rfl

/-- The sign of a zero makes no difference to equality, and an uncounted second does. -/
theorem canonical_same_iff {v : Value} : v.canonical.same v = true ↔ v.IsRegular := by
  cases v with
  | decimal d => exact iff_of_true d.sameNumber_dropZeroSign trivial
  | datetime t => exact beq_iff_eq.trans Datetime.carried_eq_iff
  | _ => exact iff_of_true (same_refl _) trivial

theorem canonical_eq_iff {v : Value} : v.canonical = v ↔ v.IsRegular ∧ ¬ v.IsNegativeZero := by
  cases v with
  | decimal d =>
    rw [canonical, decimal.injEq, Decimal.dropZeroSign_eq_iff]
    exact (and_iff_right trivial).symm
  | datetime t => exact (carried_eq_iff (v := datetime t)).trans (and_iff_left id).symm
  | _ => exact iff_of_true rfl ⟨trivial, id⟩

/-- The sign of a zero shows in the text, and where a second is counted does not. -/
theorem text_canonical_iff {v : Value} : v.canonical.text = v.text ↔ ¬ v.IsNegativeZero := by
  cases v with
  | decimal d =>
    unfold IsNegativeZero
    rw [← Decimal.dropZeroSign_eq_iff]
    exact Decimal.text_injective.eq_iff
  | datetime t => exact iff_of_true t.text_carried id
  | _ => exact iff_of_true rfl id

/-! ## Reading -/

/-- A value that is no float is read back without its tag, whatever text stands behind it. -/
theorem payloadReader_payloadJson {v : Value} (hv : v.type.isFloat = false) {rest : List Char}
    (h : Json.Numeral.Ends rest) :
    payloadReader v.type (v.payloadJson.chars ++ rest) = some (v.canonical, rest) := by
  cases v with
  | boolean b =>
    cases b with
    | true =>
      have hword := word_append (c := 't') rfl ['r', 'u', 'e'] rest
      unfold payloadReader payloadJson
      simp only [type, Json.chars, hword]
      rfl
    | false =>
      have hword := word_append (c := 'f') rfl ['a', 'l', 's', 'e'] rest
      have hother : word ['t', 'r', 'u', 'e'] (['f', 'a', 'l', 's', 'e'] ++ rest) = none := rfl
      unfold payloadReader payloadJson
      simp only [type, Json.chars, hother, hword]
      rfl
  | int w n =>
    have hbits : n.val.natAbs ≤ 2 ^ (63 : Nat) :=
      n.natAbs_le.trans (Nat.pow_le_pow_right (by decide) (by cases w <;> decide))
    unfold payloadReader payloadJson
    simp only [type, Json.chars, readNumber_integer hbits h, boundedInt?, BoundedInt.ofInt?_eq_some_iff.mpr rfl,
      Option.bind_eq_bind, Option.bind_some]
    rfl
  | float f x => cases hv
  | decimal d =>
    have hread := readString_quoted d.text rest
    have hdecimal : Decimal.read? d.text.toList = some d.dropZeroSign := by
      unfold Decimal.text
      rw [String.toList_ofList, Decimal.read?_chars]
    unfold payloadReader payloadJson
    simp only [type, Json.chars]
    -- a string starts with a quote, and so not like a number
    rw [quoted_append] at hread ⊢
    rw [skipSpace_cons rfl]
    simp only [hread, hdecimal, Option.bind_eq_bind, Option.bind_some]
    rfl
  | string s =>
    unfold payloadReader payloadJson
    simp only [type, Json.chars, readString_quoted]
    rfl
  | datetime t =>
    unfold payloadReader payloadJson
    simp only [type, Json.chars, readString_quoted, t.read?_isoText, Option.bind_eq_bind, Option.bind_some]
    rfl

theorem ends_brace (rest : List Char) : Json.Numeral.Ends ('}' :: rest) := by
  rintro c ⟨⟩
  exact ⟨rfl, by decide, by decide, by decide⟩

/-- A value that is no float is read back, whatever text stands behind it. -/
theorem reader_toJson {v : Value} (hv : v.type.isFloat = false) (rest : List Char) :
    reader (v.toJson.chars ++ rest) = some (v.canonical, rest) := by
  have hpayload := payloadReader_payloadJson hv (ends_brace rest)
  unfold reader toJson
  rw [Json.chars, memberChars_singleton]
  simp only [List.append_assoc, List.cons_append, List.nil_append, mark_cons (c := '{') rfl, readString_quoted,
    ElementType.ofTag?_tag, mark_cons (c := ':') rfl, hpayload, mark_cons (c := '}') rfl, Option.bind_eq_bind,
    Option.bind_some]

/-- A value that is no float is read back from its document in its canonical form. -/
theorem ofJsonText?_text {v : Value} (hv : v.type.isFloat = false) :
    ofJsonText? v.toJson.text = some v.canonical := by
  have hread := reader_toJson hv []
  rw [List.append_nil] at hread
  unfold ofJsonText? readWhole Json.text
  rw [String.toList_ofList, hread]
  rfl

/-- A value that is no float is read back from its document as a value of its type. A decimal keeps its digits and its
scale, and its sign unless it is a zero, and a moment becomes the regular moment of its text. So the value is equal
unless it is an irregular moment, the text is the same unless it is a decimal zero with a minus sign, and it is the
very same value unless it is either. -/
theorem json_roundtrip {v : Value} (hv : v.type.isFloat = false) :
    ∃ w, ofJsonText? v.toJson.text = some w ∧ w.type = v.type
      ∧ (∀ d, v = .decimal d → ∃ d', w = .decimal d' ∧ d'.scale = d.scale ∧ d'.coefficient = d.coefficient
        ∧ d'.negative = (d.negative && d.coefficient != 0))
      ∧ (∀ t, v = .datetime t → w = .datetime t.carried)
      ∧ (w.same v = true ↔ v.IsRegular)
      ∧ (w.text = v.text ↔ ¬ v.IsNegativeZero)
      ∧ (w = v ↔ v.IsRegular ∧ ¬ v.IsNegativeZero) := by
  refine ⟨v.canonical, ofJsonText?_text hv, v.canonical_type, ?_, ?_, canonical_same_iff, text_canonical_iff,
    canonical_eq_iff⟩
  · rintro d rfl
    exact ⟨d.dropZeroSign, rfl, rfl, rfl, rfl⟩
  · rintro t rfl
    rfl

/-- The least integer of 64 bits and a moment of a leap second before the year zero are read back as they are, a
decimal zero without its sign, and an uncounted second as a counted one. -/
theorem json_roundtrip_limits :
    ofJsonText? (int .w64 ⟨-2 ^ 63, by decide⟩).toJson.text = some (int .w64 ⟨-2 ^ 63, by decide⟩)
      ∧ ofJsonText? (datetime ⟨-1, 12, 31, 23, 59, 59, 1500000000, rfl, by decide, by decide, by decide⟩).toJson.text
        = some (datetime ⟨-1, 12, 31, 23, 59, 59, 1500000000, rfl, by decide, by decide, by decide⟩)
      ∧ ofJsonText? (decimal ⟨true, 0, 2, by decide, by decide⟩).toJson.text
        = some (decimal ⟨false, 0, 2, by decide, by decide⟩)
      ∧ ofJsonText? (datetime Noon.uncounted).toJson.text = some (datetime Noon.counted)
      ∧ (datetime Noon.counted).same (datetime Noon.uncounted) = false
      ∧ (datetime Noon.counted).text = (datetime Noon.uncounted).text := by
  obtain ⟨v, hv, _, _, _, _, _, hinteger⟩ := json_roundtrip (v := int .w64 ⟨-2 ^ 63, by decide⟩) rfl
  obtain ⟨w, hw, _, _, _, _, _, hmoment⟩ := json_roundtrip
    (v := datetime ⟨-1, 12, 31, 23, 59, 59, 1500000000, rfl, by decide, by decide, by decide⟩) rfl
  obtain ⟨x, hx, _, hdecimal, _⟩ := json_roundtrip (v := decimal ⟨true, 0, 2, by decide, by decide⟩) rfl
  obtain ⟨y, hy, _, _, huncounted, hsame, htext, _⟩ := json_roundtrip (v := datetime Noon.uncounted) rfl
  obtain ⟨d, rfl, hscale, hcoefficient, hnegative⟩ := hdecimal _ rfl
  obtain rfl : y = datetime Noon.counted := (huncounted _ rfl).trans (congrArg datetime Noon.carried_uncounted)
  have hzero : d = ⟨false, 0, 2, by decide, by decide⟩ := by
    rw [Decimal.mk.injEq]
    exact ⟨hnegative, hcoefficient, hscale⟩
  rw [hv, hw, hx, hy, hinteger.mpr ⟨trivial, id⟩, hmoment.mpr ⟨Or.inr rfl, id⟩, hzero]
  exact ⟨rfl, rfl, rfl, rfl, Bool.eq_false_iff.mpr fun h => Noon.not_isRegular_uncounted (hsame.mp h), htext.mpr id⟩

/-- Not every value that is no float is read back as an equal one, since a moment may have an uncounted second; and not
every decimal is read back as one of the same text, since a zero may have a sign. -/
theorem json_roundtrip_lossy :
    (¬ ∀ v : Value, v.type.isFloat = false → ∃ w, ofJsonText? v.toJson.text = some w ∧ w.same v = true)
      ∧ ¬ ∀ d : Decimal, ∃ d', ofJsonText? (decimal d).toJson.text = some (decimal d') ∧ d'.text = d.text := by
  constructor
  · intro hclaim
    obtain ⟨w, hw, hsame⟩ := hclaim (datetime Noon.uncounted) rfl
    rw [ofJsonText?_text rfl] at hw
    cases hw
    exact Noon.not_isRegular_uncounted (canonical_same_iff.mp hsame)
  · intro hclaim
    obtain ⟨d, hd, htext⟩ := hclaim ⟨true, 0, 2, by decide, by decide⟩
    rw [ofJsonText?_text rfl] at hd
    cases hd
    have hsign := congrArg Decimal.negative (Decimal.text_injective htext)
    exact Bool.false_ne_true hsign

end Value

end Columnar
