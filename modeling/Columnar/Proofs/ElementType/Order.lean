import Columnar.Proofs.Expr.Checker
import Mathlib.Order.Bounds.Basic

/-!
# `Proofs.ElementType.Order` — the order that promotion makes of the types

A type is below another if the other is the common type of both, that is, if it has room for the values of the
first. This is a partial order, and what is promoted is the least type above. Not all types have one above them, but
all types that promote to one another are below one and the same: numbers are below the double. So promotion fails
for a list only where it fails for two of its types, and neither order nor repetition in the list count.

## Contents
- `Widens`, `promote_eq_left_iff`, `le_iff_widens`: the order, rule by rule.
- `promote_comm`, `promote_eq_some_iff`: two types have a common type exactly if they have a least one above them.
- `family`: the greatest of all types that a type has a common type with.
- `exists_promoteAll_of_forall`, `promoteAll_eq_some_iff`, `promoteAll_eq_none_iff`: the common type of a list.
- `promoteAll_least`: promotion and the check for a common type, together.
-/

namespace Columnar.ElementType

variable {a b c t : ElementType} {ts : List ElementType}

/-! ## Types with room for others -/

/-- The second type has room for values of the first. -/
inductive Widens : ElementType → ElementType → Prop
  | refl (t : ElementType) : Widens t t
  | int {p q : IntWidth} : p.bits ≤ q.bits → Widens (.int p) (.int q)
  | intToSingle {p : IntWidth} : p.bits ≤ 16 → Widens (.int p) (.float .single)
  | intToDouble (p : IntWidth) : Widens (.int p) (.float .double)
  | intToDecimal (p : IntWidth) : Widens (.int p) .decimal
  | singleToDouble : Widens (.float .single) (.float .double)
  | decimalToDouble : Widens .decimal (.float .double)

theorem widerWidth_eq_left {p q : IntWidth} (h : widerWidth p q = p) : q.bits ≤ p.bits := by
  unfold widerWidth at h
  split at h
  · rw [h]
  · omega

theorem widerWidth_eq_right {p q : IntWidth} (h : widerWidth p q = q) : p.bits ≤ q.bits := by
  unfold widerWidth at h
  split at h
  · assumption
  · rw [h]

theorem widens_of_widen_eq_left (h : widen t a = some t) : Widens a t := by
  unfold widen at h
  split at h <;> simp at h
  · exact .int (widerWidth_eq_left h)
  · cases h
    exact .decimalToDouble

theorem widens_of_widen_eq_right (h : widen a t = some t) : Widens a t := by
  unfold widen at h
  split at h <;> simp at h
  · exact .int (widerWidth_eq_right h)
  · exact .singleToDouble
  · exact .intToSingle h
  · exact .intToDouble _
  · exact .intToDecimal _

/-- A type is the common type of itself and another exactly if it has room for the values of the other. -/
theorem promote_eq_left_iff : t.promote a = some t ↔ Widens a t := by
  constructor
  · intro h
    unfold promote at h
    split at h
    · next heq =>
      rw [heq]
      exact .refl a
    · rcases Option.or_eq_some_iff.mp h with h | ⟨_, h⟩
      · exact widens_of_widen_eq_left h
      · exact widens_of_widen_eq_right h
  · intro h
    cases h with
    | refl => exact if_pos rfl
    | @int p q hbits =>
      revert hbits
      cases p <;> cases q <;> decide
    | @intToSingle p hbits =>
      revert hbits
      cases p <;> decide
    | intToDouble p | intToDecimal p => rfl
    | singleToDouble | decimalToDouble => rfl

theorem Widens.trans (h : Widens a b) (h' : Widens b c) : Widens a c := by
  cases h with
  | refl => exact h'
  | int hpq =>
    cases h' with
    | refl => exact .int hpq
    | int hqr => exact .int (hpq.trans hqr)
    | intToSingle hq => exact .intToSingle (hpq.trans hq)
    | intToDouble => exact .intToDouble _
    | intToDecimal => exact .intToDecimal _
  | intToSingle hp =>
    cases h' with
    | refl => exact .intToSingle hp
    | singleToDouble => exact .intToDouble _
  | intToDouble =>
    cases h' with
    | refl => exact .intToDouble _
  | intToDecimal =>
    cases h' with
    | refl => exact .intToDecimal _
    | decimalToDouble => exact .intToDouble _
  | singleToDouble =>
    cases h' with
    | refl => exact .singleToDouble
  | decimalToDouble =>
    cases h' with
    | refl => exact .decimalToDouble

/-- Only integers of one width have room for each other, and widths of as many bits are the same. -/
theorem Widens.antisymm (h : Widens a b) (h' : Widens b a) : a = b := by
  cases h with
  | refl => rfl
  | @int p q hpq =>
    cases h' with
    | refl => rfl
    | int hqp =>
      revert hpq hqp
      cases p <;> cases q <;> decide
  | _ => cases h'

/-! ## The order -/

theorem promote_comm (a b : ElementType) : a.promote b = b.promote a := by
  have hall : ∀ a ∈ all, ∀ b ∈ all, a.promote b = b.promote a := by decide
  exact hall a (mem_all a) b (mem_all b)

/-- A type is below another if the other is the common type of both. -/
instance : LE ElementType where
  le a b := a.promote b = some b

instance (a b : ElementType) : Decidable (a ≤ b) := inferInstanceAs (Decidable (a.promote b = some b))

theorem le_iff_widens : a ≤ b ↔ Widens a b := by
  show a.promote b = some b ↔ _
  rw [promote_comm]
  exact promote_eq_left_iff

instance : PartialOrder ElementType where
  le_refl := promote_self
  le_trans a b c hab hbc := le_iff_widens.mpr ((le_iff_widens.mp hab).trans (le_iff_widens.mp hbc))
  le_antisymm a b hab hba := (le_iff_widens.mp hab).antisymm (le_iff_widens.mp hba)

/-! ## Two types -/

/-- The common type is above both. -/
theorem le_of_promote (h : a.promote b = some c) : a ≤ c ∧ b ≤ c := by
  have hall : ∀ a ∈ all, ∀ b ∈ all, ∀ c ∈ a.promote b, a ≤ c ∧ b ≤ c := by decide
  exact hall a (mem_all a) b (mem_all b) c h

/-- Types below one type have a common type, and it is below that one. -/
theorem exists_promote_le (ha : a ≤ t) (hb : b ≤ t) : ∃ c, a.promote b = some c ∧ c ≤ t := by
  have hall : ∀ a ∈ all, ∀ b ∈ all, ∀ t ∈ all, a ≤ t → b ≤ t →
      ∃ c ∈ all, a.promote b = some c ∧ c ≤ t := by
    decide +kernel
  obtain ⟨c, _, hc⟩ := hall a (mem_all a) b (mem_all b) t (mem_all t) ha hb
  exact ⟨c, hc⟩

theorem promote_le_iff (h : a.promote b = some c) : c ≤ t ↔ a ≤ t ∧ b ≤ t := by
  constructor
  · intro hc
    obtain ⟨ha, hb⟩ := le_of_promote h
    exact ⟨ha.trans hc, hb.trans hc⟩
  · rintro ⟨ha, hb⟩
    obtain ⟨d, hd, hle⟩ := exists_promote_le ha hb
    rw [h] at hd
    cases hd
    exact hle

/-- The greatest type that a type has a common type with. -/
def family (t : ElementType) : ElementType := if t.isNumeric then .float .double else t

theorem le_family (t : ElementType) : t ≤ t.family := by
  have hall : ∀ t ∈ all, t ≤ t.family := by decide
  exact hall t (mem_all t)

theorem family_eq_of_promote (h : a.promote b = some c) : a.family = b.family := by
  have hall : ∀ a ∈ all, ∀ b ∈ all, ∀ c ∈ a.promote b, a.family = b.family := by decide
  exact hall a (mem_all a) b (mem_all b) c h

/-! ## Lists -/

/-- Promotion from the left comes to the least type that is above all. -/
theorem isLUB_of_foldlM (h : ts.foldlM promote a = some t) : IsLUB {x | x ∈ a :: ts} t := by
  induction ts generalizing a with
  | nil =>
    cases h
    simp
  | cons b ts ih =>
    rw [List.foldlM_cons] at h
    obtain ⟨c, hc, h⟩ := Option.bind_eq_some_iff.mp h
    -- what is above the common type of the first two is what is above both
    have hbounds : upperBounds {x | x ∈ a :: b :: ts} = upperBounds {x | x ∈ c :: ts} := by
      ext u
      simp only [mem_upperBounds, Set.mem_ofPred_eq, List.forall_mem_cons, promote_le_iff hc, and_assoc]
    unfold IsLUB
    rw [hbounds]
    exact ih h

/-- Promotion from the left succeeds if some type is above all. -/
theorem exists_foldlM_eq_some (ha : a ≤ t) (hts : ∀ b ∈ ts, b ≤ t) : ∃ u, ts.foldlM promote a = some u := by
  induction ts generalizing a with
  | nil => exact ⟨a, rfl⟩
  | cons b ts ih =>
    obtain ⟨hb, hts⟩ := List.forall_mem_cons.mp hts
    obtain ⟨c, hc, hle⟩ := exists_promote_le ha hb
    obtain ⟨u, hu⟩ := ih hle hts
    exact ⟨u, by rw [List.foldlM_cons, hc]; exact hu⟩

theorem exists_promoteAll_iff (h : ts ≠ []) : (∃ t, promoteAll ts = some t) ↔ BddAbove {x | x ∈ ts} := by
  obtain ⟨a, ts, rfl⟩ := List.exists_cons_of_ne_nil h
  constructor
  · rintro ⟨t, ht⟩
    exact ⟨t, (isLUB_of_foldlM ht).1⟩
  · rintro ⟨t, ht⟩
    exact exists_foldlM_eq_some (ht List.mem_cons_self) fun b hb => ht (List.mem_cons_of_mem a hb)

/-- The common type of a list is the least type above its types. -/
theorem promoteAll_eq_some_iff (h : ts ≠ []) : promoteAll ts = some t ↔ IsLUB {x | x ∈ ts} t := by
  have hsound : ∀ u, promoteAll ts = some u → IsLUB {x | x ∈ ts} u := by
    intro u hu
    obtain ⟨a, ts, rfl⟩ := List.exists_cons_of_ne_nil h
    exact isLUB_of_foldlM hu
  refine ⟨hsound t, fun hleast => ?_⟩
  obtain ⟨u, hu⟩ := (exists_promoteAll_iff h).mpr ⟨t, hleast.1⟩
  rw [hu, hleast.unique (hsound u hu)]

/-- Types that each have a common type with one and the same type have one all together: the greatest of the family
is above all. -/
theorem exists_promoteAll_of_forall (h : ∀ b ∈ ts, ∃ c, a.promote b = some c) : ∃ t, promoteAll (a :: ts) = some t := by
  have hbound : ∀ b ∈ ts, b ≤ a.family := by
    intro b hb
    obtain ⟨c, hc⟩ := h b hb
    rw [family_eq_of_promote hc]
    exact le_family b
  exact exists_foldlM_eq_some (le_family a) hbound

/-- A list has no common type exactly if two of its types have none. -/
theorem promoteAll_eq_none_iff (h : ts ≠ []) :
    promoteAll ts = none ↔ ∃ a ∈ ts, ∃ b ∈ ts, a.promote b = none := by
  constructor
  · intro hnone
    by_contra hall
    push Not at hall
    obtain ⟨a, ts, rfl⟩ := List.exists_cons_of_ne_nil h
    obtain ⟨t, ht⟩ := exists_promoteAll_of_forall fun b hb =>
      Option.ne_none_iff_exists'.mp (hall a List.mem_cons_self b (List.mem_cons_of_mem a hb))
    rw [hnone] at ht
    cases ht
  · rintro ⟨a, ha, b, hb, hnone⟩
    rw [Option.eq_none_iff_forall_ne_some]
    intro t ht
    have hbound := ((promoteAll_eq_some_iff h).mp ht).1
    obtain ⟨c, hc, _⟩ := exists_promote_le (hbound ha) (hbound hb)
    rw [hnone] at hc
    cases hc

/-- Neither the order of the types counts, nor how often they occur. -/
theorem promoteAll_congr {us : List ElementType} (h : ts ≠ []) (hsame : ∀ x, x ∈ us ↔ x ∈ ts) :
    promoteAll us = promoteAll ts := by
  have hus : us ≠ [] := by
    rintro rfl
    obtain ⟨a, ts, rfl⟩ := List.exists_cons_of_ne_nil h
    exact List.not_mem_nil ((hsame a).mpr List.mem_cons_self)
  refine Option.ext fun t => ?_
  rw [promoteAll_eq_some_iff hus, promoteAll_eq_some_iff h]
  simp only [hsame]

/-! ## The check for a common type -/

/-- With more types behind it a list has the common type that these have with its own. -/
theorem promoteAll_append {us : List ElementType} (h : promoteAll ts = some t) :
    promoteAll (ts ++ us) = us.foldlM promote t := by
  cases ts with
  | nil => cases h
  | cons a ts =>
    have hts : ts.foldlM promote a = some t := h
    show (ts ++ us).foldlM promote a = _
    rw [List.foldlM_append, hts]
    rfl

/-- Where types part, no longer part of the list has a common type. -/
theorem PartAt.longest {left right : ElementType} (h : PartAt ts left right) :
    ∃ before after, ts = before ++ right :: after ∧ promoteAll before = some left
      ∧ ∀ longer, longer <+: ts → before.length < longer.length → promoteAll longer = none := by
  obtain ⟨before, after, rfl, hleft, hnone⟩ := h
  refine ⟨before, after, rfl, hleft, fun longer hprefix hlength => ?_⟩
  have hnext : before ++ [right] <+: before ++ right :: after := ⟨after, by simp⟩
  obtain ⟨more, rfl⟩ := List.prefix_of_prefix_length_le hnext hprefix (by rw [List.length_append]; exact hlength)
  rw [List.append_assoc, promoteAll_append hleft, List.singleton_append, List.foldlM_cons, hnone]
  rfl

/-- The common type of a list is the least type above its types, so neither their order counts nor how often they
occur. There is one exactly if any type is above all of them, and there is none exactly if two of them have none. The
check for a common type returns it where there is one. Otherwise it names the common type of as much of the list
as has one, and the type that comes next. -/
theorem promoteAll_least (checker : Checker) (h : ts ≠ []) :
    (∀ t, promoteAll ts = some t ↔ IsLUB {x | x ∈ ts} t)
      ∧ ((∃ t, promoteAll ts = some t) ↔ BddAbove {x | x ∈ ts})
      ∧ (promoteAll ts = none ↔ ∃ a ∈ ts, ∃ b ∈ ts, a.promote b = none)
      ∧ (∀ us, (∀ x, x ∈ us ↔ x ∈ ts) → promoteAll us = promoteAll ts)
      ∧ (∀ us t, checker.commonType us = .ok t ↔ promoteAll us = some t)
      ∧ (promoteAll ts = none → ∃ before left right after, ts = before ++ right :: after
          ∧ promoteAll before = some left
          ∧ (∀ longer, longer <+: ts → before.length < longer.length → promoteAll longer = none)
          ∧ checker.commonType ts = .error (.noCommonType left right checker.operator))
      ∧ checker.commonType [] = .error (.argumentCount checker.operator "at least one typed operand" 0) := by
  refine ⟨fun t => promoteAll_eq_some_iff h, exists_promoteAll_iff h, promoteAll_eq_none_iff h,
    fun us hsame => promoteAll_congr h hsame, fun us t => Checker.commonType_eq_ok, fun hnone => ?_, rfl⟩
  cases hcheck : checker.commonType ts with
  | ok t =>
    rw [Checker.commonType_eq_ok.mp hcheck] at hnone
    cases hnone
  | error e =>
    obtain ⟨left, right, hpart, rfl⟩ := (Checker.commonType_eq_error h).mp hcheck
    obtain ⟨before, after, hts, hleft, hlongest⟩ := hpart.longest
    exact ⟨before, left, right, after, hts, hleft, hlongest, rfl⟩

/-- A short integer and a single float have a common type, and a text has none with them. -/
theorem promoteAll_least_texts : [int .w8, float .single, string] ≠ []
    ∧ promoteAll [int .w8, float .single, string] = none
    ∧ ∃ before left right after, [int .w8, float .single, string] = before ++ right :: after
      ∧ promoteAll before = some left
      ∧ Checker.commonType ⟨"switch"⟩ [int .w8, float .single, string]
        = .error (.noCommonType left right "switch") := by
  have hts : [int .w8, float .single, string] ≠ [] := nofun
  obtain ⟨_, _, hnone, _, _, herror, _⟩ := promoteAll_least ⟨"switch"⟩ hts
  have hnone : promoteAll [int .w8, float .single, string] = none :=
    hnone.mpr ⟨int .w8, by simp, string, by simp, rfl⟩
  obtain ⟨before, left, right, after, hparts, hleft, _, hcheck⟩ := herror hnone
  exact ⟨hts, hnone, before, left, right, after, hparts, hleft, hcheck⟩

end Columnar.ElementType
