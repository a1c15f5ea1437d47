import Columnar.Expr.Checker
import Mathlib.Data.List.Forall2

/-!
# `Proofs.Expr.Checker` — what the checks accept

Every check is described by the condition under which it succeeds and what it then returns, so that later
proofs cite the condition and never look into the check.

## Contents
- `except_bind_eq_ok`, `forM_eq_ok`, `mapM_eq_ok`: checks in a row, and one check for every item of a list.
- `except_bind_eq_error`, `FirstNot`, `forM_eq_error`, `mapM_eq_error`, `foldlM_eq_error`: which of the checks refuses.
- `promote_self`, `Value.coerce_type`: facts on types that the checks rest on.
- `ElementType.PartAt`, `commonType_eq_error`: where types stop having a common type.
- one `_eq_ok` lemma for each check of `Checker`, and an `_eq_error` lemma for those whose refusals are told apart.
-/

namespace Columnar

/-! ## Checks in a row -/

section Checks

variable {ε α β : Type}

theorem except_bind_eq_ok {x : Except ε α} {f : α → Except ε β} {b : β} :
    x >>= f = .ok b ↔ ∃ a, x = .ok a ∧ f a = .ok b := by
  cases x with
  | error e => exact ⟨fun h => (nomatch h), fun ⟨_, h, _⟩ => (nomatch h)⟩
  | ok a =>
    constructor
    · exact fun h => ⟨a, rfl, h⟩
    · rintro ⟨_, ha, h⟩
      cases ha
      exact h

/-- A check that refuses unless a condition holds. -/
theorem guard_eq_ok {p : Prop} [Decidable p] {e : ε} {u : Unit} :
    (if p then .ok () else .error e : Except ε Unit) = .ok u ↔ p := by
  by_cases h : p
  · rw [if_pos h]; exact ⟨fun _ => h, fun _ => rfl⟩
  · rw [if_neg h]; exact ⟨fun h => (nomatch h), fun hp => absurd hp h⟩

theorem forM_eq_ok {f : α → Except ε Unit} {as : List α} {u : Unit} :
    as.forM f = .ok u ↔ ∀ a ∈ as, f a = .ok () := by
  induction as with
  | nil => exact ⟨fun _ _ h => (nomatch h), fun _ => rfl⟩
  | cons a as ih =>
    show (f a >>= fun _ => as.forM f) = .ok u ↔ _
    rw [except_bind_eq_ok, List.forall_mem_cons]
    constructor
    · rintro ⟨_, ha, has⟩
      exact ⟨ha, ih.mp has⟩
    · rintro ⟨ha, has⟩
      exact ⟨(), ha, ih.mpr has⟩

theorem except_bind_eq_error {x : Except ε α} {f : α → Except ε β} {e : ε} :
    x >>= f = .error e ↔ x = .error e ∨ ∃ a, x = .ok a ∧ f a = .error e := by
  cases x with
  | error e' =>
    constructor
    · intro h
      cases h
      exact .inl rfl
    · rintro (h | ⟨_, h, _⟩) <;> cases h
      rfl
  | ok a =>
    constructor
    · exact fun h => .inr ⟨a, rfl, h⟩
    · rintro (h | ⟨_, ha, h⟩)
      · cases h
      · cases ha
        exact h

theorem guard_eq_error {p : Prop} [Decidable p] {e e' : ε} :
    (if p then .ok () else .error e : Except ε Unit) = .error e' ↔ ¬ p ∧ e' = e := by
  by_cases h : p
  · rw [if_pos h]; exact ⟨fun h' => (nomatch h'), fun h' => absurd h h'.1⟩
  · rw [if_neg h, Except.error.injEq, eq_comm]; exact ⟨fun he => ⟨h, he⟩, fun h' => h'.2⟩

/-- The first item of a list that does not have a property. -/
def FirstNot (P : α → Prop) (as : List α) (a : α) : Prop :=
  ∃ before after, as = before ++ a :: after ∧ (∀ b ∈ before, P b) ∧ ¬ P a

theorem FirstNot.not {P : α → Prop} {as : List α} {a : α} (h : FirstNot P as a) : ¬ P a := by
  obtain ⟨_, _, _, _, ha⟩ := h
  exact ha

theorem FirstNot.ne_nil {P : α → Prop} {as : List α} {a : α} (h : FirstNot P as a) : as ≠ [] := by
  obtain ⟨before, after, rfl, _⟩ := h
  exact List.append_ne_nil_of_right_ne_nil _ (List.cons_ne_nil _ _)

theorem FirstNot.mem {P : α → Prop} {as : List α} {a : α} (h : FirstNot P as a) : a ∈ as := by
  obtain ⟨before, after, rfl, _⟩ := h
  exact List.mem_append_right _ List.mem_cons_self

theorem firstNot_cons {P : α → Prop} {a b : α} {as : List α} :
    FirstNot P (b :: as) a ↔ (¬ P b ∧ a = b) ∨ (P b ∧ FirstNot P as a) := by
  constructor
  · rintro ⟨before, after, has, hbefore, ha⟩
    cases before with
    | nil =>
      cases has
      exact .inl ⟨ha, rfl⟩
    | cons x before =>
      cases has
      obtain ⟨hb, hbefore⟩ := List.forall_mem_cons.mp hbefore
      exact .inr ⟨hb, before, after, rfl, hbefore, ha⟩
  · rintro (⟨hb, rfl⟩ | ⟨hb, before, after, rfl, hbefore, ha⟩)
    · exact ⟨[], as, rfl, nofun, hb⟩
    · exact ⟨b :: before, after, rfl, List.forall_mem_cons.mpr ⟨hb, hbefore⟩, ha⟩

/-- There is only one first item. -/
theorem FirstNot.unique {P : α → Prop} {as : List α} {a b : α} (ha : FirstNot P as a) (hb : FirstNot P as b) :
    a = b := by
  induction as with
  | nil => exact absurd rfl ha.ne_nil
  | cons c as ih =>
    rcases firstNot_cons.mp ha with ⟨hc, rfl⟩ | ⟨hc, ha⟩
    · rcases firstNot_cons.mp hb with ⟨_, rfl⟩ | ⟨hc', _⟩
      · rfl
      · exact absurd hc' hc
    · rcases firstNot_cons.mp hb with ⟨hc', _⟩ | ⟨_, hb⟩
      · exact absurd hc hc'
      · exact ih ha hb

/-- If an item does not have a property, the first such item is that one or comes before it. -/
theorem exists_firstNot {P : α → Prop} {a : α} (before after : List α) (ha : ¬ P a) :
    ∃ b, FirstNot P (before ++ a :: after) b ∧ (b ∈ before ∨ b = a) := by
  induction before with
  | nil => exact ⟨a, firstNot_cons.mpr (.inl ⟨ha, rfl⟩), .inr rfl⟩
  | cons c before ih =>
    by_cases hc : P c
    · obtain ⟨b, hfirst, hb⟩ := ih
      exact ⟨b, firstNot_cons.mpr (.inr ⟨hc, hfirst⟩), hb.imp_left (List.mem_cons_of_mem c)⟩
    · exact ⟨c, firstNot_cons.mpr (.inl ⟨hc, rfl⟩), .inl List.mem_cons_self⟩

/-- A check of all items is refused as the first item is that the check refuses. -/
theorem forM_eq_error {f : α → Except ε Unit} {as : List α} {e : ε} :
    as.forM f = .error e ↔ ∃ a, FirstNot (fun b => f b = .ok ()) as a ∧ f a = .error e := by
  induction as with
  | nil =>
    refine iff_of_false nofun ?_
    rintro ⟨a, hfirst, _⟩
    exact hfirst.ne_nil rfl
  | cons b as ih =>
    show (f b >>= fun _ => as.forM f) = .error e ↔ _
    simp only [except_bind_eq_error, ih, firstNot_cons]
    constructor
    · rintro (hb | ⟨_, hb, a, hfirst, ha⟩)
      · exact ⟨b, .inl ⟨by rw [hb]; nofun, rfl⟩, hb⟩
      · exact ⟨a, .inr ⟨hb, hfirst⟩, ha⟩
    · rintro ⟨a, ⟨_, rfl⟩ | ⟨hb, hfirst⟩, ha⟩
      · exact .inl ha
      · exact .inr ⟨(), hb, a, hfirst, ha⟩

/-- A traversal is refused as the first item is that is refused. -/
theorem mapM_eq_error {f : α → Except ε β} {as : List α} {e : ε} :
    as.mapM f = .error e ↔ ∃ a, FirstNot (fun b => ∃ y, f b = .ok y) as a ∧ f a = .error e := by
  induction as with
  | nil =>
    rw [List.mapM_nil]
    refine iff_of_false nofun ?_
    rintro ⟨a, hfirst, _⟩
    exact hfirst.ne_nil rfl
  | cons b as ih =>
    have hpure : ∀ (y : β) (ys : List β), (pure (y :: ys) : Except ε (List β)) ≠ .error e := nofun
    simp only [List.mapM_cons, except_bind_eq_error, ih, firstNot_cons, hpure, and_false, exists_false, or_false]
    constructor
    · rintro (hb | ⟨y, hb, a, hfirst, ha⟩)
      · exact ⟨b, .inl ⟨by rw [hb]; nofun, rfl⟩, hb⟩
      · exact ⟨a, .inr ⟨⟨y, hb⟩, hfirst⟩, ha⟩
    · rintro ⟨a, ⟨_, rfl⟩ | ⟨⟨y, hb⟩, hfirst⟩, ha⟩
      · exact .inl ha
      · exact .inr ⟨y, hb, a, hfirst, ha⟩

/-- A traversal succeeds if every item does, and has the result of each in its place. -/
theorem mapM_eq_ok {f : α → Except ε β} {as : List α} {bs : List β} :
    as.mapM f = .ok bs ↔ List.Forall₂ (fun a b => f a = .ok b) as bs := by
  induction as generalizing bs with
  | nil =>
    show Except.ok [] = .ok bs ↔ _
    rw [Except.ok.injEq, List.forall₂_nil_left_iff, eq_comm]
  | cons a as ih =>
    simp only [List.mapM_cons, except_bind_eq_ok, ih, List.forall₂_cons_left_iff]
    constructor
    · rintro ⟨b, hb, bs', hbs, h⟩
      cases h
      exact ⟨b, bs', hb, hbs, rfl⟩
    · rintro ⟨b, bs', hb, hbs, rfl⟩
      exact ⟨b, hb, bs', hbs, rfl⟩

theorem mapM_congr_of_mem {f g : α → Except ε β} {as : List α} (h : ∀ a ∈ as, f a = g a) : as.mapM f = as.mapM g := by
  induction as with
  | nil => rfl
  | cons a as ih =>
    obtain ⟨ha, has⟩ := List.forall_mem_cons.mp h
    rw [List.mapM_cons, List.mapM_cons, ha, ih has]

/-- A fold is refused at the item where it stops, with what it has come to by then. -/
theorem foldlM_eq_error {f : β → α → Except ε β} {as : List α} {b : β} {e : ε} :
    as.foldlM f b = .error e
      ↔ ∃ before a after b', as = before ++ a :: after ∧ before.foldlM f b = .ok b' ∧ f b' a = .error e := by
  induction as generalizing b with
  | nil =>
    rw [List.foldlM_nil]
    refine iff_of_false nofun ?_
    rintro ⟨before, a, after, _, has, _⟩
    exact absurd has.symm (List.append_ne_nil_of_right_ne_nil _ (List.cons_ne_nil _ _))
  | cons a as ih =>
    simp only [List.foldlM_cons, except_bind_eq_error, ih]
    constructor
    · rintro (ha | ⟨c, hc, before, x, after, b', rfl, hbefore, hx⟩)
      · exact ⟨[], a, as, b, rfl, rfl, ha⟩
      · refine ⟨a :: before, x, after, b', rfl, ?_, hx⟩
        rw [List.foldlM_cons, hc]
        exact hbefore
    · rintro ⟨before, x, after, b', has, hbefore, hx⟩
      cases before with
      | nil =>
        cases has
        cases hbefore
        exact .inl hx
      | cons y before =>
        cases has
        rw [List.foldlM_cons, except_bind_eq_ok] at hbefore
        obtain ⟨c, hc, hbefore⟩ := hbefore
        exact .inr ⟨c, hc, before, x, after, b', rfl, hbefore, hx⟩

end Checks

/-! ## Types -/

theorem ElementType.promote_self (t : ElementType) : t.promote t = some t := if_pos rfl

theorem ElementType.promoteAll_pair (a b : ElementType) : promoteAll [a, b] = a.promote b := by
  show a.promote b >>= some = a.promote b
  cases a.promote b <;> rfl

/-- The types of a list have a common type up to some place, and the next type has none with it. -/
def ElementType.PartAt (ts : List ElementType) (left right : ElementType) : Prop :=
  ∃ before after, ts = before ++ right :: after ∧ promoteAll before = some left ∧ left.promote right = none

/-- A converted value is of the type that it was converted to. -/
theorem Value.coerce_type {v w : Value} {t : ElementType} (h : v.coerce t = some w) : w.type = t := by
  unfold coerce at h
  split at h
  · next ht =>
    cases h
    exact ht
  · split at h
    case h_7 => cases h
    case h_3 | h_4 | h_6 =>
      cases h
      rfl
    -- the other conversions may fail, but have a fixed target as well
    all_goals
      obtain ⟨_, _, rfl⟩ := Option.map_eq_some_iff.mp h
      rfl

/-! ## The checks -/

namespace Checker

variable {c : Checker} {u : Unit}

theorem foldTypes_eq_ok {acc t : ElementType} {ts : List ElementType} :
    c.foldTypes acc ts = .ok t ↔ ts.foldlM ElementType.promote acc = some t := by
  induction ts generalizing acc with
  | nil =>
    rw [foldTypes, List.foldlM_nil]
    exact ⟨fun h => by cases h; rfl, fun h => by cases h; rfl⟩
  | cons x xs ih =>
    rw [foldTypes, List.foldlM_cons]
    cases hp : acc.promote x with
    | none => exact ⟨fun h => (nomatch h), fun h => (nomatch h)⟩
    | some y => exact ih

/-- The common type of a list is its promotion. -/
theorem commonType_eq_ok {ts : List ElementType} {t : ElementType} :
    c.commonType ts = .ok t ↔ ElementType.promoteAll ts = some t := by
  cases ts with
  | nil => exact ⟨fun h => (nomatch h), fun h => (nomatch h)⟩
  | cons x xs => exact foldTypes_eq_ok

theorem foldTypes_eq_error {acc : ElementType} {ts : List ElementType} {e : BuildError} :
    c.foldTypes acc ts = .error e ↔ ∃ before left right after, ts = before ++ right :: after
      ∧ before.foldlM ElementType.promote acc = some left ∧ left.promote right = none
      ∧ e = .noCommonType left right c.operator := by
  induction ts generalizing acc with
  | nil =>
    rw [foldTypes]
    refine iff_of_false nofun ?_
    rintro ⟨before, left, right, after, h, _⟩
    exact absurd h.symm (List.append_ne_nil_of_right_ne_nil _ (List.cons_ne_nil _ _))
  | cons t ts ih =>
    rw [foldTypes]
    cases hp : acc.promote t with
    | none =>
      constructor
      · intro h
        cases h
        exact ⟨[], acc, t, ts, rfl, rfl, hp, rfl⟩
      · rintro ⟨before, left, right, after, hts, hleft, hnone, rfl⟩
        cases before with
        | nil =>
          cases hts
          cases hleft
          rfl
        | cons x before =>
          -- the fold has stopped at the first type already
          cases hts
          rw [List.foldlM_cons, hp] at hleft
          cases hleft
    | some u =>
      show c.foldTypes u ts = .error e ↔ _
      rw [ih]
      constructor
      · rintro ⟨before, left, right, after, rfl, hleft, hnone, rfl⟩
        refine ⟨t :: before, left, right, after, rfl, ?_, hnone, rfl⟩
        rw [List.foldlM_cons, hp]
        exact hleft
      · rintro ⟨before, left, right, after, hts, hleft, hnone, rfl⟩
        cases before with
        | nil =>
          cases hts
          cases hleft
          rw [hp] at hnone
          cases hnone
        | cons x before =>
          cases hts
          rw [List.foldlM_cons, hp] at hleft
          exact ⟨before, left, right, after, rfl, hleft, hnone, rfl⟩

/-- The refusal of types without a common type names the first type that has none with those in front of it. -/
theorem commonType_eq_error {ts : List ElementType} {e : BuildError} (h : ts ≠ []) :
    c.commonType ts = .error e ↔ ∃ left right, ElementType.PartAt ts left right
      ∧ e = .noCommonType left right c.operator := by
  cases ts with
  | nil => exact absurd rfl h
  | cons t ts =>
    show c.foldTypes t ts = .error e ↔ _
    rw [foldTypes_eq_error]
    constructor
    · rintro ⟨before, left, right, after, rfl, hleft, hnone, rfl⟩
      exact ⟨left, right, ⟨t :: before, after, rfl, hleft, hnone⟩, rfl⟩
    · rintro ⟨left, right, ⟨before, after, hts, hleft, hnone⟩, rfl⟩
      cases before with
      | nil => cases hleft
      | cons x before =>
        cases hts
        exact ⟨before, left, right, after, rfl, hleft, hnone, rfl⟩

theorem checkCompatible_eq_ok {left right : ElementType} :
    c.checkCompatible left right = .ok u ↔ ∃ t, left.promote right = some t := by
  unfold checkCompatible
  rw [← ElementType.promoteAll_pair]
  constructor
  · intro h
    cases hc : c.commonType [left, right] with
    | error e => rw [hc] at h; cases h
    | ok t => exact ⟨t, commonType_eq_ok.mp hc⟩
  · rintro ⟨t, ht⟩
    rw [commonType_eq_ok.mpr ht]
    rfl

theorem checkCompatible_eq_error {left right : ElementType} {e : BuildError} :
    c.checkCompatible left right = .error e
      ↔ ¬ (∃ t, left.promote right = some t) ∧ e = .noCommonType left right c.operator := by
  have hstep : c.commonType [left, right] = c.foldTypes left [right] := rfl
  unfold checkCompatible
  rw [hstep, foldTypes]
  cases left.promote right with
  | some t => exact iff_of_false nofun fun h => h.1 ⟨t, rfl⟩
  | none =>
    constructor
    · intro h
      cases h
      exact ⟨nofun, rfl⟩
    · rintro ⟨_, rfl⟩
      rfl

theorem expectType_eq_ok {expected actual : ElementType} {role : String} :
    c.expectType expected actual role = .ok u ↔ expected = actual := guard_eq_ok

theorem expectBoolean_eq_ok {e : Expr} {role : String} :
    c.expectBoolean e role = .ok u ↔ e.type = .boolean :=
  expectType_eq_ok.trans eq_comm

theorem expectNumeric_eq_ok {t : ElementType} :
    c.expectNumeric t = .ok u ↔ t.isNumeric = true := guard_eq_ok

theorem expectScalar_eq_ok {e : Expr} {role : String} :
    c.expectScalar e role = .ok u ↔ e.shape = .scalar := by
  have hscalar : e.isScalar = true ↔ e.shape = .scalar := beq_iff_eq
  rw [← hscalar]
  exact guard_eq_ok

theorem expectCount_eq_ok {ok : Bool} {expected : String} {actual : Nat} :
    c.expectCount ok expected actual = .ok u ↔ ok = true := guard_eq_ok

theorem expectNumeric_eq_error {t : ElementType} {e : BuildError} :
    c.expectNumeric t = .error e ↔ ¬ t.isNumeric = true ∧ e = .invalidOperandType c.operator t := guard_eq_error

theorem expectScalar_eq_error {x : Expr} {role : String} {e : BuildError} :
    c.expectScalar x role = .error e
      ↔ x.shape ≠ .scalar ∧ e = .invalidArgument c.operator (role ++ " must be a scalar, got " ++ x.text) := by
  have hscalar : x.isScalar = true ↔ x.shape = .scalar := beq_iff_eq
  rw [Ne, ← hscalar]
  exact guard_eq_error

theorem expectCount_eq_error {ok : Bool} {expected : String} {actual : Nat} {e : BuildError} :
    c.expectCount ok expected actual = .error e ↔ ¬ ok = true ∧ e = .argumentCount c.operator expected actual :=
  guard_eq_error

/-- A list must not be empty. -/
theorem expectCount_isEmpty_eq_ok {α : Type} {as : List α} {expected : String} {actual : Nat} :
    c.expectCount (!as.isEmpty) expected actual = .ok u ↔ as ≠ [] := by
  rw [expectCount_eq_ok]
  simp

theorem expectCount_isEmpty_eq_error {α : Type} {as : List α} {expected : String} {actual : Nat} {e : BuildError} :
    c.expectCount (!as.isEmpty) expected actual = .error e
      ↔ as = [] ∧ e = .argumentCount c.operator expected actual := by
  rw [expectCount_eq_error]
  simp

theorem unaryOutput_eq_ok {rule : Option ElementType} {actual t : ElementType} :
    c.unaryOutput rule actual = .ok t ↔ rule = some t := by
  cases rule with
  | none => exact ⟨fun h => (nomatch h), fun h => (nomatch h)⟩
  | some r =>
    show Except.ok r = .ok t ↔ _
    rw [Except.ok.injEq, Option.some.injEq]

theorem binaryOutput_eq_ok {rule : Option ElementType} {left right t : ElementType} :
    c.binaryOutput rule left right = .ok t ↔ rule = some t := by
  cases rule with
  | none => exact ⟨fun h => (nomatch h), fun h => (nomatch h)⟩
  | some r =>
    show Except.ok r = .ok t ↔ _
    rw [Except.ok.injEq, Option.some.injEq]

theorem coerceLiteral_eq_ok {v w : Value} {target : ElementType} :
    c.coerceLiteral v target = .ok w ↔ v.coerce target = some w := by
  unfold coerceLiteral
  cases v.coerce target with
  | none => exact ⟨fun h => (nomatch h), fun h => (nomatch h)⟩
  | some x =>
    show Except.ok x = .ok w ↔ _
    rw [Except.ok.injEq, Option.some.injEq]

theorem checkCast_eq_ok {source target : ElementType} :
    checkCast source target = .ok u ↔ source.canCastTo target = true := guard_eq_ok

end Checker

end Columnar
