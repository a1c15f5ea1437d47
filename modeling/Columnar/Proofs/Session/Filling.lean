import Columnar.Proofs.Session.Typing
import Columnar.Proofs.Value.Promotion

/-!
# `Proofs.Session.Filling` — literals fill what expressions of their type fill

What stands in for missing values is checked in two ways: a literal is converted, and of anything else only the
type is seen. Both ways accept what promotes to the type of the receiver, but for integers that would have to be
rounded. A literal that is accepted besides keeps its number.

## Contents
- `Expr.StandsIn`: what becomes of a value that is to stand in.
- `fillMissing_of_sequence`, `fillMissing_expression_iff`, `fillMissing_literal_iff`: what is accepted.
- `reachable_fillMissing`: filling with any expression within reach.
-/

namespace Columnar

namespace Expr

variable {e value fill : Expr} {t : ElementType}

/-- What stands in for missing values of a type: a single value, namely the one that was given, or a literal of just
that type that was made for the one given. If the type has no room for all values like the one given, that one
is a number, and the new literal denotes it. -/
structure StandsIn (fill value : Expr) (t : ElementType) : Prop where
  scalar : fill.shape = .scalar
  kept : value.kind.literal? = none → fill = value
  converted : ∀ v, value.kind.literal? = some v →
    fill.type = t ∧ ∃ w, fill.kind = .literal w ∧ w.type = t ∧ v.coerce t = some w
      ∧ (t.promote value.type ≠ some t → ∃ n, v.number? = some n ∧ w.number? = some n)

/-- A literal is of the type of its value, and single. -/
theorem WellTyped.literal (h : value.WellTyped) {v : Value} (hv : value.kind.literal? = some v) :
    value.type = v.type ∧ value.shape = .scalar := by
  unfold WellTyped at h
  cases hkind : value.kind with
  | literal u =>
    rw [hkind] at h hv
    cases hv
    generalize value.operands.map signature = operands at h
    generalize hsignature : value.signature = result at h
    cases h
    exact ⟨congrArg Signature.type hsignature, congrArg Signature.shape hsignature⟩
  | _ =>
    rw [hkind] at hv
    cases hv

variable [Hasher] {s : Supply} {r : Expr × Supply}

/-- A value for every row is refused, whatever the types. -/
theorem fillMissing_of_sequence (h : value.shape ≠ .scalar) :
    e.fillMissing value s
      = .error (.invalidArgument "fillna" ("fill value must be a scalar, got " ++ value.text)) := by
  have hscalar : ¬ value.isScalar = true := by
    intro hscalar
    exact h (beq_iff_eq.mp hscalar)
  have hcheck : Checker.expectScalar ⟨"fillna"⟩ value "fill value"
      = .error (.invalidArgument "fillna" ("fill value must be a scalar, got " ++ value.text)) := by
    unfold Checker.expectScalar
    rw [if_neg hscalar]
    rfl
  unfold fillMissing
  rw [hcheck]
  rfl

/-- Of a value that is no literal only the type counts. -/
theorem fillMissing_expression_iff (hscalar : value.shape = .scalar) (hliteral : value.kind.literal? = none) :
    (∃ r, e.fillMissing value s = .ok r) ↔ e.type.promote value.type = some e.type := by
  simp [fillMissing_eq_ok, fill_eq_ok, hscalar, hliteral]

/-- A literal must convert. -/
theorem fillMissing_literal_iff (h : value.WellTyped) {v : Value} (hv : value.kind.literal? = some v) :
    (∃ r, e.fillMissing value s = .ok r) ↔ (v.coerce e.type).isSome = true := by
  rw [Option.isSome_iff_exists]
  constructor
  · rintro ⟨r, hr⟩
    obtain ⟨_, f, s', hfill, _⟩ := fillMissing_eq_ok.mp hr
    rcases fill_eq_ok.mp hfill with ⟨u, w, hu, hw, _⟩ | ⟨hnone, _⟩
    · rw [hv] at hu
      cases hu
      exact ⟨w, hw⟩
    · rw [hv] at hnone
      cases hnone
  · rintro ⟨w, hw⟩
    have hfill : e.fill value s = .ok (s.node (.literal w) w.type .scalar none []) :=
      fill_eq_ok.mpr (.inl ⟨v, w, hv, hw, rfl⟩)
    exact ⟨_, fillMissing_eq_ok.mpr ⟨(h.literal hv).2, _, _, hfill, rfl⟩⟩

/-- The outcome is like the receiver, which is kept, and what was given stands in. -/
theorem fillMissing_standsIn (h : value.WellTyped) (hr : e.fillMissing value s = .ok r) :
    r.1.kind = .fillMissing ∧ r.1.type = e.type ∧ r.1.shape = e.shape
      ∧ ∃ fill, r.1.operands = [e, fill] ∧ fill.StandsIn value e.type := by
  obtain ⟨hscalar, fill, s', hfill, rfl⟩ := fillMissing_eq_ok.mp hr
  refine ⟨rfl, rfl, rfl, fill, rfl, ?_⟩
  rcases fill_eq_ok.mp hfill with ⟨v, w, hv, hw, hmade⟩ | ⟨hnone, _, hgiven⟩
  · -- a literal was made anew, of the converted value
    cases hmade
    refine ⟨rfl, fun hnone => ?_, fun u hu => ?_⟩
    · rw [hv] at hnone
      cases hnone
    · rw [hv] at hu
      cases hu
      have htype : w.type = e.type := Value.coerce_type hw
      refine ⟨htype, w, rfl, htype, hw, fun hpromote => ?_⟩
      rw [(h.literal hv).1] at hpromote
      exact Value.coerce_number?_eq hw hpromote
  · cases hgiven
    refine ⟨hscalar, fun _ => rfl, fun u hu => ?_⟩
    rw [hnone] at hu
    cases hu

end Expr

namespace Session

/-- Any expression may be filled with any value within reach that is single. A value that is no literal is accepted
exactly if it promotes to the type of the receiver. A literal that promotes to it is accepted too, except for an
integer of 64 bits that would have to be rounded to become a double. What comes out is of the type and shape of the
receiver, over the receiver itself and what stands in. A value for every row is refused with one and the same error,
whatever the types. -/
theorem reachable_fillMissing [Hasher] {s : Session} (h : Reachable s) {value : Expr} (hvalue : s.Has value) (e : Expr)
    (supply : Supply) :
    (value.shape ≠ .scalar → e.fillMissing value supply
        = .error (.invalidArgument "fillna" ("fill value must be a scalar, got " ++ value.text)))
      ∧ (value.shape = .scalar → value.kind.literal? = none →
        ((∃ r, e.fillMissing value supply = .ok r) ↔ e.type.promote value.type = some e.type))
      ∧ (∀ v, value.kind.literal? = some v → e.type.promote value.type = some e.type →
        ((∃ r, e.fillMissing value supply = .ok r) ↔ ¬ v.Unrepresentable e.type))
      ∧ ∀ r, e.fillMissing value supply = .ok r →
        r.1.kind = .fillMissing ∧ r.1.type = e.type ∧ r.1.shape = e.shape
          ∧ ∃ fill, r.1.operands = [e, fill] ∧ fill.StandsIn value e.type := by
  obtain ⟨heap, hsound⟩ := h.sound
  have htyped : value.WellTyped := hsound.wellTyped hvalue value (Expr.mem_walk_self value)
  refine ⟨Expr.fillMissing_of_sequence, Expr.fillMissing_expression_iff, ?_, ?_⟩
  · intro v hv hpromote
    rw [(htyped.literal hv).1] at hpromote
    rw [Expr.fillMissing_literal_iff htyped hv]
    exact Value.coerce_isSome_iff_of_promote hpromote
  · intro r hr
    exact Expr.fillMissing_standsIn htyped hr

/-- A literal may stand in for missing values of a column, and a filled column may not. -/
theorem reachable_fillMissing_orders : @Reachable Orders.collide Orders.session
    ∧ Orders.session.Has (Orders.no 1) ∧ Orders.session.Has (Orders.settled 3 (Orders.no 2) none)
    ∧ (∃ r, @Expr.fillMissing Orders.collide Orders.paid (Orders.no 1) {} = .ok r)
    ∧ @Expr.fillMissing Orders.collide Orders.paid (Orders.settled 3 (Orders.no 2) none) {}
      = .error (.invalidArgument "fillna" "fill value must be a scalar, got fillna(paid, false)") := by
  let _ : Hasher := Orders.collide
  have hliteral : Orders.session.Has (Orders.no 1) := .returned (by simp [Orders.session])
  have hsettled : Orders.session.Has (Orders.settled 3 (Orders.no 2) none) := .returned (by simp [Orders.session])
  obtain ⟨_, _, haccepted, _⟩ := reachable_fillMissing Orders.session_reachable hliteral Orders.paid {}
  obtain ⟨hrefused, _⟩ := reachable_fillMissing Orders.session_reachable hsettled Orders.paid {}
  have hfits : ¬ (Value.boolean false).Unrepresentable .boolean := Value.not_unrepresentable (.inl nofun)
  have htext : (Orders.settled 3 (Orders.no 2) none).text = "fillna(paid, false)" := by decide
  refine ⟨Orders.session_reachable, hliteral, hsettled, (haccepted _ rfl rfl).mpr hfits, ?_⟩
  rw [hrefused nofun, htext]
  rfl

end Session

end Columnar
