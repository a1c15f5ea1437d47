import Columnar.Proofs.Expr.Shape
import Columnar.Proofs.Session.Invariant

/-!
# `Proofs.Session.Typing` — types and shapes of all expressions within reach

## Contents
- `Sound.wellTyped`: what the heap guarantees of an expression within reach.
- `reachable_wellTyped`: every node obeys the rule of its kind.
- `reachable_shape_iff`: the shape says whether a column can be reached past all reductions.
-/

namespace Columnar.Session

/-- The nodes of an expression within reach are nodes of the heap, which all obey their rules. -/
theorem Sound.wellTyped [Hasher] {s : Session} {heap : List Expr} (h : s.Sound heap) {e : Expr}
    (he : s.Has e) : ∀ n ∈ e.walk, n.WellTyped := by
  intro n hn
  exact h.history.wellTyped n (h.history.walk_subset (h.has_mem he) hn)

/-- Every node in every expression within reach obeys the typing rule of its kind, however it was made: by a
construction, under another name, or again over equal operands. -/
theorem reachable_wellTyped [Hasher] {s : Session} (h : Reachable s) {e : Expr} (he : s.Has e) :
    ∀ n ∈ e.walk, n.WellTyped := by
  obtain ⟨heap, hsound⟩ := h.sound
  exact hsound.wellTyped he

/-- A filled column under a name of its own, over a literal that was converted. -/
theorem reachable_wellTyped_settled : @Reachable Orders.collide Orders.session
    ∧ Orders.session.Has (Orders.settled 7 (Orders.no 2) (some "settled"))
    ∧ ∀ n ∈ (Orders.settled 7 (Orders.no 2) (some "settled")).walk, n.WellTyped :=
  ⟨Orders.session_reachable, .returned List.mem_cons_self,
    @reachable_wellTyped Orders.collide _ Orders.session_reachable _ (.returned List.mem_cons_self)⟩

/-- The shape of an expression within reach is a sequence exactly if a column can be reached from it without
passing through a reduction, and a node that is no reduction hides no operand that yields one value per row. -/
theorem reachable_shape_iff [Hasher] {s : Session} (h : Reachable s) {e : Expr} (he : s.Has e) :
    (e.shape = .sequence ↔ ∃ column, column.isColumn = true ∧ Expr.Reaches column e)
      ∧ (e.shape = .scalar ↔ ¬ ∃ column, column.isColumn = true ∧ Expr.Reaches column e)
      ∧ (e.kind.isReduction = false → ∀ o ∈ e.operands, o.shape = .sequence → e.shape = .sequence) := by
  obtain ⟨heap, hsound⟩ := h.sound
  have htyped := hsound.wellTyped he
  have hshape := Expr.shape_eq_sequence_iff_reaches htyped
  refine ⟨hshape, ?_, ?_⟩
  · rw [← hshape]
    cases e.shape <;> decide
  · intro hkind o ho hseq
    rw [Expr.shape_eq_sequence_iff_operand (htyped e (Expr.mem_walk_self e))]
    exact Or.inr ⟨hkind, o, ho, hseq⟩

/-- A filled column yields one value per row. -/
theorem reachable_shape_iff_settled : @Reachable Orders.collide Orders.session
    ∧ Orders.session.Has (Orders.settled 3 (Orders.no 2) none)
    ∧ ((Orders.settled 3 (Orders.no 2) none).shape = .sequence
        ↔ ∃ column, column.isColumn = true ∧ Expr.Reaches column (Orders.settled 3 (Orders.no 2) none)) :=
  have hhas : Orders.session.Has (Orders.settled 3 (Orders.no 2) none) :=
    .returned (List.mem_cons_of_mem _ List.mem_cons_self)
  ⟨Orders.session_reachable, hhas,
    (@reachable_shape_iff Orders.collide _ Orders.session_reachable _ hhas).1⟩

end Columnar.Session
