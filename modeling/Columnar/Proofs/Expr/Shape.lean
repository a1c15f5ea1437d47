import Columnar.Proofs.Expr.Equality

/-!
# `Proofs.Expr.Shape` — what the shape of an expression means

Every node has its shape from a rule of its own, which looks no deeper than the operands. Together the rules
say something about the whole tree: an expression yields one value per row exactly if a column can be reached
from its root without passing through a reduction.

## Contents
- `Expr.Reaches`: reaching a node along operands, with no reduction on the way.
- `Expr.shape_eq_sequence_iff_operand`: the step, at one node.
- `Expr.shape_eq_sequence_iff_reaches`: the meaning of the shape.
-/

namespace Columnar.Expr

/-- The target can be reached from an expression along operands, and no node on the way is a reduction. -/
inductive Reaches (target : Expr) : Expr → Prop
  | here : Reaches target target
  | under {e o} : e.kind.isReduction = false → o ∈ e.operands → Reaches target o → Reaches target e

/-- One node: it is a column, or is no reduction and passes the shape of an operand on. -/
theorem shape_eq_sequence_iff_operand {e : Expr} (h : e.WellTyped) :
    e.shape = .sequence ↔ e.isColumn = true
      ∨ (e.kind.isReduction = false ∧ ∃ o ∈ e.operands, o.shape = .sequence) := by
  have hrule := Kind.Typed.shape_eq_sequence_iff h
  simp only [List.mem_map, exists_exists_and_eq_and] at hrule
  exact hrule

/-- The induction is on the operands: the way from the root to a column goes on from one of them. -/
theorem shape_eq_sequence_iff_reaches {e : Expr} (h : ∀ n ∈ e.walk, n.WellTyped) :
    e.shape = .sequence ↔ ∃ column, column.isColumn = true ∧ Reaches column e := by
  induction e using Expr.induction with
  | step e ih =>
    have hops : ∀ o ∈ e.operands, ∀ n ∈ o.walk, n.WellTyped :=
      fun o ho n hn => h n (mem_walk_of_operand ho hn)
    rw [shape_eq_sequence_iff_operand (h e (mem_walk_self e))]
    constructor
    · rintro (hcolumn | ⟨hkind, o, ho, hshape⟩)
      · exact ⟨e, hcolumn, .here⟩
      · obtain ⟨column, hcolumn, hreach⟩ := (ih o ho (hops o ho)).mp hshape
        exact ⟨column, hcolumn, .under hkind ho hreach⟩
    · rintro ⟨column, hcolumn, hreach⟩
      cases hreach with
      | here => exact Or.inl hcolumn
      | @under _ o hkind ho hreach =>
        exact Or.inr ⟨hkind, o, ho, (ih o ho (hops o ho)).mpr ⟨column, hcolumn, hreach⟩⟩

end Columnar.Expr
