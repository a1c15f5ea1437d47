import Columnar.Proofs.Expr.Payload
import Columnar.Proofs.Expr.Typing

/-!
# `Proofs.Expr.Equality` — structural equality of expressions

## Contents
- `Expr.induction`, `Expr.forall_walk`: induction over the operands of a node, and down to all nodes.
- `Expr.same_iff`: structural equality as one statement about two nodes and their operands.
- `same_refl`, `same_symm`: the laws that hold of any two expressions. Transitivity needs that an identity
  belongs to one node, and stands beside the heap that guarantees it.
- `Expr.WellTyped.congr`: nodes of one kind over operands of equal signatures obey the same rule.
-/

namespace Columnar.Expr

/-! ## Induction -/

theorem sizeOf_lt_of_mem_operands {e o : Expr} (h : o ∈ e.operands) : sizeOf o < sizeOf e := by
  cases e with
  | node i hash k t s n os =>
    have hlt : sizeOf o < sizeOf os := List.sizeOf_lt_of_mem h
    simp only [node.sizeOf_spec]
    omega

/-- What holds of a node as soon as it holds of its operands holds of every expression. -/
theorem induction {motive : Expr → Prop}
    (step : ∀ e, (∀ o ∈ e.operands, motive o) → motive e) (e : Expr) : motive e := by
  refine step e fun o ho => ?_
  have hlt := sizeOf_lt_of_mem_operands ho
  exact induction step o
termination_by sizeOf e

theorem mem_walk_self (e : Expr) : e ∈ e.walk := by
  rw [walk_eq_cons]
  exact List.mem_cons_self

/-- The nodes of an operand are nodes of the expression. -/
theorem mem_walk_of_operand {e o n : Expr} (ho : o ∈ e.operands) (hn : n ∈ o.walk) : n ∈ e.walk := by
  rw [walk_eq_cons]
  exact List.mem_cons_of_mem _ (List.mem_flatMap.mpr ⟨o, ho, hn⟩)

/-- A property that passes from nodes to their operands holds of all nodes of a tree. -/
theorem forall_walk {P : Expr → Prop} (hP : ∀ e, P e → ∀ o ∈ e.operands, P o) {e : Expr} (he : P e) :
    ∀ n ∈ e.walk, P n := by
  induction e using Expr.induction with
  | step e ih =>
    intro n hn
    rw [walk_eq_cons, List.mem_cons, List.mem_flatMap] at hn
    rcases hn with rfl | ⟨o, ho, hn⟩
    · exact he
    · exact ih o ho (hP e he o ho) n hn

/-! ## Equality -/

/-- Two lists of expressions are equal item by item. -/
abbrev AllSame (as bs : List Expr) : Prop := List.Forall₂ (fun a b => a.same b = true) as bs

/-- Two expressions are equal if they are one node, or have the same hash, equal fields and equal
operands. -/
theorem same_iff {a b : Expr} :
    a.same b = true ↔ a.id = b.id ∨ (a.hash = b.hash ∧ a.type = b.type ∧ a.shape = b.shape
      ∧ a.kind.same b.kind = true ∧ a.givenName = b.givenName ∧ AllSame a.operands b.operands) := by
  cases a with
  | node i h k t s n os =>
    cases b with
    | node i' h' k' t' s' n' os' =>
      rw [same, sameList_eq_isEqv]
      simp only [Bool.or_eq_true, Bool.and_eq_true, beq_iff_eq, and_assoc, isEqv_iff_forall₂]
      rfl

theorem same_of_id_eq {a b : Expr} (h : a.id = b.id) : a.same b = true := same_iff.mpr (Or.inl h)

theorem same_refl (e : Expr) : e.same e = true := same_of_id_eq rfl

theorem same_symm {a b : Expr} (h : a.same b = true) : b.same a = true := by
  induction a using Expr.induction generalizing b with
  | step a ih =>
    rw [same_iff] at h ⊢
    rcases h with hid | ⟨hh, ht, hs, hk, hn, hos⟩
    · exact Or.inl hid.symm
    · refine Or.inr ⟨hh.symm, ht.symm, hs.symm, Kind.same_symm hk, hn.symm, ?_⟩
      exact (forall₂_imp_of_mem hos fun o ho _ _ => ih o ho).flip

theorem identical_iff {a b : Expr} : a.identical b = true ↔ a.id = b.id := by
  unfold identical
  exact beq_iff_eq

/-! ## Typing -/

/-- The rule of a kind sees the signatures of the operands only. -/
theorem WellTyped.congr {a b : Expr} (h : a.WellTyped) (hk : b.kind = a.kind)
    (hs : b.signature = a.signature)
    (hos : b.operands.map signature = a.operands.map signature) : b.WellTyped := by
  unfold WellTyped at h ⊢
  rw [hk, hs, hos]
  exact h

end Columnar.Expr
