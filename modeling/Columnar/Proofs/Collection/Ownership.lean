import Columnar.Collection.Basic
import Columnar.Proofs.Expr.Checker
import Columnar.Proofs.Expr.Equality

/-!
# `Proofs.Collection.Ownership` — expressions over one source

A collection takes an expression only if every column in it, however deep, is a column of its own source.

## Contents
- `Expr.mem_sources`: the sources of an expression are those of the columns in it.
- `Expr.Over`: every column is a column of one source.
- `Collection.checkOwned_eq_ok`, `Collection.checkOwned_eq_error`: what the check accepts, and what it refuses.
-/

namespace Columnar

namespace Expr

/-! ## Sources -/

theorem mem_insertSource {s x : SourceId} {ts : List SourceId} :
    x ∈ insertSource s ts ↔ x = s ∨ x ∈ ts := by
  induction ts with
  | nil => simp [insertSource]
  | cons t ts ih =>
    rw [insertSource]
    by_cases hlt : s.number < t.number
    · rw [if_pos hlt]
      simp
    · rw [if_neg hlt]
      by_cases heq : s.number = t.number
      · rw [if_pos heq]
        have hst : s = t := congrArg SourceId.mk heq
        simp [hst]
      · rw [if_neg heq, List.mem_cons, List.mem_cons, ih]
        exact or_left_comm

theorem mem_sources {e : Expr} {s : SourceId} :
    s ∈ e.sources ↔ ∃ n ∈ e.walk, n.kind.source? = some s := by
  have hfold : ∀ found : List SourceId, s ∈ found.foldr insertSource [] ↔ s ∈ found := by
    intro found
    induction found with
    | nil => rfl
    | cons t ts ih => rw [List.foldr_cons, mem_insertSource, ih, List.mem_cons]
  unfold sources
  rw [hfold, List.mem_filterMap]

/-! ## One source -/

/-- Every column in the expression is a column of the source. -/
def Over (source : SourceId) (e : Expr) : Prop :=
  ∀ n ∈ e.walk, ∀ s, n.kind.source? = some s → s = source

/-- An expression is over a source if its own node and all its operands are. -/
theorem over_iff {source : SourceId} {e : Expr} :
    e.Over source ↔
      (∀ s, e.kind.source? = some s → s = source) ∧ ∀ o ∈ e.operands, o.Over source := by
  constructor
  · intro h
    exact ⟨h e (mem_walk_self e), fun o ho n hn => h n (mem_walk_of_operand ho hn)⟩
  · rintro ⟨hown, hops⟩ n hn
    rw [walk_eq_cons] at hn
    rcases List.mem_cons.mp hn with rfl | hn
    · exact hown
    · obtain ⟨o, ho, hn⟩ := List.mem_flatMap.mp hn
      exact hops o ho n hn

end Expr

namespace Collection

variable {c : Collection}

theorem checkOwned_eq_ok {e : Expr} {u : Unit} : c.checkOwned e = .ok u ↔ e.Over c.source := by
  unfold checkOwned
  rw [guard_eq_ok, List.all_eq_true]
  constructor
  · intro h n hn s hs
    exact eq_of_beq (h s (Expr.mem_sources.mpr ⟨n, hn, hs⟩))
  · intro h s hs
    obtain ⟨n, hn, hs⟩ := Expr.mem_sources.mp hs
    exact beq_iff_eq.mpr (h n hn s hs)

theorem checkOwned_eq_error {e : Expr} {err : BuildError} :
    c.checkOwned e = .error err ↔ ¬ e.Over c.source ∧ err = .foreignField e.text c.name := by
  have howned : c.checkOwned e = .ok () ↔ e.sources.all (· == c.source) = true := guard_eq_ok
  rw [← checkOwned_eq_ok, howned]
  exact guard_eq_error

end Collection

end Columnar
