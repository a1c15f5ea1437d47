import Columnar.Proofs.Session.Invariant

/-!
# `Proofs.Session.Sharing` — equal nodes of interned expressions are one node

## Contents
- `interning_shares`: what a cache guarantees in every reachable session, and what it means for the
  expressions that it has returned.
-/

namespace Columnar.Session

/-- Whatever was interned into a cache and however often it was cleared: no two of its nodes are equal, the
operands of its nodes are its own nodes, and it has everything that it returned since it was last cleared.
So if two such expressions have equal nodes anywhere, they have the very same node there. -/
theorem interning_shares [Hasher] {s : Session} (h : Reachable s) (i : Nat) :
    ((s.caches i).cache.nodes.Pairwise fun a b => ¬ a.same b = true)
      ∧ (∀ n ∈ (s.caches i).cache.nodes, ∀ o ∈ n.operands, o ∈ (s.caches i).cache.nodes)
      ∧ (∀ p ∈ (s.caches i).log, p.2 ∈ (s.caches i).cache.nodes ∧ p.2.same p.1 = true)
      ∧ ∀ p ∈ (s.caches i).log, ∀ q ∈ (s.caches i).log, ∀ a ∈ p.2.walk, ∀ b ∈ q.2.walk,
          a.same b = true → a.identical b = true := by
  obtain ⟨heap, hsound⟩ := h.sound
  obtain ⟨hshared, hreturned⟩ := hsound.caches_sound i
  refine ⟨hshared.distinct, fun n hn o ho => hshared.operands_subset n hn ho, hreturned, ?_⟩
  intro p hp q hq a ha b hb hab
  -- both nodes are in the cache, because the roots above them are
  have ha := hshared.walk_subset (hreturned p hp).1 ha
  have hb := hshared.walk_subset (hreturned q hq).1 hb
  rw [hshared.eq_of_same ha hb hab]
  exact Expr.identical_iff.mpr rfl

/-- Filling a column twice in the same way comes to the same nodes. -/
theorem interning_shares_orders : @Reachable Orders.collide Orders.session
    ∧ Orders.session.caches 0 = Orders.interned true
    ∧ ∀ p ∈ (Orders.interned true).log, ∀ q ∈ (Orders.interned true).log, ∀ a ∈ p.2.walk,
        ∀ b ∈ q.2.walk, a.same b = true → a.identical b = true :=
  ⟨Orders.session_reachable, rfl,
    (@interning_shares Orders.collide _ Orders.session_reachable 0).2.2.2⟩

end Columnar.Session
