import Columnar.Cache
import Columnar.Proofs.Expr.Heap
import Mathlib.Data.List.Pairwise

/-!
# `Proofs.Cache.Sharing` — interning shares nodes at every level

The invariant of a cache (`Cache.Shared`) has to say that the operands of its nodes are its own nodes, not
only equal to some: this is what makes an expression over interned operands equal to a cached one only if it is
over the very same operands. Interning is followed on the heap, because its shortcut compares identities:
operands that are identical to the shared ones are the shared ones only where an identity belongs to one node.

## Contents
- `Cache.Shared`: no two equal nodes, closed under operands.
- `Cache.share_shared`: putting in one node whose operands are there.
- `Cache.candidate`: the node that interning looks up, once the operands are shared.
- `Cache.intern_interned`: interning keeps the invariant and gives back an equal node from the cache.
-/

namespace Columnar.Cache

/-- What holds of a cache over a heap: its nodes are on the heap, no two of them are equal, and it has the
operands of its nodes. -/
structure Shared (heap : List Expr) (c : Cache) : Prop where
  nodes_subset : c.nodes ⊆ heap
  distinct : c.nodes.Pairwise fun a b => ¬ a.same b = true
  operands_subset : ∀ n ∈ c.nodes, n.operands ⊆ c.nodes

namespace Shared

variable {heap : List Expr} {c : Cache}

theorem empty (heap : List Expr) : Shared heap {} :=
  ⟨List.nil_subset _, List.Pairwise.nil, fun _ hn => absurd hn List.not_mem_nil⟩

theorem mono {larger : List Expr} (h : Shared heap c) (hsub : heap ⊆ larger) : Shared larger c :=
  ⟨List.Subset.trans h.nodes_subset hsub, h.distinct, h.operands_subset⟩

/-- All nodes of a tree are in the cache if its root is. -/
theorem walk_subset (h : Shared heap c) {e : Expr} (he : e ∈ c.nodes) : e.walk ⊆ c.nodes :=
  fun n hn =>
    Expr.forall_walk (P := (· ∈ c.nodes)) (fun e he _ ho => h.operands_subset e he ho) he n hn

/-- Equal nodes of the cache are one node. -/
theorem eq_of_same (h : Shared heap c) {a b : Expr} (ha : a ∈ c.nodes) (hb : b ∈ c.nodes)
    (hab : a.same b = true) : a = b := by
  have hsymm : Std.Symm fun x y : Expr => ¬ x.same y = true :=
    ⟨fun _ _ hxy hyx => hxy (Expr.same_symm hyx)⟩
  by_contra hne
  exact h.distinct.forall ha hb hne hab

end Shared

/-! ## One node -/

section

variable {heap : List Expr} {c : Cache} {e found : Expr}

theorem find?_eq_some (h : c.find? e = some found) : found ∈ c.nodes ∧ found.same e = true := by
  unfold find? at h
  have hsame := List.find?_some h
  exact ⟨List.mem_of_find?_eq_some h, hsame⟩

theorem find?_eq_none (h : c.find? e = none) : ∀ n ∈ c.nodes, ¬ n.same e = true := by
  unfold find? at h
  exact List.find?_eq_none.mp h

/-- Sharing a node whose operands are in the cache keeps the invariant. -/
theorem share_shared (h : c.Shared heap) (he : e ∈ heap) (hos : e.operands ⊆ c.nodes) :
    (c.share e).2.Shared heap ∧ c.nodes ⊆ (c.share e).2.nodes
      ∧ (c.share e).1 ∈ (c.share e).2.nodes ∧ (c.share e).1.same e = true := by
  unfold share
  cases hf : c.find? e with
  | some found =>
    obtain ⟨hmem, hsame⟩ := find?_eq_some hf
    exact ⟨h, List.Subset.refl _, hmem, hsame⟩
  | none =>
    have hnew := find?_eq_none hf
    refine ⟨⟨?_, ?_, ?_⟩, List.subset_append_left _ _, by simp, Expr.same_refl e⟩
    · intro n hn
      rcases List.mem_append.mp hn with hn | hn
      · exact h.nodes_subset hn
      · rw [List.mem_singleton.mp hn]
        exact he
    · refine List.pairwise_append.mpr ⟨h.distinct, List.pairwise_singleton _ _, ?_⟩
      intro n hn x hx
      rw [List.mem_singleton.mp hx]
      exact hnew n hn
    · intro n hn o ho
      refine List.mem_append_left _ ?_
      rcases List.mem_append.mp hn with hn | hn
      · exact h.operands_subset n hn ho
      · rw [List.mem_singleton.mp hn] at ho
        exact hos ho

end

/-! ## Whole expressions -/

section

variable [Hasher] {catalog : Catalog} {heap : List Expr} {s : Supply} {c : Cache}

/-- What interning looks up once the operands are shared: the expression itself if they are its own, and else
a new node over them. -/
def candidate (e : Expr) (shared : List Expr) (s : Supply) : Expr × Supply :=
  if identicalAll shared e.operands then (e, s) else e.withOperands shared s

theorem intern_eq (e : Expr) (c : Cache) (s : Supply) :
    intern e c s =
      let (shared, c, s) := internList e.operands c s
      let (e', s) := candidate e shared s
      let (r, c) := c.share e'
      (r, c, s) := by
  cases e with
  | node i h k t sh n os => rw [intern]; rfl

/-- On a heap, identical operands are the operands themselves. -/
theorem eq_of_identicalAll (h : Heap catalog heap s) {as bs : List Expr} (ha : as ⊆ heap)
    (hb : bs ⊆ heap) (hab : identicalAll as bs = true) : as = bs := by
  unfold identicalAll at hab
  rw [isEqv_iff_forall₂] at hab
  rw [← List.forall₂_eq_eq_eq]
  refine forall₂_imp_of_mem hab fun x hx y hy hxy => ?_
  exact h.eq_of_id_eq x (ha hx) y (hb hy) (Expr.identical_iff.mp hxy)

/-- The candidate is equal to the expression, and its operands are the shared ones. -/
theorem candidate_spec (h : Heap catalog heap s) {e : Expr} {shared : List Expr} (he : e ∈ heap)
    (hshared : shared ⊆ heap) (hsame : Expr.AllSame shared e.operands) :
    Grown catalog heap (candidate e shared s).2 [(candidate e shared s).1]
      ∧ (candidate e shared s).1.operands = shared ∧ (candidate e shared s).1.same e = true := by
  unfold candidate
  by_cases hid : identicalAll shared e.operands = true
  · rw [if_pos hid]
    have hos := eq_of_identicalAll h hshared (h.operands_subset e he) hid
    exact ⟨.rfl h (by simpa using he), hos.symm, Expr.same_refl e⟩
  · rw [if_neg hid]
    exact ⟨h.grown_node (.rebuilt he hsame hshared), rfl, h.rebuilt_same he hshared hsame s⟩

/-- What interning expressions of a heap comes to: a larger heap and a larger cache, and for every expression
an equal one that is in the cache. -/
def Interned (catalog : Catalog) (heap : List Expr) (c : Cache) (es rs : List Expr) (c' : Cache)
    (s' : Supply) : Prop :=
  ∃ larger, heap ⊆ larger ∧ Heap catalog larger s' ∧ c'.Shared larger ∧ c.nodes ⊆ c'.nodes
    ∧ rs ⊆ c'.nodes ∧ Expr.AllSame rs es

/-- Interning one expression after the other, if each can be interned. -/
theorem internList_interned {es : List Expr}
    (ih : ∀ e ∈ es, ∀ {heap c s}, Heap catalog heap s → c.Shared heap → e ∈ heap →
      Interned catalog heap c [e] [(intern e c s).1] (intern e c s).2.1 (intern e c s).2.2)
    {heap : List Expr} {c : Cache} {s : Supply} (h : Heap catalog heap s) (hc : c.Shared heap)
    (hes : es ⊆ heap) :
    Interned catalog heap c es (internList es c s).1 (internList es c s).2.1
      (internList es c s).2.2 := by
  induction es generalizing heap c s with
  | nil => exact ⟨heap, List.Subset.refl _, h, hc, List.Subset.refl _, List.nil_subset _, .nil⟩
  | cons e es ihes =>
    obtain ⟨he, hes⟩ := List.cons_subset.mp hes
    obtain ⟨heap₁, hsub₁, h₁, hc₁, hle₁, hr₁, hsame₁⟩ := ih e List.mem_cons_self h hc he
    obtain ⟨heap₂, hsub₂, h₂, hc₂, hle₂, hr₂, hsame₂⟩ :=
      ihes (fun x hx => ih x (List.mem_cons_of_mem _ hx)) h₁ hc₁ (List.Subset.trans hes hsub₁)
    rw [internList]
    refine ⟨heap₂, List.Subset.trans hsub₁ hsub₂, h₂, hc₂, List.Subset.trans hle₁ hle₂, ?_, ?_⟩
    · exact List.cons_subset.mpr ⟨hle₂ (hr₁ List.mem_cons_self), hr₂⟩
    · exact .cons (List.forall₂_cons.mp hsame₁).1 hsame₂

/-- Interning keeps the invariant of the cache and gives back an equal node that is in it. The induction is on
the operands: they are shared first, so that the node that is looked up is made over nodes of the cache. -/
theorem intern_interned (e : Expr) {heap : List Expr} {c : Cache} {s : Supply}
    (h : Heap catalog heap s) (hc : c.Shared heap) (he : e ∈ heap) :
    Interned catalog heap c [e] [(intern e c s).1] (intern e c s).2.1 (intern e c s).2.2 := by
  induction e using Expr.induction generalizing heap c s with
  | step e ih =>
    obtain ⟨heap₁, hsub₁, h₁, hc₁, hle₁, hshared, hsame⟩ :=
      internList_interned ih h hc (h.operands_subset e he)
    rw [intern_eq]
    generalize internList e.operands c s = shared at *
    obtain ⟨shared, c₁, s₁⟩ := shared
    obtain ⟨⟨heap₂, hsub₂, h₂, hcand⟩, hos, hcsame⟩ :=
      candidate_spec h₁ (hsub₁ he) (List.Subset.trans hshared hc₁.nodes_subset) hsame
    obtain ⟨hc₂, hle₂, hr, hrsame⟩ := share_shared (hc₁.mono hsub₂) (hcand List.mem_cons_self)
      (by rw [hos]; exact hshared)
    refine ⟨heap₂, List.Subset.trans hsub₁ hsub₂, h₂, hc₂, List.Subset.trans hle₁ hle₂, ?_, ?_⟩
    · exact List.cons_subset.mpr ⟨hr, List.nil_subset _⟩
    · refine .cons ?_ .nil
      exact h₂.same_trans (hc₂.nodes_subset hr) (hcand List.mem_cons_self) (hsub₂ (hsub₁ he))
        hrsame hcsame

end

end Columnar.Cache
