import Columnar.Proofs.Cache.Contents
import Columnar.Proofs.Session.Equality

/-!
# `Proofs.Session.Contents` — what a cache has

A cache is a set of expressions up to equality: it has exactly what was interned since it was last cleared,
with everything below, and each of these once. The order of calls and their repetition leave no trace.

## Contents
- `Interning.Traced`: every node comes from an expression of the log. `Step.traced`, `Reachable.traced`.
- `Interning.contents`: the contents of what was interned and of all that is below.
- `Orders.swapped`: the calls of `Orders.session` in another order.
- `reachable_contains_iff`: look-ups and sizes, by the log alone.
-/

namespace Columnar

/-! ## Where nodes come from -/

/-- What holds of a cache with its log: its nodes are equal to nodes of the expressions that were interned, and
what was returned for an expression is equal to it. -/
structure Interning.Traced (n : Interning) : Prop where
  origin : ∀ e ∈ n.cache.nodes, ∃ p ∈ n.log, ∃ m ∈ p.1.walk, e.Alike m
  returned : ∀ p ∈ n.log, p.2.Alike p.1

/-- The contents of all nodes of the expressions that were interned. -/
def Interning.contents (n : Interning) : Set Expr.Content :=
  { q | ∃ p ∈ n.log, ∃ m ∈ p.1.walk, m.content = q }

theorem Interning.traced_empty : Interning.Traced {} :=
  ⟨fun _ he => absurd he List.not_mem_nil, fun _ hp => absurd hp List.not_mem_nil⟩

namespace Session

variable [Hasher] {s s' : Session} {heap : List Expr}

/-- Interning an expression adds nodes that are equal to nodes of this expression. -/
theorem Sound.traced_intern (h : s.Sound heap) (i : Nat) {e r : Expr} {cache : Cache} {supply : Supply}
    (he : s.Has e) (hr : (s.caches i).cache.intern e s.supply = (r, cache, supply))
    (ht : (s.caches i).Traced) : Interning.Traced ⟨cache, (e, r) :: (s.caches i).log⟩ := by
  have hshared := (h.caches_sound i).shared
  have he := h.has_mem he
  have horigin := Cache.intern_origin e h.history hshared he
  obtain ⟨larger, hsub, hlarger, hc, _, _, halike⟩ := Cache.intern_alike h.history hshared he
  rw [hr] at horigin hlarger hc halike
  constructor
  · intro n hn
    rcases horigin n hn with hold | ⟨m, hm, hnm, _⟩
    · obtain ⟨p, hp, m, hm, hnm⟩ := ht.origin n hold
      exact ⟨p, List.mem_cons_of_mem _ hp, m, hm, hnm⟩
    · refine ⟨(e, r), List.mem_cons_self, m, hm, ?_⟩
      have hmem := hsub (h.history.walk_subset he hm)
      exact (hlarger.same_iff_alike (hc.nodes_subset hn) hmem).mp hnm
  · exact List.forall_mem_cons.mpr ⟨halike, ht.returned⟩

/-- Every call keeps all caches traced. -/
theorem Step.traced (hs : Step s s') (h : s.Sound heap) (ht : ∀ i, (s.caches i).Traced) :
    ∀ i, (s'.caches i).Traced := by
  cases hs with
  | intern i he hr =>
    have hn := h.traced_intern i he hr (ht i)
    exact (Function.forall_update_iff s.caches fun _ n => n.Traced).mpr ⟨hn, fun j _ => ht j⟩
  | clear i =>
    have hn := Interning.traced_empty
    exact (Function.forall_update_iff s.caches fun _ n => n.Traced).mpr ⟨hn, fun j _ => ht j⟩
  | construct | function | source | select | switch | applyToSequence | applyToCollection => exact ht

/-- In every reachable session, all caches are traced. -/
theorem Reachable.traced (h : Reachable s) : ∀ i, (s.caches i).Traced := by
  induction h with
  | start => exact fun _ => Interning.traced_empty
  | step hreach hs ih =>
    obtain ⟨heap, hsound⟩ := hreach.sound
    exact hs.traced hsound ih

end Session

/-! ## Nodes and log -/

section

variable {heap : List Expr} {n : Interning}

/-- The nodes of the cache have exactly the contents of the nodes that were interned. -/
theorem Interning.contents_eq (hn : n.Sound heap) (ht : n.Traced) :
    n.contents = { q | ∃ e ∈ n.cache.nodes, e.content = q } := by
  ext q
  constructor
  · rintro ⟨p, hp, m, hm, rfl⟩
    -- the node that was returned is walked in step with the one that was interned
    obtain ⟨e, he, hem⟩ := exists_of_forall₂ (ht.returned p hp).walk hm
    exact ⟨e, hn.shared.walk_subset (hn.returned p hp).1 he, Expr.content_eq_iff.mpr hem⟩
  · rintro ⟨e, he, rfl⟩
    obtain ⟨p, hp, m, hm, hem⟩ := ht.origin e he
    exact ⟨p, hp, m, hm, Expr.content_eq_iff.mpr hem.symm⟩

/-- A look-up succeeds for what has the content of a node that was interned. -/
theorem Interning.contains_iff_content [Hasher] {catalog : Catalog} {s : Supply}
    (h : Heap catalog heap s) (hn : n.Sound heap) (ht : n.Traced) {x : Expr} (hx : x ∈ heap) :
    n.cache.contains x = true ↔ x.content ∈ n.contents := by
  rw [Cache.contains_iff, Interning.contents_eq hn ht]
  constructor
  · rintro ⟨e, he, hex⟩
    have hex := (h.same_iff_alike (hn.shared.nodes_subset he) hx).mp hex
    exact ⟨e, he, Expr.content_eq_iff.mpr hex⟩
  · rintro ⟨e, he, hex⟩
    have hex := Expr.content_eq_iff.mp hex
    exact ⟨e, he, (h.same_iff_alike (hn.shared.nodes_subset he) hx).mpr hex⟩

/-- A cache is empty as long as nothing was interned. -/
theorem Interning.isEmpty_iff (hn : n.Sound heap) (ht : n.Traced) :
    n.cache.isEmpty = true ↔ n.log = [] := by
  unfold Cache.isEmpty
  rw [List.isEmpty_iff]
  constructor
  · intro hnodes
    refine List.eq_nil_iff_forall_not_mem.mpr fun p hp => ?_
    have hmem := (hn.returned p hp).1
    rw [hnodes] at hmem
    exact List.not_mem_nil hmem
  · intro hlog
    refine List.eq_nil_iff_forall_not_mem.mpr fun e he => ?_
    obtain ⟨p, hp, _⟩ := ht.origin e he
    rw [hlog] at hp
    exact List.not_mem_nil hp

/-- The contents depend on which expressions were interned, up to equality, and on nothing else. -/
theorem Interning.contents_subset {n n' : Interning}
    (h : ∀ p ∈ n.log, ∃ q ∈ n'.log, p.1.Alike q.1) : n.contents ⊆ n'.contents := by
  rintro _ ⟨p, hp, m, hm, rfl⟩
  obtain ⟨q, hq, hpq⟩ := h p hp
  obtain ⟨k, hk, hkm⟩ := exists_of_forall₂ hpq.symm.walk hm
  exact ⟨q, hq, k, hk, Expr.content_eq_iff.mpr hkm⟩

end

/-! ## Orders of calls -/

/-- The two filled forms of a column are interned in the other order. -/
def Orders.swapped : Session :=
  { filled with
    supply := ⟨7, 2, 0⟩
    exprs := settled 5 (no 4) none :: settled 5 (no 4) none :: filled.exprs
    caches := Function.update
      (Function.update (fun _ => {}) 0
        ⟨⟨[paid, no 4, settled 5 (no 4) none]⟩, [(settled 5 (no 4) none, settled 5 (no 4) none)]⟩) 0
      ⟨⟨[paid, no 4, settled 5 (no 4) none]⟩,
        [(settled 3 (no 2) none, settled 5 (no 4) none), (settled 5 (no 4) none, settled 5 (no 4) none)]⟩ }

theorem Orders.swapped_reachable : @Session.Reachable collide swapped := by
  let _ : Hasher := collide
  have hfirst : Session.Reachable
      { filled with
        exprs := settled 5 (no 4) none :: filled.exprs
        caches := Function.update (fun _ => {}) 0
          ⟨⟨[paid, no 4, settled 5 (no 4) none]⟩, [(settled 5 (no 4) none, settled 5 (no 4) none)]⟩ } :=
    .step filled_reachable (.intern 0 (.returned List.mem_cons_self) rfl)
  exact .step hfirst
    (.intern 0 (.returned (List.mem_cons_of_mem _ (List.mem_cons_of_mem _ List.mem_cons_self))) rfl)

namespace Session

/-- In every reachable session: a cache has what is equal to some node of an expression that was interned since
it was last cleared, and nothing else; its size is the number of contents of these nodes; and it is empty
exactly if nothing was interned. So in any two reachable sessions, two caches into which the same expressions
were interned, in whatever order and however often each, are of one size and have the same expressions. -/
theorem reachable_contains_iff [Hasher] {s : Session} (h : Reachable s) (i : Nat) :
    (∀ x, s.Has x → ((s.caches i).cache.contains x = true
        ↔ ∃ p ∈ (s.caches i).log, ∃ m ∈ p.1.walk, x.Alike m))
      ∧ ((s.caches i).cache.size : ℕ∞) = (s.caches i).contents.encard
      ∧ ((s.caches i).cache.isEmpty = true ↔ (s.caches i).log = [])
      ∧ ∀ (s' : Session) (j : Nat), Reachable s' →
          (∀ p ∈ (s.caches i).log, ∃ q ∈ (s'.caches j).log, p.1.Alike q.1) →
          (∀ q ∈ (s'.caches j).log, ∃ p ∈ (s.caches i).log, q.1.Alike p.1) →
          (s.caches i).cache.size = (s'.caches j).cache.size
            ∧ ∀ x x', s.Has x → s'.Has x' → x.Alike x' →
                (s.caches i).cache.contains x = (s'.caches j).cache.contains x' := by
  obtain ⟨heap, hsound⟩ := h.sound
  have hn := hsound.caches_sound i
  have ht := h.traced i
  have hsize : ((s.caches i).cache.size : ℕ∞) = (s.caches i).contents.encard := by
    rw [Interning.contents_eq hn ht]
    exact hn.shared.size_eq hsound.history
  refine ⟨fun x hx => ?_, hsize, Interning.isEmpty_iff hn ht, ?_⟩
  · rw [Interning.contains_iff_content hsound.history hn ht (hsound.has_mem hx)]
    constructor
    · rintro ⟨p, hp, m, hm, hmx⟩
      exact ⟨p, hp, m, hm, (Expr.content_eq_iff.mp hmx).symm⟩
    · rintro ⟨p, hp, m, hm, hxm⟩
      exact ⟨p, hp, m, hm, Expr.content_eq_iff.mpr hxm.symm⟩
  · intro s' j h' hto hfrom
    obtain ⟨heap', hsound'⟩ := h'.sound
    have hn' := hsound'.caches_sound j
    have ht' := h'.traced j
    have hcontents : (s.caches i).contents = (s'.caches j).contents :=
      Set.Subset.antisymm (Interning.contents_subset hto) (Interning.contents_subset hfrom)
    constructor
    · have hsize' := hn'.shared.size_eq hsound'.history
      rw [← Interning.contents_eq hn' ht', ← hcontents, ← hsize] at hsize'
      exact_mod_cast hsize'.symm
    · intro x x' hx hx' hxx'
      rw [Bool.eq_iff_iff, Interning.contains_iff_content hsound.history hn ht (hsound.has_mem hx),
        Interning.contains_iff_content hsound'.history hn' ht' (hsound'.has_mem hx'), hcontents,
        Expr.content_eq_iff.mpr hxx']

/-- Two equal forms of a column, interned in both orders. -/
theorem reachable_contains_iff_swapped : @Reachable Orders.collide Orders.session
    ∧ @Reachable Orders.collide Orders.swapped
    ∧ (∀ p ∈ (Orders.session.caches 0).log, ∃ q ∈ (Orders.swapped.caches 0).log, p.1.Alike q.1)
    ∧ (∀ q ∈ (Orders.swapped.caches 0).log, ∃ p ∈ (Orders.session.caches 0).log, q.1.Alike p.1)
    ∧ Orders.session.Has (Orders.settled 5 (Orders.no 4) none)
    ∧ Orders.swapped.Has (Orders.settled 5 (Orders.no 4) none)
    ∧ (Orders.session.caches 0).cache.size = (Orders.swapped.caches 0).cache.size
    ∧ (Orders.session.caches 0).cache.contains (Orders.settled 5 (Orders.no 4) none)
        = (Orders.swapped.caches 0).cache.contains (Orders.settled 5 (Orders.no 4) none) := by
  have hto : ∀ p ∈ (Orders.session.caches 0).log, ∃ q ∈ (Orders.swapped.caches 0).log, p.1.Alike q.1 := by
    intro p hp
    rcases List.mem_cons.mp hp with rfl | hp
    · exact ⟨_, List.mem_cons_of_mem _ List.mem_cons_self, .refl _⟩
    · cases List.mem_singleton.mp hp
      exact ⟨_, List.mem_cons_self, .refl _⟩
  have hfrom : ∀ q ∈ (Orders.swapped.caches 0).log, ∃ p ∈ (Orders.session.caches 0).log, q.1.Alike p.1 := by
    intro q hq
    rcases List.mem_cons.mp hq with rfl | hq
    · exact ⟨_, List.mem_cons_of_mem _ List.mem_cons_self, .refl _⟩
    · cases List.mem_singleton.mp hq
      exact ⟨_, List.mem_cons_self, .refl _⟩
  have hhas : Orders.session.Has (Orders.settled 5 (Orders.no 4) none) := .returned (by simp [Orders.session])
  have hhas' : Orders.swapped.Has (Orders.settled 5 (Orders.no 4) none) := .returned List.mem_cons_self
  have hboth := (@reachable_contains_iff Orders.collide _ Orders.session_reachable 0).2.2.2 _ 0
    Orders.swapped_reachable hto hfrom
  exact ⟨Orders.session_reachable, Orders.swapped_reachable, hto, hfrom, hhas, hhas', hboth.1,
    hboth.2 _ _ hhas hhas' (.refl _)⟩

end Session

end Columnar
