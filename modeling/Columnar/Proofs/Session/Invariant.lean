import Columnar.Proofs.Cache.Sharing
import Columnar.Proofs.Collection.Apply
import Columnar.Proofs.Session.Growth

/-!
# `Proofs.Session.Invariant` — what every reachable session keeps

Whatever calls are made, all expressions within reach stand on one heap, all collections are sound over it,
and every cache shares its nodes and still has everything that it returned. One step may enlarge the heap,
which disturbs nothing that was there (`Sound.grow`); what the step itself adds is added afterwards.

## Contents
- `Interning.Sound`, `Session.Sound`: the invariant.
- `Sound.grow`, `Sound.addExpr`, `Sound.addCollection`, `Sound.setCache`: the parts of a step.
- `Step.sound`, `Reachable.sound`: one call, and any number of calls.
-/

namespace Columnar

/-- What holds of a cache with its log: it shares its nodes, and what it returned is in it and equal to what
was interned. -/
structure Interning.Sound (heap : List Expr) (n : Interning) : Prop where
  shared : n.cache.Shared heap
  returned : ∀ p ∈ n.log, p.2 ∈ n.cache.nodes ∧ p.2.same p.1 = true

theorem Interning.Sound.mono {heap larger : List Expr} {n : Interning} (h : n.Sound heap)
    (hsub : heap ⊆ larger) : n.Sound larger :=
  ⟨h.shared.mono hsub, h.returned⟩

theorem Interning.sound_empty (heap : List Expr) : Interning.Sound heap {} :=
  ⟨.empty heap, fun _ hp => absurd hp List.not_mem_nil⟩

namespace Session

variable [Hasher]

/-- The invariant of a session. -/
structure Sound (s : Session) (heap : List Expr) : Prop where
  history : Heap s.catalog heap s.supply
  exprs_subset : s.exprs ⊆ heap
  collections_sound : ∀ c ∈ s.collections, c.Sound s.catalog heap
  caches_sound : ∀ i, (s.caches i).Sound heap

variable {s s' : Session} {heap larger : List Expr}

namespace Sound

/-! ## The parts of a step -/

/-- Everything within reach is on the heap. -/
theorem has_mem (h : s.Sound heap) {e : Expr} (he : s.Has e) : e ∈ heap := by
  induction he with
  | returned he => exact h.exprs_subset he
  | field hc he => exact (h.collections_sound _ hc).fields_subset he
  | operand _ ho ih => exact h.history.operands_subset _ ih ho

/-- New nodes and new sources disturb nothing that is there. -/
theorem grow (h : s.Sound heap) {catalog : Catalog} {supply : Supply} (hcatalog : s.catalog ⊆ catalog)
    (hsub : heap ⊆ larger) (hlarger : Heap catalog larger supply) :
    Sound { s with supply, catalog } larger where
  history := hlarger
  exprs_subset := List.Subset.trans h.exprs_subset hsub
  collections_sound c hc := (h.collections_sound c hc).mono hcatalog hsub
  caches_sound i := (h.caches_sound i).mono hsub

theorem addExpr (h : s.Sound heap) {e : Expr} (he : e ∈ heap) :
    Sound { s with exprs := e :: s.exprs } heap :=
  { h with exprs_subset := List.cons_subset.mpr ⟨he, h.exprs_subset⟩ }

theorem addCollection (h : s.Sound heap) {c : Collection} (hc : c.Sound s.catalog heap) :
    Sound { s with collections := c :: s.collections } heap :=
  { h with collections_sound := List.forall_mem_cons.mpr ⟨hc, h.collections_sound⟩ }

theorem setCache (h : s.Sound heap) (i : Nat) {n : Interning} (hn : n.Sound heap) :
    Sound { s with caches := Function.update s.caches i n } heap := by
  refine { h with caches_sound := fun j => ?_ }
  show (Function.update s.caches i n j).Sound heap
  by_cases hj : j = i
  · subst hj
    rw [Function.update_self]
    exact hn
  · rw [Function.update_of_ne hj]
    exact h.caches_sound j

/-- A call that makes one expression. -/
theorem addGrown (h : s.Sound heap) {e : Expr} {supply : Supply}
    (hg : Grown s.catalog heap supply [e]) :
    ∃ larger, Sound { s with supply, exprs := e :: s.exprs } larger := by
  obtain ⟨larger, hsub, hlarger, he⟩ := hg
  have hgrown := h.grow (List.Subset.refl _) hsub hlarger
  exact ⟨larger, hgrown.addExpr (he List.mem_cons_self)⟩

end Sound

/-! ## One call -/

/-- Every call keeps the invariant, on a heap that may be larger. -/
theorem Step.sound (hs : Step s s') (h : s.Sound heap) : ∃ larger, s'.Sound larger := by
  cases hs with
  | construct k hargs hbuild =>
    exact h.addGrown (Construction.grown h.history (fun a ha => h.has_mem (hargs a ha)) hbuild)
  | function name call hf =>
    cases hf
    exact ⟨heap, { h with history := .function h.history }⟩
  | @source c supply name schema hmake =>
    obtain ⟨larger, hsub, hlarger, hc⟩ := Collection.make_sound h.history hmake
    exact ⟨larger, (h.grow (List.subset_cons_self _ _) hsub hlarger).addCollection hc⟩
  | select refs hc hrefs hr =>
    have hr := Collection.select_sound (h.collections_sound _ hc) (fun e he => h.has_mem (hrefs e he)) hr
    exact ⟨heap, h.addCollection hr⟩
  | switch cases hc hexprs hr =>
    -- the check of the sources only refuses; the node is that of any switch
    obtain ⟨_, _, hr⟩ := Build.check_eq_ok.mp hr
    refine h.addGrown (h.history.switchOn_grown ?_ (fun x hx => h.has_mem (hexprs x hx)) hr)
    intro e he
    cases he
  | applyToSequence o hc _ hr =>
    exact h.addGrown (Collection.apply_grown (h.collections_sound _ hc) h.history hr)
  | applyToCollection o hc _ hr =>
    obtain ⟨larger, hsub, hlarger, hr⟩ :=
      Collection.apply_sound (h.collections_sound _ hc) h.history hr
    exact ⟨larger, (h.grow (List.Subset.refl _) hsub hlarger).addCollection hr⟩
  | @intern e r cache supply i he hr =>
    obtain ⟨hshared, hreturned⟩ := h.caches_sound i
    obtain ⟨larger, hsub, hlarger, hc, hle, hrs, hsame⟩ :=
      Cache.intern_interned e h.history hshared (h.has_mem he)
    rw [hr] at hlarger hc hle hrs hsame
    have hr : r ∈ cache.nodes := hrs List.mem_cons_self
    have hn : Interning.Sound larger ⟨cache, (e, r) :: (s.caches i).log⟩ := by
      refine ⟨hc, List.forall_mem_cons.mpr ⟨⟨hr, (List.forall₂_cons.mp hsame).1⟩, ?_⟩⟩
      intro p hp
      -- a cache only gains nodes, so it still has what it returned before
      exact ⟨hle (hreturned p hp).1, (hreturned p hp).2⟩
    have hgrown := h.grow (List.Subset.refl _) hsub hlarger
    exact ⟨larger, (hgrown.addExpr (hc.nodes_subset hr)).setCache i hn⟩
  | clear i => exact ⟨heap, h.setCache i (Interning.sound_empty heap)⟩

/-! ## Any number of calls -/

theorem sound_start : Sound {} [] where
  history := .empty
  exprs_subset := List.nil_subset _
  collections_sound _ hc := absurd hc List.not_mem_nil
  caches_sound _ := Interning.sound_empty []

/-- Every reachable session keeps the invariant. -/
theorem Reachable.sound (h : Reachable s) : ∃ heap, s.Sound heap := by
  induction h with
  | start => exact ⟨[], sound_start⟩
  | step _ hs ih =>
    obtain ⟨heap, h⟩ := ih
    exact hs.sound h

end Session

end Columnar
