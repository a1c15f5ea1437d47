import Columnar.Proofs.Expr.Query
import Columnar.Proofs.Session.Contents

/-!
# `Proofs.Session.Interning` — what interning gives back

## Contents
- `Has.mono`, `Reachable.has_logged`: what is within reach stays there, and what was interned is within reach.
- `Sound.intern_alike`: the result is equal to the expression, all the way down.
- `Sound.intern_new`: an expression that is new to the cache comes back itself.
- `Sound.intern_cached`: for what the cache has, the cached node comes back.
- `reachable_intern_faithful`: these three, in every reachable session.
-/

namespace Columnar.Session

/-! ## Reach -/

theorem Has.mono {s s' : Session} (hexprs : s.exprs ⊆ s'.exprs)
    (hcollections : s.collections ⊆ s'.collections) {e : Expr} (h : s.Has e) : s'.Has e := by
  induction h with
  | returned he => exact .returned (hexprs he)
  | field hc he => exact .field (hcollections hc) he
  | operand _ ho ih => exact .operand ih ho

section

variable [Hasher] {s s' : Session}

/-- What is within reach stays within reach. -/
theorem Step.has (hs : Step s s') {e : Expr} (he : s.Has e) : s'.Has e := by
  cases hs with
  | construct | switch | applyToSequence | intern =>
    refine Has.mono ?_ ?_ he
    · exact List.subset_cons_self _ _
    · exact List.Subset.refl _
  | source | select | applyToCollection =>
    refine Has.mono ?_ ?_ he
    · exact List.Subset.refl _
    · exact List.subset_cons_self _ _
  | function | clear =>
    refine Has.mono ?_ ?_ he
    · exact List.Subset.refl _
    · exact List.Subset.refl _

/-- Whatever was interned is within reach. -/
theorem Reachable.has_logged (h : Reachable s) : ∀ i, ∀ p ∈ (s.caches i).log, s.Has p.1 := by
  induction h with
  | start => exact fun _ p hp => absurd hp List.not_mem_nil
  | @step s s' _ hs ih =>
    have hold : ∀ i, ∀ p ∈ (s.caches i).log, s'.Has p.1 := fun i p hp => hs.has (ih i p hp)
    have hset : ∀ (i : Nat) (n : Interning), (∀ p ∈ n.log, s'.Has p.1) →
        ∀ j, ∀ p ∈ (Function.update s.caches i n j).log, s'.Has p.1 := fun i n hn =>
      (Function.forall_update_iff s.caches fun _ n => ∀ p ∈ n.log, s'.Has p.1).mpr
        ⟨hn, fun j _ => hold j⟩
    cases hs with
    | intern i he hr =>
      have he := Step.has (.intern i he hr) he
      exact hset i _ (List.forall_mem_cons.mpr ⟨he, hold i⟩)
    | clear i => exact hset i _ fun _ hp => absurd hp List.not_mem_nil
    | construct | function | source | select | switch | applyToSequence | applyToCollection => exact hold

end

/-! ## Results -/

section

variable [Hasher] {s : Session} {heap : List Expr} (h : s.Sound heap) (i : Nat)
include h

/-- The result of interning and the expression itself stand on one heap, and are equal all the way down. -/
theorem Sound.intern_alike {e r : Expr} {cache : Cache} {supply : Supply} (he : s.Has e)
    (hr : (s.caches i).cache.intern e s.supply = (r, cache, supply)) :
    ∃ larger, Heap s.catalog larger supply ∧ e ∈ larger ∧ r ∈ larger ∧ r.Alike e := by
  have he := h.has_mem he
  obtain ⟨larger, hsub, hlarger, hc, _, hmem, halike⟩ :=
    Cache.intern_alike h.history (h.caches_sound i).shared he
  rw [hr] at hlarger hc hmem halike
  exact ⟨larger, hlarger, hsub he, hc.nodes_subset hmem, halike⟩

/-- An expression comes back itself if the cache has nothing that is equal to any of its nodes, and no two of
its nodes are equal without being one. -/
theorem Sound.intern_new {e : Expr} (he : s.Has e)
    (hnew : ∀ n ∈ e.walk, (s.caches i).cache.contains n = false)
    (hdistinct : ∀ a ∈ e.walk, ∀ b ∈ e.walk, a.same b = true → a.identical b = true) :
    ((s.caches i).cache.intern e s.supply).1 = e := by
  have hwalk := h.history.walk_subset (h.has_mem he)
  have hone : ∀ a ∈ e.walk, ∀ b ∈ e.walk, a.same b = true → a = b := by
    intro a ha b hb hab
    have hid := Expr.identical_iff.mp (hdistinct a ha b hb hab)
    exact h.history.eq_of_id_eq a (hwalk ha) b (hwalk hb) hid
  have hkeeps : (s.caches i).cache.Keeps e.walk := by
    intro n hn m hm hmn
    have hfound := Cache.contains_iff.mpr ⟨m, hm, hmn⟩
    rw [hnew n hn] at hfound
    cases hfound
  obtain ⟨_, hintern, _⟩ := Cache.intern_keeps hone e (s := s.supply) hkeeps (List.Subset.refl _)
  rw [hintern]

/-- For an expression that a cached node is equal to, this node comes back and the cache stays as it is. -/
theorem Sound.intern_cached {x n : Expr} (hx : x ∈ heap) (hn : n ∈ (s.caches i).cache.nodes)
    (hnx : n.same x = true) : ((s.caches i).cache.intern x s.supply).1 = n
      ∧ ((s.caches i).cache.intern x s.supply).2.1 = (s.caches i).cache :=
  Cache.intern_eq_of_mem x h.history (h.caches_sound i).shared hx hn hnx

end

/-- In every reachable session, the result of interning is equal to the expression: walked in step, the two
agree at every node in kind and payload, type, shape, given name and operands, and so in their sources and
columns. It is the expression itself if nothing in it is equal to a cached node and no two of its nodes are
equal without being one. And until the cache is cleared, whatever is equal to an expression that was interned
comes back as the very node that was returned for it, as do that node and all nodes below it, and the cache
stays as it is. -/
theorem reachable_intern_faithful [Hasher] {s : Session} (h : Reachable s) (i : Nat) :
    (∀ e, s.Has e → ∀ r cache supply, (s.caches i).cache.intern e s.supply = (r, cache, supply) →
        r.same e = true ∧ List.Forall₂ Expr.Agrees r.walk e.walk
          ∧ r.sources = e.sources ∧ Expr.AllSame r.columnRefs e.columnRefs
          ∧ ((∀ n ∈ e.walk, (s.caches i).cache.contains n = false) →
              (∀ a ∈ e.walk, ∀ b ∈ e.walk, a.same b = true → a.identical b = true) → r = e))
      ∧ ∀ p ∈ (s.caches i).log,
          (∀ x, s.Has x → x.same p.1 = true →
            ((s.caches i).cache.intern x s.supply).1 = p.2
              ∧ ((s.caches i).cache.intern x s.supply).2.1 = (s.caches i).cache)
          ∧ ∀ n ∈ p.2.walk,
              ((s.caches i).cache.intern n s.supply).1 = n
                ∧ ((s.caches i).cache.intern n s.supply).2.1 = (s.caches i).cache := by
  obtain ⟨heap, hsound⟩ := h.sound
  have hshared := (hsound.caches_sound i).shared
  refine ⟨fun e he r cache supply hr => ?_, fun p hp => ?_⟩
  · obtain ⟨larger, hlarger, hmem, hrmem, halike⟩ := hsound.intern_alike i he hr
    have hcolumns := hlarger.columnRefs_alike hrmem hmem halike
    refine ⟨(hlarger.same_iff_alike hrmem hmem).mpr halike, hlarger.walk_agrees hrmem hmem halike,
      halike.sources_eq, ?_, fun hnew hdistinct => ?_⟩
    · exact hcolumns.imp fun a b ⟨ha, hb, hab⟩ => (hlarger.same_iff_alike ha hb).mpr hab
    · have hback := hsound.intern_new i he hnew hdistinct
      rw [hr] at hback
      exact hback
  · obtain ⟨hreturned, hsame⟩ := (hsound.caches_sound i).returned p hp
    refine ⟨fun x hx hxp => ?_, fun n hn => ?_⟩
    · have hmem := hsound.has_mem (h.has_logged i p hp)
      have hpx := hsound.history.same_trans (hshared.nodes_subset hreturned) hmem (hsound.has_mem hx) hsame
        (Expr.same_symm hxp)
      exact hsound.intern_cached i (hsound.has_mem hx) hreturned hpx
    · have hn := hshared.walk_subset hreturned hn
      exact hsound.intern_cached i (hshared.nodes_subset hn) hn (Expr.same_refl n)

/-- The second of two equal forms of a column comes back as the first, also when it is interned once more. Where
nothing was interned, it comes back itself. -/
theorem reachable_intern_faithful_orders : @Reachable Orders.collide Orders.session
    ∧ Orders.session.Has (Orders.settled 5 (Orders.no 4) none)
    ∧ (Orders.settled 5 (Orders.no 4) none, Orders.settled 3 (Orders.no 2) none)
        ∈ (Orders.session.caches 0).log
    ∧ (@Cache.intern Orders.collide (Orders.settled 5 (Orders.no 4) none) (Orders.session.caches 0).cache
        Orders.session.supply).1 = Orders.settled 3 (Orders.no 2) none
    ∧ (∀ n ∈ (Orders.settled 5 (Orders.no 4) none).walk,
        (Orders.session.caches 1).cache.contains n = false)
    ∧ (∀ a ∈ (Orders.settled 5 (Orders.no 4) none).walk, ∀ b ∈ (Orders.settled 5 (Orders.no 4) none).walk,
        a.same b = true → a.identical b = true)
    ∧ (@Cache.intern Orders.collide (Orders.settled 5 (Orders.no 4) none) (Orders.session.caches 1).cache
        Orders.session.supply).1 = Orders.settled 5 (Orders.no 4) none := by
  have hreach := Orders.session_reachable
  have hhas : Orders.session.Has (Orders.settled 5 (Orders.no 4) none) := .returned (by simp [Orders.session])
  have hlog : (Orders.settled 5 (Orders.no 4) none, Orders.settled 3 (Orders.no 2) none)
      ∈ (Orders.session.caches 0).log := List.mem_cons_self
  have hnew : ∀ n ∈ (Orders.settled 5 (Orders.no 4) none).walk,
      (Orders.session.caches 1).cache.contains n = false := fun _ _ => rfl
  have hdistinct : ∀ a ∈ (Orders.settled 5 (Orders.no 4) none).walk,
      ∀ b ∈ (Orders.settled 5 (Orders.no 4) none).walk, a.same b = true → a.identical b = true := by
    decide
  have hagain := ((@reachable_intern_faithful Orders.collide _ hreach 0).2 _ hlog).1 _ hhas
    (Expr.same_refl _)
  have hfirst := (@reachable_intern_faithful Orders.collide _ hreach 1).1 _ hhas _ _ _ rfl
  exact ⟨hreach, hhas, hlog, hagain.1, hnew, hdistinct, hfirst.2.2.2.2 hnew hdistinct⟩

end Columnar.Session
