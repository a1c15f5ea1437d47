import Columnar.Proofs.Expr.Writing
import Columnar.Proofs.Session.Interning

/-!
# `Proofs.Session.Writing` — when equal expressions are written alike

Interning may put an equal expression in the place of another. Equal expressions are written alike but for
their decimals, which are equal as numbers: what interning gives back may have other places in them.

## Contents
- `Cache.intern_values_iff`: when interning keeps all values in an expression as they are.
- `reachable_written_iff`: when equal expressions, and the results of interning, are written alike.
- `Prices.written_differently`: a price with two places is given back with one.
-/

namespace Columnar

/-! ## Values -/

/-- Interning keeps the values in an expression exactly if none of its nodes is equal to a node with other
values, neither in the cache nor in the expression itself. -/
theorem Cache.intern_values_iff [Hasher] {catalog : Catalog} {heap : List Expr} {s : Supply} {c : Cache}
    {e : Expr} (h : Heap catalog heap s) (hc : c.Shared heap) (he : e ∈ heap) :
    (c.intern e s).1.values = e.values
      ↔ ∀ m ∈ e.walk, ∀ n, n ∈ c.nodes ∨ n ∈ e.walk → n.Alike m → n.values = m.values := by
  have horigin := intern_origin e h hc he
  obtain ⟨larger, hsub, hlarger, hc', hle, hr, hre⟩ := intern_alike h hc he
  generalize c.intern e s = result at *
  obtain ⟨r, c', s'⟩ := result
  constructor
  · intro hvalues m hm n hn hnm
    have hstep := hre.walk_values hvalues
    have hkept : ∀ n, n ∈ c.nodes ∨ n ∈ e.walk → ∃ x ∈ c'.nodes, x.Alike n ∧ x.values = n.values := by
      rintro n (hn | hn)
      · exact ⟨n, hle hn, .refl n, rfl⟩
      · obtain ⟨x, hx, hxn⟩ := exists_of_forall₂ hstep hn
        exact ⟨x, hc'.walk_subset hr hx, hxn⟩
    -- the nodes that keep the values of either are equal, and the cache has but one of them
    obtain ⟨x, hx, hxm, hxvalues⟩ := hkept m (Or.inr hm)
    obtain ⟨y, hy, hyn, hyvalues⟩ := hkept n hn
    obtain rfl : y = x := hc'.eq_of_alike hlarger hy hx (hyn.trans (hnm.trans hxm.symm))
    rw [← hyvalues, hxvalues]
  · intro hkept
    have hkinds : r.walk.map (fun n => n.kind.values) = e.walk.map fun n => n.kind.values := by
      refine map_eq_of_forall₂ hre.walk fun x hx m hm hxm => ?_
      have hx := hc'.walk_subset hr hx
      rcases horigin x hx with hold | ⟨k, hk, hxk, hkind⟩
      · exact (hxm.values_eq_iff.mp (hkept m hm x (Or.inl hold) hxm)).1
      · have hmem := hsub (h.walk_subset he hk)
        have hxk := (hlarger.same_iff_alike (hc'.nodes_subset hx) hmem).mp hxk
        have hkm := hxk.symm.trans hxm
        rw [hkind]
        exact (hkm.values_eq_iff.mp (hkept m hm k (Or.inr hk) hkm)).1
    unfold Expr.values
    rw [List.flatMap_def, List.flatMap_def, hkinds]

namespace Session

/-! ## Texts and documents -/

/-- In every reachable session, equal expressions have one text and one document exactly if they have the same
decimals. So what interning gives back is written as the expression exactly if none of its nodes is equal to a
node with other decimals, neither in the cache nor in the expression itself. -/
theorem reachable_written_iff [Hasher] {s : Session} (h : Reachable s) :
    (∀ a b, s.Has a → s.Has b → a.same b = true →
        (a.text = b.text ∧ a.toJson = b.toJson ↔ a.decimals = b.decimals))
      ∧ ∀ i e, s.Has e → ∀ r cache supply,
          (s.caches i).cache.intern e s.supply = (r, cache, supply) →
          (r.text = e.text ∧ r.toJson = e.toJson
            ↔ ∀ m ∈ e.walk, ∀ n, n ∈ (s.caches i).cache.nodes ∨ n ∈ e.walk → n.same m = true →
                n.decimals = m.decimals) := by
  obtain ⟨heap, hsound⟩ := h.sound
  refine ⟨fun a b ha hb hab => ((hsound.same_iff_alike ha hb).mp hab).written_iff, ?_⟩
  intro i e he r cache supply hr
  obtain ⟨_, _, _, _, hre⟩ := hsound.intern_alike i he hr
  have hshared := (hsound.caches_sound i).shared
  have he := hsound.has_mem he
  have hvalues := Cache.intern_values_iff hsound.history hshared he
  rw [hr] at hvalues
  rw [hre.written_iff, hre.decimals_eq_iff, hvalues]
  refine forall₂_congr fun m hm => forall₂_congr fun n hn => ?_
  have hmem : n ∈ heap :=
    hn.elim (fun hn => hshared.nodes_subset hn) fun hn => hsound.history.walk_subset he hn
  rw [hsound.history.same_iff_alike hmem (hsound.history.walk_subset he hm)]
  exact forall_congr' fun hnm => hnm.decimals_eq_iff.symm

/-- A price with one place and a price with two are equal, but differ in their decimals, and so in how they are
written. Interned where the other is not, each of them comes back as it is written. -/
theorem reachable_written_iff_prices : @Reachable Orders.collide Prices.session
    ∧ Prices.session.Has (Prices.price 0 Prices.short)
    ∧ Prices.session.Has (Prices.price 1 Prices.long)
    ∧ (Prices.price 0 Prices.short).same (Prices.price 1 Prices.long) = true
    ∧ ¬ ((Prices.price 0 Prices.short).text = (Prices.price 1 Prices.long).text
        ∧ (Prices.price 0 Prices.short).toJson = (Prices.price 1 Prices.long).toJson)
    ∧ (∀ m ∈ (Prices.price 1 Prices.long).walk, ∀ n,
        n ∈ (Prices.session.caches 1).cache.nodes ∨ n ∈ (Prices.price 1 Prices.long).walk →
        n.same m = true → n.decimals = m.decimals)
    ∧ (@Cache.intern Orders.collide (Prices.price 1 Prices.long) (Prices.session.caches 1).cache
        Prices.session.supply).1.text = (Prices.price 1 Prices.long).text := by
  have hreach := Prices.session_reachable
  have hshort : Prices.session.Has (Prices.price 0 Prices.short) := .returned List.mem_cons_self
  have hlong : Prices.session.Has (Prices.price 1 Prices.long) :=
    .returned (List.mem_cons_of_mem _ List.mem_cons_self)
  have hsame : (Prices.price 0 Prices.short).same (Prices.price 1 Prices.long) = true := by decide
  have hdecimals : ¬ (Prices.price 0 Prices.short).decimals = (Prices.price 1 Prices.long).decimals := by
    decide
  have hkept : ∀ m ∈ (Prices.price 1 Prices.long).walk, ∀ n,
      n ∈ (Prices.session.caches 1).cache.nodes ∨ n ∈ (Prices.price 1 Prices.long).walk →
      n.same m = true → n.decimals = m.decimals := by
    intro m hm n hn _
    rcases hn with hn | hn
    · exact absurd hn List.not_mem_nil
    · rw [List.mem_singleton.mp hm, List.mem_singleton.mp hn]
  have hboth := @reachable_written_iff Orders.collide _ hreach
  refine ⟨hreach, hshort, hlong, hsame, ?_, hkept, ?_⟩
  · intro hwritten
    exact hdecimals ((hboth.1 _ _ hshort hlong hsame).mp hwritten)
  · exact ((hboth.2 1 _ hlong _ _ _ rfl).mpr hkept).1

end Session

/-- Not all equal expressions are written alike, and interning does not always give back what is written like
the expression: a price with two places comes back with one. -/
theorem Prices.written_differently :
    ¬ (∀ s, @Session.Reachable Orders.collide s → ∀ a b, s.Has a → s.Has b → a.same b = true →
        a.text = b.text ∧ a.toJson = b.toJson)
      ∧ ¬ ∀ s, @Session.Reachable Orders.collide s → ∀ i e, s.Has e →
          (@Cache.intern Orders.collide e (s.caches i).cache s.supply).1.text = e.text := by
  have hshort : session.Has (price 0 short) := .returned List.mem_cons_self
  have hlong : session.Has (price 1 long) := .returned (List.mem_cons_of_mem _ List.mem_cons_self)
  have htext : ¬ (price 0 short).text = (price 1 long).text := by decide
  constructor
  · intro hall
    exact htext (hall session session_reachable _ _ hshort hlong (by decide)).1
  · intro hall
    exact htext (hall session session_reachable 0 _ hlong)

end Columnar
