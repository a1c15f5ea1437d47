import Columnar.Proofs.Cache.Contents
import Columnar.Proofs.Expr.Equivariance
import Columnar.Proofs.Expr.Query
import Mathlib.Data.List.Find

/-!
# `Proofs.Cache.Renumber` — equality and interning under other numbers

Numbers go into hashes, so an expression and its renumbered form are hashed differently, and two expressions that
did not collide may do so under other numbers. Equality does not depend on it: on a heap it is equality all the way
down, and so it is on renumbered nodes, which carry the hashes of their fields as well. A cache asks nothing but
whether nodes are equal or identical, so it finds the same nodes and makes the same ones.

## Contents
- `Alike.renumber`, `Heap.same_renumber`: equality of renumbered expressions.
- `Heap.columnRefs_renumber`: the distinct columns.
- `Cache.renumber`, `Cache.find?_renumber`: a cache under other numbers, and what a look-up finds.
- `Cache.intern_renumber`: interning.
-/

namespace Columnar

/-! ## Equality -/

section

variable [Hasher] {ρ : Renumbering} {a b : Expr}

/-- Expressions that are equal all the way down carry one hash under other numbers too. -/
theorem Expr.Alike.hash_renumber (hρ : ρ.Injective) (h : a.Alike b) : (a.renumber ρ).hash = (b.renumber ρ).hash := by
  induction a using Expr.induction generalizing b with
  | step a ih =>
    obtain ⟨hk, ht, hs, hn, hos⟩ := h
    have hkind : (a.kind.renumber ρ).feed = (b.kind.renumber ρ).feed := by
      refine Kind.feed_eq ?_
      rw [Kind.same_renumber hρ]
      exact Kind.same_iff_alike.mpr hk
    have hhashes : (a.operands.map (Expr.renumber ρ)).map (fun e => HashItem.number e.hash.toNat)
        = (b.operands.map (Expr.renumber ρ)).map (fun e => HashItem.number e.hash.toNat) := by
      rw [List.map_map, List.map_map]
      refine map_eq_of_forall₂ hos fun x hx y hy hxy => ?_
      exact congrArg (fun u : UInt64 => HashItem.number u.toNat) (ih x hx hxy)
    rw [Expr.hash_renumber, Expr.hash_renumber]
    unfold Expr.digest Expr.feed
    simp only [Expr.kind_renumber, Expr.type_renumber, Expr.shape_renumber, Expr.givenName_renumber,
      Expr.operands_renumber, hkind, hhashes, ht, hs, hn]

variable {catalog : Catalog} {heap : List Expr} {s : Supply}

/-- On a heap, expressions are equal under other numbers exactly if they are equal. -/
theorem Heap.same_renumber (hρ : ρ.Injective) (h : Heap catalog heap s) (ha : a ∈ heap) (hb : b ∈ heap) :
    (a.renumber ρ).same (b.renumber ρ) = a.same b := by
  rw [Bool.eq_iff_iff, h.same_iff_alike ha hb]
  induction a using Expr.induction generalizing b with
  | step a ih =>
    have hos : Expr.AllSame (a.renumber ρ).operands (b.renumber ρ).operands
        ↔ List.Forall₂ Expr.Alike a.operands b.operands := by
      unfold Expr.AllSame
      rw [Expr.operands_renumber, Expr.operands_renumber, List.forall₂_map_left_iff, List.forall₂_map_right_iff]
      have hoperands : ∀ x ∈ a.operands, ∀ y ∈ b.operands, ((x.renumber ρ).same (y.renumber ρ) = true ↔ x.Alike y) :=
        fun x hx y hy => ih x hx (h.operands_subset a ha hx) (h.operands_subset b hb hy)
      constructor
      · exact fun hos => forall₂_imp_of_mem hos fun x hx y hy => (hoperands x hx y hy).mp
      · exact fun hos => forall₂_imp_of_mem hos fun x hx y hy => (hoperands x hx y hy).mpr
    have hkind : ((a.renumber ρ).kind.same (b.renumber ρ).kind = true) ↔ a.kind.Alike b.kind := by
      rw [Expr.kind_renumber, Expr.kind_renumber, Kind.same_renumber hρ, Kind.same_iff_alike]
    rw [Expr.same_iff, hkind, hos, Expr.id_renumber, Expr.id_renumber, NodeId.later_inj]
    simp only [Expr.type_renumber, Expr.shape_renumber, Expr.givenName_renumber]
    constructor
    · rintro (hid | ⟨_, ht, hs, hk, hn, hos⟩)
      · rw [h.eq_of_id_eq a ha b hb hid]
        exact .refl b
      · exact .node hk ht hs hn hos
    · intro hab
      have hhash := hab.hash_renumber hρ
      obtain ⟨hk, ht, hs, hn, hos⟩ := hab
      exact Or.inr ⟨hhash, ht, hs, hk, hn, hos⟩

end

/-! ## Columns -/

namespace Heap

variable [Hasher] {ρ : Renumbering} {catalog : Catalog} {heap : List Expr} {s : Supply}

theorem addDistinct_renumber (hρ : ρ.Injective) (h : Heap catalog heap s) {found : List Expr} {e : Expr}
    (hfound : found ⊆ heap) (he : e ∈ heap) :
    Expr.addDistinct (found.map (Expr.renumber ρ)) (e.renumber ρ)
      = (Expr.addDistinct found e).map (Expr.renumber ρ) := by
  have hany : (found.map (Expr.renumber ρ)).any (·.same (e.renumber ρ)) = found.any (·.same e) := by
    rw [List.any_map, Bool.eq_iff_iff, List.any_eq_true, List.any_eq_true]
    refine exists_congr fun x => and_congr_right fun hx => ?_
    rw [Function.comp_apply, h.same_renumber hρ (hfound hx) he]
  unfold Expr.addDistinct
  rw [hany]
  split
  · rfl
  · rw [List.map_append, List.map_singleton]

theorem foldl_addDistinct_renumber (hρ : ρ.Injective) (h : Heap catalog heap s) {found es : List Expr}
    (hfound : found ⊆ heap) (hes : es ⊆ heap) :
    (es.map (Expr.renumber ρ)).foldl Expr.addDistinct (found.map (Expr.renumber ρ))
      = (es.foldl Expr.addDistinct found).map (Expr.renumber ρ) := by
  induction es generalizing found with
  | nil => rfl
  | cons e es ih =>
    obtain ⟨he, hes⟩ := List.cons_subset.mp hes
    have hnext := Expr.addDistinct_subset hfound he
    rw [List.map_cons, List.foldl_cons, List.foldl_cons, h.addDistinct_renumber hρ hfound he, ih hnext hes]

/-- The distinct columns are the same ones, in the same order. -/
theorem columnRefs_renumber (hρ : ρ.Injective) (h : Heap catalog heap s) {e : Expr} (he : e ∈ heap) :
    (e.renumber ρ).columnRefs = e.columnRefs.map (Expr.renumber ρ) := by
  have hfilter : (e.renumber ρ).walk.filter Expr.isColumn = (e.walk.filter Expr.isColumn).map (Expr.renumber ρ) := by
    rw [Expr.walk_renumber, List.filter_map]
    congr 1
    exact List.filter_congr fun n _ => Expr.isColumn_renumber ρ n
  have hcolumns : e.walk.filter Expr.isColumn ⊆ heap := fun n hn => h.walk_subset he (List.mem_of_mem_filter hn)
  unfold Expr.columnRefs
  rw [hfilter]
  exact h.foldl_addDistinct_renumber hρ (List.nil_subset _) hcolumns

end Heap

/-! ## Caches -/

namespace Cache

section

variable [Hasher] (ρ : Renumbering)

/-- The cache with the same nodes under other numbers. -/
def renumber (c : Cache) : Cache := ⟨c.nodes.map (Expr.renumber ρ)⟩

theorem size_renumber (c : Cache) : (c.renumber ρ).size = c.size := List.length_map _

theorem identicalAll_renumber (as bs : List Expr) :
    identicalAll (as.map (Expr.renumber ρ)) (bs.map (Expr.renumber ρ)) = identicalAll as bs := by
  unfold identicalAll
  rw [Bool.eq_iff_iff, isEqv_iff_forall₂, isEqv_iff_forall₂, List.forall₂_map_left_iff, List.forall₂_map_right_iff]
  simp only [Expr.identical_renumber]

end

variable [Hasher] {ρ : Renumbering} {catalog : Catalog} {heap : List Expr} {s past : Supply} {c : Cache} {e : Expr}

section

variable (hρ : ρ.Injective) (h : Heap catalog heap s) (hc : c.nodes ⊆ heap) (he : e ∈ heap)
include hρ h hc he

theorem find?_renumber : (c.renumber ρ).find? (e.renumber ρ) = (c.find? e).map (Expr.renumber ρ) := by
  unfold find? renumber
  rw [List.find?_map]
  congr 1
  exact List.find?_congr fun n hn => h.same_renumber hρ (hc hn) he

theorem contains_renumber : (c.renumber ρ).contains (e.renumber ρ) = c.contains e := by
  unfold contains
  rw [find?_renumber hρ h hc he, Option.isSome_map]

theorem share_renumber :
    (c.renumber ρ).share (e.renumber ρ) = ((c.share e).1.renumber ρ, (c.share e).2.renumber ρ) := by
  unfold share
  rw [find?_renumber hρ h hc he]
  cases c.find? e with
  | some found => rfl
  | none =>
    unfold renumber
    simp only [Option.map_none, List.map_append, List.map_singleton]

end

/-! ## Interning -/

/-- What is looked up for renumbered operands is the same node under other numbers. -/
theorem candidate_renumber (hpast : past.nextNode = ρ.nodes) (e : Expr) (shared : List Expr) (s : Supply) :
    candidate (e.renumber ρ) (shared.map (Expr.renumber ρ)) (past.after s)
      = ((candidate e shared s).1.renumber ρ, past.after (candidate e shared s).2) := by
  unfold candidate
  rw [Expr.operands_renumber, identicalAll_renumber]
  split
  · rfl
  · unfold Expr.withOperands
    rw [Expr.kind_renumber, Expr.type_renumber, Expr.shape_renumber, Expr.givenName_renumber]
    exact Supply.node_after hpast s e.kind e.type e.shape e.givenName shared

/-- Interning several expressions, if each of them can be interned under other numbers. -/
theorem internList_renumber {es : List Expr}
    (ih : ∀ e ∈ es, ∀ {heap c s}, Heap catalog heap s → c.Shared heap → e ∈ heap →
      intern (e.renumber ρ) (c.renumber ρ) (past.after s)
        = ((intern e c s).1.renumber ρ, (intern e c s).2.1.renumber ρ, past.after (intern e c s).2.2))
    {heap : List Expr} {c : Cache} {s : Supply} (h : Heap catalog heap s) (hc : c.Shared heap) (hes : es ⊆ heap) :
    internList (es.map (Expr.renumber ρ)) (c.renumber ρ) (past.after s)
      = ((internList es c s).1.map (Expr.renumber ρ), (internList es c s).2.1.renumber ρ,
        past.after (internList es c s).2.2) := by
  induction es generalizing heap c s with
  | nil => rfl
  | cons e es ihes =>
    obtain ⟨he, hes⟩ := List.cons_subset.mp hes
    obtain ⟨heap₁, hsub₁, h₁, hc₁, _⟩ := intern_interned e h hc he
    have hrest := ihes (fun x hx => ih x (List.mem_cons_of_mem _ hx)) h₁ hc₁ (List.Subset.trans hes hsub₁)
    rw [List.map_cons, internList, internList, ih e List.mem_cons_self h hc he]
    dsimp only
    rw [hrest]
    rfl

/-- Interning gives back the same node under other numbers, leaves the same cache, and draws as many identities. The
induction is on the operands, as interning goes; that the nodes stay on a heap is what makes equality go along. -/
theorem intern_renumber (hρ : ρ.Injective) (hpast : past.nextNode = ρ.nodes) (e : Expr) {heap : List Expr} {c : Cache}
    {s : Supply} (h : Heap catalog heap s) (hc : c.Shared heap) (he : e ∈ heap) :
    intern (e.renumber ρ) (c.renumber ρ) (past.after s)
      = ((intern e c s).1.renumber ρ, (intern e c s).2.1.renumber ρ, past.after (intern e c s).2.2) := by
  induction e using Expr.induction generalizing heap c s with
  | step e ih =>
    have hos := h.operands_subset e he
    have hlist := internList_renumber ih h hc hos
    obtain ⟨heap₁, hsub₁, h₁, hc₁, _, hshared, hsame⟩ :=
      internList_interned (fun o _ => intern_interned o) h hc hos
    rw [intern_eq, intern_eq, Expr.operands_renumber, hlist]
    generalize internList e.operands c s = shared at *
    obtain ⟨shared, c₁, s₁⟩ := shared
    obtain ⟨⟨heap₂, hsub₂, h₂, hcand⟩, _⟩ :=
      candidate_spec h₁ (hsub₁ he) (List.Subset.trans hshared hc₁.nodes_subset) hsame
    dsimp only
    rw [candidate_renumber hpast]
    dsimp only
    rw [share_renumber hρ h₂ (hc₁.mono hsub₂).nodes_subset (hcand List.mem_cons_self)]

end Cache

end Columnar
