import Columnar.Proofs.Expr.Alike

/-!
# `Proofs.Expr.Query` — what is read off an expression

Sources and columns are collected along a walk. Expressions that are equal all the way down are walked in
step, so what is collected from them is the same: the same sources, and columns that are equal one by one.

## Contents
- `Expr.Agrees`: two nodes that cannot be told apart by their fields, and `Heap.agrees_of_alike`.
- `sources_eq`: the sources are the same.
- `Heap.columnRefs_alike`: the columns are equal, in the same order.
-/

namespace Columnar

/-! ## Fields -/

/-- Two nodes are equal, and so are their fields, one by one. -/
structure Expr.Agrees (a b : Expr) : Prop where
  same : a.same b = true
  kind : a.kind.same b.kind = true
  type : a.type = b.type
  shape : a.shape = b.shape
  givenName : a.givenName = b.givenName
  operands : Expr.AllSame a.operands b.operands

section

variable [Hasher] {catalog : Catalog} {heap : List Expr} {s : Supply} {a b : Expr}

theorem Heap.agrees_of_alike (h : Heap catalog heap s) (ha : a ∈ heap) (hb : b ∈ heap)
    (hab : a.Alike b) : a.Agrees b := by
  have hsame := (h.same_iff_alike ha hb).mpr hab
  have hos := h.allSame_operands ha hb hsame
  obtain ⟨hk, ht, hs, hn, _⟩ := hab
  exact ⟨hsame, Kind.same_iff_alike.mpr hk, ht, hs, hn, hos⟩

/-- Node by node, expressions of a heap that are equal all the way down agree. -/
theorem Heap.walk_agrees (h : Heap catalog heap s) (ha : a ∈ heap) (hb : b ∈ heap) (hab : a.Alike b) :
    List.Forall₂ Expr.Agrees a.walk b.walk := by
  refine forall₂_imp_of_mem hab.walk fun m hm n hn hmn => ?_
  exact h.agrees_of_alike (h.walk_subset ha hm) (h.walk_subset hb hn) hmn

end

/-! ## Sources -/

/-- Equal kinds name the same source, or none. -/
theorem Kind.Alike.source?_eq {k l : Kind} (h : k.Alike l) : k.source? = l.source? := by
  cases h <;> rfl

theorem Expr.Alike.isColumn_eq {a b : Expr} (h : a.Alike b) : a.isColumn = b.isColumn := by
  unfold isColumn
  rw [h.kind.source?_eq]

theorem Expr.Alike.sources_eq {a b : Expr} (h : a.Alike b) : a.sources = b.sources := by
  have hsources : a.walk.map (fun n => n.kind.source?) = b.walk.map (fun n => n.kind.source?) :=
    map_eq_of_forall₂ h.walk fun _ _ _ _ hmn => hmn.kind.source?_eq
  unfold sources
  have hfilter := congrArg (List.filterMap fun source => source) hsources
  rw [List.filterMap_map, List.filterMap_map] at hfilter
  exact congrArg (List.foldr insertSource []) hfilter

/-! ## Columns -/

namespace Expr

theorem addDistinct_subset {found nodes : List Expr} {e : Expr} (hfound : found ⊆ nodes) (he : e ∈ nodes) :
    addDistinct found e ⊆ nodes := by
  unfold addDistinct
  split
  · exact hfound
  · exact List.append_subset.mpr ⟨hfound, List.cons_subset.mpr ⟨he, List.nil_subset _⟩⟩

theorem foldl_addDistinct_subset {found nodes es : List Expr} (hfound : found ⊆ nodes) (hes : es ⊆ nodes) :
    es.foldl addDistinct found ⊆ nodes := by
  induction es generalizing found with
  | nil => exact hfound
  | cons e es ih =>
    obtain ⟨he, hes⟩ := List.cons_subset.mp hes
    exact ih (addDistinct_subset hfound he) hes

/-- The distinct columns are nodes of the expression. -/
theorem columnRefs_subset_walk (e : Expr) : e.columnRefs ⊆ e.walk :=
  foldl_addDistinct_subset (List.nil_subset _) fun _ hn => List.mem_of_mem_filter hn

end Expr

section

variable [Hasher] {catalog : Catalog} {heap : List Expr} {s : Supply}

/-- Two nodes of a heap that are equal all the way down. -/
def Expr.AlikeOn (heap : List Expr) (a b : Expr) : Prop := a ∈ heap ∧ b ∈ heap ∧ a.Alike b

/-- If each of two lists of nodes has the other's nodes up to equality, both have a node that is equal to a
given one, or neither has. -/
theorem Heap.any_same_eq (h : Heap catalog heap s) {as bs : List Expr} {x y : Expr}
    (hab : List.Forall₂ (Expr.AlikeOn heap) as bs) (hxy : Expr.AlikeOn heap x y) :
    as.any (·.same x) = bs.any (·.same y) := by
  obtain ⟨hx, hy, hxy⟩ := hxy
  induction hab with
  | nil => rfl
  | @cons a b as bs hab _ ih =>
    obtain ⟨ha, hb, hab⟩ := hab
    have hsame : a.same x = b.same y := by
      rw [Bool.eq_iff_iff, h.same_iff_alike ha hx, h.same_iff_alike hb hy]
      constructor
      · intro hax
        exact hab.symm.trans (hax.trans hxy)
      · intro hby
        exact hab.trans (hby.trans hxy.symm)
    rw [List.any_cons, List.any_cons, hsame, ih]

theorem Heap.addDistinct_alike (h : Heap catalog heap s) {as bs : List Expr} {x y : Expr}
    (hab : List.Forall₂ (Expr.AlikeOn heap) as bs) (hxy : Expr.AlikeOn heap x y) :
    List.Forall₂ (Expr.AlikeOn heap) (Expr.addDistinct as x) (Expr.addDistinct bs y) := by
  unfold Expr.addDistinct
  rw [h.any_same_eq hab hxy]
  by_cases hany : bs.any (·.same y) = true
  · rw [if_pos hany, if_pos hany]
    exact hab
  · rw [if_neg hany, if_neg hany]
    exact List.rel_append hab (.cons hxy .nil)

/-- The columns of expressions that are equal all the way down are equal one by one. -/
theorem Heap.columnRefs_alike (h : Heap catalog heap s) {a b : Expr} (ha : a ∈ heap) (hb : b ∈ heap)
    (hab : a.Alike b) : List.Forall₂ (Expr.AlikeOn heap) a.columnRefs b.columnRefs := by
  have hwalk : List.Forall₂ (Expr.AlikeOn heap) a.walk b.walk :=
    forall₂_imp_of_mem hab.walk fun m hm n hn hmn =>
      ⟨h.walk_subset ha hm, h.walk_subset hb hn, hmn⟩
  have hcolumns : List.Forall₂ (Expr.AlikeOn heap) (a.walk.filter Expr.isColumn)
      (b.walk.filter Expr.isColumn) :=
    List.rel_filter (fun _ _ hmn => by dsimp only; rw [hmn.2.2.isColumn_eq]) hwalk
  exact List.rel_foldl (P := List.Forall₂ (Expr.AlikeOn heap)) (R := Expr.AlikeOn heap)
    (fun _ _ hfound _ _ hmn => h.addDistinct_alike hfound hmn) .nil hcolumns

end

end Columnar
