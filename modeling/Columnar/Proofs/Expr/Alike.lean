import Columnar.Proofs.Decimal.Number
import Columnar.Proofs.Expr.Heap

/-!
# `Proofs.Expr.Alike` — expressions that are equal all the way down

Structural equality looks at identities first and at hashes next, and only then inside. `Expr.Alike` is the
equality that it is meant to decide: it sees kinds and payloads, types, shapes, given names and operands, and
neither identities nor hashes. It is an equivalence on all trees. On a heap the two are the same, whatever the
hash function is: an identity belongs to one node there, and a hash is computed from data on which equal nodes
agree.

## Contents
- `Value.Alike`, `Bins.Alike`, `Kind.Alike`: payloads, with what `same` decides about them.
- `Expr.Alike`, `Expr.Content`: expressions, and what they are apart from identities and hashes.
- `Alike.walk`: two such expressions are walked in step.
- `Kind.feed_eq`, `Heap.hash_eq_of_alike`: equal data is hashed alike.
- `Heap.same_iff_alike`: the fast equality is the deep one.
-/

namespace Columnar

/-! ## Payloads -/

/-- The bits of a float determine it. -/
theorem Binary.eq_of_toBits_eq {f : FloatFormat} {x y : Binary f} (h : x.toBits = y.toBits) :
    x = y := by
  obtain ⟨s, m, hm⟩ := x
  obtain ⟨t, n, hn⟩ := y
  unfold toBits at h
  cases s <;> cases t <;> simp only [Bool.false_eq_true, if_false, if_true] at h
  · obtain rfl : m = n := by omega
    rfl
  · omega
  · omega
  · obtain rfl : m = n := by omega
    rfl

/-- Literals that are equal: floats by their bits, decimals by their numbers, all others outright. -/
inductive Value.Alike : Value → Value → Prop
  | boolean {b} : Alike (.boolean b) (.boolean b)
  | int {w n} : Alike (.int w n) (.int w n)
  | float {f} {x y : Binary f} : x.toBits = y.toBits → Alike (.float f x) (.float f y)
  | decimal {a b} : a.toRat = b.toRat → Alike (.decimal a) (.decimal b)
  | string {s} : Alike (.string s) (.string s)
  | datetime {t} : Alike (.datetime t) (.datetime t)

/-- Bins of equal edges, with the same labels and options. -/
structure Bins.Alike (a b : Bins) : Prop where
  edges : List.Forall₂ Value.Alike a.edges b.edges
  labels : a.labels = b.labels
  right : a.right = b.right
  includeLowest : a.includeLowest = b.includeLowest
  includeUnder : a.includeUnder = b.includeUnder
  includeOver : a.includeOver = b.includeOver

/-- Uses of one function, by its name and identity, in one way. -/
structure Mapping.Alike (a b : Mapping) : Prop where
  name : a.function.name = b.function.name
  id : a.function.id = b.function.id
  axis : a.axis = b.axis
  outputIndex : a.outputIndex = b.outputIndex

/-- The same kind, with payloads that are equal. -/
inductive Kind.Alike : Kind → Kind → Prop
  | rfl {k} : Alike k k
  | literal {v w : Value} : v.Alike w → Alike (.literal v) (.literal w)
  | cut {a b : Bins} : a.Alike b → Alike (.cut a) (.cut b)
  | map {m n : Mapping} : m.Alike n → Alike (.map m) (.map n)

theorem Value.same_iff_alike {v w : Value} : v.same w = true ↔ v.Alike w := by
  rw [same_iff]
  constructor
  · rintro (rfl | ⟨a, b, rfl, rfl, h⟩)
    · cases v with
      | boolean b => exact .boolean
      | int w n => exact .int
      | float f x => exact .float rfl
      | decimal d => exact .decimal rfl
      | string s => exact .string
      | datetime t => exact .datetime
    · exact .decimal (Decimal.sameNumber_iff_toRat_eq.mp h)
  · intro h
    cases h with
    | boolean | int | string | datetime => exact Or.inl rfl
    | float hbits => exact Or.inl (congrArg (Value.float _) (Binary.eq_of_toBits_eq hbits))
    | decimal hrat => exact Or.inr ⟨_, _, rfl, rfl, Decimal.sameNumber_iff_toRat_eq.mpr hrat⟩

theorem Bins.same_iff_alike {a b : Bins} : a.same b = true ↔ a.Alike b := by
  have hedges : a.edges.isEqv b.edges Value.same = true ↔ List.Forall₂ Value.Alike a.edges b.edges := by
    rw [isEqv_iff_forall₂]
    simp only [Value.same_iff_alike]
  rw [same_iff, hedges]
  constructor
  · rintro ⟨he, hl, hr, hi, hu, ho⟩
    exact ⟨he, hl, hr, hi, hu, ho⟩
  · rintro ⟨he, hl, hr, hi, hu, ho⟩
    exact ⟨he, hl, hr, hi, hu, ho⟩

theorem Mapping.same_iff_alike {m n : Mapping} : m.same n = true ↔ m.Alike n := by
  rw [same_iff]
  constructor
  · rintro ⟨hn, hi, ha, ho⟩
    exact ⟨hn, hi, ha, ho⟩
  · rintro ⟨hn, hi, ha, ho⟩
    exact ⟨hn, hi, ha, ho⟩

theorem Kind.same_iff_alike {k l : Kind} : k.same l = true ↔ k.Alike l := by
  constructor
  · intro h
    rcases same_iff.mp h with rfl | ⟨v, w, rfl, rfl, h⟩ | ⟨a, b, rfl, rfl, h⟩ | ⟨m, n, rfl, rfl, h⟩
    · exact .rfl
    · exact .literal (Value.same_iff_alike.mp h)
    · exact .cut (Bins.same_iff_alike.mp h)
    · exact .map (Mapping.same_iff_alike.mp h)
  · intro h
    cases h with
    | rfl => exact same_refl _
    | literal h => exact Value.same_iff_alike.mpr h
    | cut h => exact Bins.same_iff_alike.mpr h
    | map h => exact Mapping.same_iff_alike.mpr h

/-! ## Expressions -/

namespace Expr

/-- Expressions that are equal in everything but the identities and hashes of their nodes: equal kinds, one
type, one shape, one given name, and operands that are equal in the same way, in order. -/
inductive Alike : Expr → Expr → Prop
  | node {a b : Expr} : a.kind.Alike b.kind → a.type = b.type → a.shape = b.shape →
      a.givenName = b.givenName → List.Forall₂ Alike a.operands b.operands → Alike a b

namespace Alike

variable {a b c : Expr}

theorem kind (h : a.Alike b) : a.kind.Alike b.kind := by
  cases h with
  | node hk _ _ _ _ => exact hk

theorem operands (h : a.Alike b) : List.Forall₂ Alike a.operands b.operands := by
  cases h with
  | node _ _ _ _ hos => exact hos

theorem refl (a : Expr) : a.Alike a := by
  induction a using Expr.induction with
  | step a ih => exact .node .rfl rfl rfl rfl (List.forall₂_same.mpr ih)

theorem symm (h : a.Alike b) : b.Alike a := by
  induction a using Expr.induction generalizing b with
  | step a ih =>
    obtain ⟨hk, ht, hs, hn, hos⟩ := h
    have hk := Kind.same_iff_alike.mp (Kind.same_symm (Kind.same_iff_alike.mpr hk))
    exact .node hk ht.symm hs.symm hn.symm (forall₂_imp_of_mem hos fun o ho _ _ => ih o ho).flip

theorem trans (hab : a.Alike b) (hbc : b.Alike c) : a.Alike c := by
  induction a using Expr.induction generalizing b c with
  | step a ih =>
    obtain ⟨hk, ht, hs, hn, hos⟩ := hab
    obtain ⟨hk', ht', hs', hn', hos'⟩ := hbc
    have hk := Kind.same_iff_alike.mp
      (Kind.same_trans (Kind.same_iff_alike.mpr hk) (Kind.same_iff_alike.mpr hk'))
    refine .node hk (ht.trans ht') (hs.trans hs') (hn.trans hn') ?_
    exact forall₂_trans_of_mem hos hos' fun x hx _ _ _ _ => ih x hx

/-- Two expressions that are equal all the way down are walked in step, over nodes that are so as well. -/
theorem walk (h : a.Alike b) : List.Forall₂ Alike a.walk b.walk := by
  induction a using Expr.induction generalizing b with
  | step a ih =>
    have hwalks := forall₂_imp_of_mem h.operands fun o ho _ _ hxy => ih o ho hxy
    rw [walk_eq_cons a, walk_eq_cons b]
    exact .cons h (List.rel_flatMap hwalks fun _ _ hxy => hxy)

end Alike

/-- Equality all the way down, as an equivalence. -/
def structural : Setoid Expr := ⟨Alike, ⟨Alike.refl, Alike.symm, Alike.trans⟩⟩

/-- What there is to an expression apart from the identities and hashes of its nodes. -/
def Content : Type := Quotient structural

/-- The content of an expression. -/
def content (e : Expr) : Content := Quotient.mk structural e

theorem content_eq_iff {a b : Expr} : a.content = b.content ↔ a.Alike b := by
  unfold content
  exact Quotient.eq (r := structural)

end Expr

/-! ## Hashes -/

/-- Equal values hand the same items to a hash function: a decimal is handed over in its reduced form. -/
theorem Value.feed_eq {v w : Value} (h : v.same w = true) : v.feed = w.feed := by
  rcases same_iff.mp h with rfl | ⟨a, b, rfl, rfl, h⟩
  · rfl
  · have hreduced := Decimal.reduced_eq_iff.mpr h
    unfold feed
    simp only [type, Decimal.feed, hreduced]

/-- Equal kinds hand the same items to a hash function. -/
theorem Kind.feed_eq {k l : Kind} (h : k.same l = true) : k.feed = l.feed := by
  rcases same_iff.mp h with rfl | ⟨v, w, rfl, rfl, h⟩ | ⟨a, b, rfl, rfl, h⟩ | ⟨m, n, rfl, rfl, h⟩
  · rfl
  · simp only [feed, Value.feed_eq h]
  · obtain ⟨he, hl, hr, hi, hu, ho⟩ := Bins.same_iff.mp h
    have hedges : a.edges.map Value.feed = b.edges.map Value.feed := by
      rw [isEqv_iff_forall₂] at he
      exact map_eq_of_forall₂ he fun _ _ _ _ => Value.feed_eq
    have hlength : a.edges.length = b.edges.length := by
      simpa only [List.length_map] using congrArg List.length hedges
    simp only [feed, HashItem.ofList, List.flatMap_def, hlength, hedges, hl, hr, hi, hu, ho]
  · obtain ⟨hn, hi, ha, ho⟩ := Mapping.same_iff.mp h
    simp only [feed, MapFunction.feed, hn, hi, ha, ho]

namespace Heap

variable [Hasher] {catalog : Catalog} {heap : List Expr} {s : Supply} {a b : Expr}

/-- Nodes of a heap with equal fields are hashed alike if their operands are. -/
theorem hash_eq_of_fields (h : Heap catalog heap s) (ha : a ∈ heap) (hb : b ∈ heap)
    (hk : a.kind.same b.kind = true) (ht : a.type = b.type) (hs : a.shape = b.shape)
    (hn : a.givenName = b.givenName)
    (hos : a.operands.map Expr.hash = b.operands.map Expr.hash) : a.hash = b.hash := by
  have hitems : a.operands.map (fun e => HashItem.number e.hash.toNat)
      = b.operands.map (fun e => HashItem.number e.hash.toNat) := by
    simpa only [List.map_map, Function.comp_def] using
      congrArg (List.map fun x => HashItem.number x.toNat) hos
  rw [h.hash_eq a ha, h.hash_eq b hb]
  unfold Expr.digest Expr.feed
  rw [Kind.feed_eq hk, ht, hs, hn, hitems]

/-- Expressions that are equal all the way down carry the same hash. -/
theorem hash_eq_of_alike (h : Heap catalog heap s) (ha : a ∈ heap) (hb : b ∈ heap) (hab : a.Alike b) :
    a.hash = b.hash := by
  induction a using Expr.induction generalizing b with
  | step a ih =>
    obtain ⟨hk, ht, hs, hn, hos⟩ := hab
    refine h.hash_eq_of_fields ha hb (Kind.same_iff_alike.mpr hk) ht hs hn ?_
    refine map_eq_of_forall₂ hos fun x hx y hy hxy => ?_
    exact ih x hx (h.operands_subset a ha hx) (h.operands_subset b hb hy) hxy

/-- On a heap, the equality that looks at identities and hashes first is equality all the way down. A
collision of hashes cannot make it accept, since the fields are compared after the hashes; and a difference of
hashes or identities cannot make it refuse, since neither comes between equal nodes. -/
theorem same_iff_alike (h : Heap catalog heap s) (ha : a ∈ heap) (hb : b ∈ heap) :
    a.same b = true ↔ a.Alike b := by
  induction a using Expr.induction generalizing b with
  | step a ih =>
    have hoperands : ∀ x ∈ a.operands, ∀ y ∈ b.operands, (x.same y = true ↔ x.Alike y) :=
      fun x hx y hy => ih x hx (h.operands_subset a ha hx) (h.operands_subset b hb hy)
    constructor
    · intro hab
      rcases h.same_cases ha hb hab with rfl | ⟨_, ht, hs, hk, hn, hos⟩
      · exact .refl a
      · refine .node (Kind.same_iff_alike.mp hk) ht hs hn ?_
        exact forall₂_imp_of_mem hos fun x hx y hy => (hoperands x hx y hy).mp
    · intro hab
      have hhash := h.hash_eq_of_alike ha hb hab
      obtain ⟨hk, ht, hs, hn, hos⟩ := hab
      refine Expr.same_iff.mpr (Or.inr ⟨hhash, ht, hs, Kind.same_iff_alike.mpr hk, hn, ?_⟩)
      exact forall₂_imp_of_mem hos fun x hx y hy => (hoperands x hx y hy).mpr

end Heap

end Columnar
