import Columnar.Proofs.Expr.Equality
import Columnar.Schema.Basic

/-!
# `Proofs.Expr.Heap` — all nodes that were ever made

Constructions draw identities from a supply, and nothing but making a node uses one up. The *heap* is the
history of this: every node ever made, each over operands that were made before it, together with the
sources that columns may refer to. There are only four ways for a node to come about (`Formed`), however many
constructions there are, so a property of all nodes is proved by an induction with four cases.

## Contents
- `Catalog`, `Formed`, `Heap`: the history of sources and nodes.
- `operands_subset`, `eq_of_id_eq`, `hash_eq`: the heap is closed under operands, an identity belongs to one
  node, and every node carries the hash of its fields.
- `wellTyped`, `column_mem`: all nodes obey their typing rule, and all columns are in the schema of their
  source.
- `same_trans`, `signature_eq_of_same`: on a heap, structural equality is an equivalence that keeps
  signatures.
- `rebuilt_same`: replacing operands by equal ones makes an equal node.
- `Grown`, `Grown.trans`: what a computation that makes nodes does to the heap, and one after the other.
-/

namespace Columnar

/-- The sources that there are, each with the schema it was made with. -/
abbrev Catalog := List (SourceId × Schema)

/-- How a node comes about over nodes that are there. -/
inductive Formed (catalog : Catalog) (heap : List Expr) : Expr → Prop
  /-- A column is a field of a source. -/
  | column {i h name source t schema} : (source, schema) ∈ catalog → (name, t) ∈ schema.fields →
      Formed catalog heap (.node i h (.column name source) t .sequence none [])
  /-- Any other kind of node obeys its typing rule. -/
  | operation {i h k t s os} : k.source? = none → k.Typed (os.map Expr.signature) ⟨t, s⟩ → os ⊆ heap →
      Formed catalog heap (.node i h k t s none os)
  /-- A node may be made again under another name. -/
  | renamed {i h e name} : e ∈ heap →
      Formed catalog heap (.node i h e.kind e.type e.shape (some name) e.operands)
  /-- A node may be made again over equal operands. -/
  | rebuilt {i h e os} : e ∈ heap → Expr.AllSame os e.operands → os ⊆ heap →
      Formed catalog heap (.node i h e.kind e.type e.shape e.givenName os)

section

variable [Hasher]

/-- The hash that a node of the same fields and operands is made with. -/
def Expr.digest (e : Expr) : UInt64 :=
  Hasher.digest (Expr.feed e.kind e.type e.shape e.givenName e.operands)

/-- The history of a supply: its sources, and its nodes with the latest first. -/
inductive Heap : Catalog → List Expr → Supply → Prop
  | empty : Heap [] [] {}
  | node {catalog heap s} (k t sh n os) : Heap catalog heap s →
      Formed catalog heap (s.node k t sh n os).1 →
      Heap catalog ((s.node k t sh n os).1 :: heap) (s.node k t sh n os).2
  | source {catalog heap s} (schema) : Heap catalog heap s →
      Heap ((⟨s.nextSource⟩, schema) :: catalog) heap { s with nextSource := s.nextSource + 1 }
  | function {catalog heap s} : Heap catalog heap s →
      Heap catalog heap { s with nextFunction := s.nextFunction + 1 }

end

/-! ## Forming a node -/

namespace Formed

variable {catalog : Catalog} {heap : List Expr} {e : Expr}

theorem operands_subset (h : Formed catalog heap e)
    (hheap : ∀ n ∈ heap, n.operands ⊆ heap) : e.operands ⊆ heap := by
  cases h with
  | column _ _ => exact List.nil_subset _
  | operation _ _ hos => exact hos
  | @renamed _ _ n _ hn => exact hheap n hn
  | rebuilt _ _ hos => exact hos

end Formed

/-! ## The heap -/

namespace Heap

variable [Hasher] {catalog : Catalog} {heap : List Expr} {s : Supply}

/-- The operands of a node were made before it. -/
theorem operands_subset (h : Heap catalog heap s) : ∀ e ∈ heap, e.operands ⊆ heap := by
  induction h with
  | empty => simp
  | node k t sh n os _ hf ih =>
    intro e he
    rcases List.mem_cons.mp he with rfl | he
    · exact fun o ho => List.mem_cons_of_mem _ (hf.operands_subset ih ho)
    · exact fun o ho => List.mem_cons_of_mem _ (ih e he ho)
  | source _ _ ih => exact ih
  | function _ ih => exact ih

theorem walk_subset (h : Heap catalog heap s) {e : Expr} (he : e ∈ heap) : e.walk ⊆ heap :=
  fun n hn => Expr.forall_walk (P := (· ∈ heap)) (fun e he _ ho => h.operands_subset e he ho) he n hn

theorem id_lt (h : Heap catalog heap s) : ∀ e ∈ heap, e.id.number < s.nextNode := by
  induction h with
  | empty => simp
  | @node catalog heap s k t sh n os _ _ ih =>
    intro e he
    show e.id.number < s.nextNode + 1
    rcases List.mem_cons.mp he with rfl | he
    · exact Nat.lt_succ_self _
    · exact Nat.lt_succ_of_lt (ih e he)
  | source _ _ ih => exact ih
  | function _ ih => exact ih

/-- An identity belongs to one node. -/
theorem eq_of_id_eq (h : Heap catalog heap s) :
    ∀ a ∈ heap, ∀ b ∈ heap, a.id = b.id → a = b := by
  induction h with
  | empty => simp
  | @node catalog heap s k t sh n os hheap _ ih =>
    -- the new node has an identity that no older one has
    have hnew : ∀ e ∈ heap, e.id ≠ (s.node k t sh n os).1.id := by
      intro e he hid
      have hlt := hheap.id_lt e he
      rw [hid] at hlt
      exact Nat.lt_irrefl _ hlt
    intro a ha b hb hab
    rcases List.mem_cons.mp ha with rfl | ha
    · rcases List.mem_cons.mp hb with rfl | hb
      · rfl
      · exact absurd hab.symm (hnew b hb)
    · rcases List.mem_cons.mp hb with rfl | hb
      · exact absurd hab (hnew a ha)
      · exact ih a ha b hb hab
  | source _ _ ih => exact ih
  | function _ ih => exact ih

theorem hash_eq (h : Heap catalog heap s) : ∀ e ∈ heap, e.hash = e.digest := by
  induction h with
  | empty => simp
  | node k t sh n os _ _ ih =>
    intro e he
    rcases List.mem_cons.mp he with rfl | he
    · rfl
    · exact ih e he
  | source _ _ ih => exact ih
  | function _ ih => exact ih

/-! ## Sources -/

theorem source_lt (h : Heap catalog heap s) : ∀ p ∈ catalog, p.1.number < s.nextSource := by
  induction h with
  | empty => simp
  | node _ _ _ _ _ _ _ ih => exact ih
  | @source catalog heap s schema _ ih =>
    intro p hp
    show p.1.number < s.nextSource + 1
    rcases List.mem_cons.mp hp with rfl | hp
    · exact Nat.lt_succ_self _
    · exact Nat.lt_succ_of_lt (ih p hp)
  | function _ ih => exact ih

/-- A source was made with one schema. -/
theorem schema_unique (h : Heap catalog heap s) {source : SourceId} {a b : Schema}
    (ha : (source, a) ∈ catalog) (hb : (source, b) ∈ catalog) : a = b := by
  induction h with
  | empty => simp at ha
  | node _ _ _ _ _ _ _ ih => exact ih ha hb
  | @source catalog heap s schema hheap ih =>
    have hnew : ∀ c, (⟨s.nextSource⟩, c) ∉ catalog :=
      fun c hc => Nat.lt_irrefl _ (hheap.source_lt _ hc)
    simp only [List.mem_cons, Prod.mk.injEq] at ha hb
    rcases ha with ⟨rfl, rfl⟩ | ha
    · rcases hb with ⟨-, rfl⟩ | hb
      · rfl
      · exact absurd hb (hnew b)
    · rcases hb with ⟨rfl, rfl⟩ | hb
      · exact absurd ha (hnew a)
      · exact ih ha hb
  | function _ ih => exact ih ha hb

/-- A column is in the schema of its source, under the name and with the type that it has there. -/
theorem column_mem (h : Heap catalog heap s) : ∀ e ∈ heap, ∀ {name source},
    e.kind = .column name source → ∃ schema, (source, schema) ∈ catalog ∧ (name, e.type) ∈ schema.fields := by
  induction h with
  | empty => simp
  | node k t sh n os _ hf ih =>
    intro e he name source hk
    rcases List.mem_cons.mp he with rfl | he
    · revert hf hk
      generalize (Supply.node _ k t sh n os).1 = e
      intro hf hk
      cases hf with
      | column hs hm =>
        cases hk
        exact ⟨_, hs, hm⟩
      | @operation _ _ k _ _ _ hno _ _ =>
        have hk : k = .column name source := hk
        rw [hk] at hno
        cases hno
      | renamed hm => exact ih _ hm hk
      | rebuilt hm _ _ => exact ih _ hm hk
    · exact ih e he hk
  | source schema _ ih =>
    intro e he name source hk
    obtain ⟨schema, hs, hm⟩ := ih e he hk
    exact ⟨schema, List.mem_cons_of_mem _ hs, hm⟩
  | function _ ih => exact ih

/-! ## Equality on the heap -/

section

variable (h : Heap catalog heap s)
include h

theorem same_cases {a b : Expr} (ha : a ∈ heap) (hb : b ∈ heap) (hab : a.same b = true) :
    a = b ∨ (a.hash = b.hash ∧ a.type = b.type ∧ a.shape = b.shape
      ∧ a.kind.same b.kind = true ∧ a.givenName = b.givenName ∧ Expr.AllSame a.operands b.operands) :=
  (Expr.same_iff.mp hab).imp_left (h.eq_of_id_eq a ha b hb)

/-- Equal nodes have equal operands, also where they are one node. -/
theorem allSame_operands {a b : Expr} (ha : a ∈ heap) (hb : b ∈ heap) (hab : a.same b = true) :
    Expr.AllSame a.operands b.operands := by
  rcases h.same_cases ha hb hab with rfl | ⟨_, _, _, _, _, hos⟩
  · exact List.forall₂_same.mpr fun o _ => Expr.same_refl o
  · exact hos

theorem signature_eq_of_same {a b : Expr} (ha : a ∈ heap) (hb : b ∈ heap) (hab : a.same b = true) :
    a.signature = b.signature := by
  rcases h.same_cases ha hb hab with rfl | ⟨_, ht, hs, _⟩
  · rfl
  · unfold Expr.signature
    rw [ht, hs]

theorem hash_eq_of_same {a b : Expr} (ha : a ∈ heap) (hb : b ∈ heap) (hab : a.same b = true) :
    a.hash = b.hash := by
  rcases h.same_cases ha hb hab with rfl | ⟨hh, _⟩
  · rfl
  · exact hh

theorem map_signature_eq {as bs : List Expr} (ha : as ⊆ heap) (hb : bs ⊆ heap)
    (hab : Expr.AllSame as bs) : as.map Expr.signature = bs.map Expr.signature :=
  map_eq_of_forall₂ hab fun _ hx _ hy => h.signature_eq_of_same (ha hx) (hb hy)

theorem same_trans {a b c : Expr} (ha : a ∈ heap) (hb : b ∈ heap) (hc : c ∈ heap)
    (hab : a.same b = true) (hbc : b.same c = true) : a.same c = true := by
  induction a using Expr.induction generalizing b c with
  | step a ih =>
    rcases h.same_cases ha hb hab with rfl | ⟨hh, ht, hs, hk, hn, hos⟩
    · exact hbc
    · rcases h.same_cases hb hc hbc with rfl | ⟨hh', ht', hs', hk', hn', hos'⟩
      · exact hab
      · refine Expr.same_iff.mpr (Or.inr ⟨hh.trans hh', ht.trans ht', hs.trans hs',
          Kind.same_trans hk hk', hn.trans hn', ?_⟩)
        refine forall₂_trans_of_mem hos hos' fun x hx y hy z hz hxy hyz => ?_
        exact ih x hx (h.operands_subset a ha hx) (h.operands_subset b hb hy)
          (h.operands_subset c hc hz) hxy hyz

/-- A node made again over equal operands is equal to the node itself: the hash is computed from the hashes
of the operands, which are the same. -/
theorem rebuilt_same {e : Expr} {os : List Expr} (he : e ∈ heap) (hos : os ⊆ heap)
    (hsame : Expr.AllSame os e.operands) (s' : Supply) : (e.withOperands os s').1.same e = true := by
  refine Expr.same_iff.mpr (Or.inr ⟨?_, rfl, rfl, Kind.same_refl _, rfl, hsame⟩)
  have hhash : os.map (fun o => HashItem.number o.hash.toNat)
      = e.operands.map (fun o => HashItem.number o.hash.toNat) := by
    refine map_eq_of_forall₂ hsame fun x hx y hy hxy => ?_
    rw [h.hash_eq_of_same (hos hx) (h.operands_subset e he hy) hxy]
  rw [h.hash_eq e he]
  show Hasher.digest (Expr.feed e.kind e.type e.shape e.givenName os) = e.digest
  unfold Expr.digest Expr.feed
  rw [hhash]

end

/-! ## Typing -/

/-- Every node obeys the typing rule of its kind. -/
theorem wellTyped (h : Heap catalog heap s) : ∀ e ∈ heap, e.WellTyped := by
  induction h with
  | empty => simp
  | node k t sh n os hheap hf ih =>
    intro e he
    rcases List.mem_cons.mp he with rfl | he
    · revert hf
      generalize (Supply.node _ k t sh n os).1 = e
      intro hf
      cases hf with
      | column _ _ => exact .column
      | operation _ ht _ => exact ht
      | renamed hm => exact (ih _ hm).congr rfl rfl rfl
      | rebuilt hm hsame hos =>
        exact (ih _ hm).congr rfl rfl
          (hheap.map_signature_eq hos (hheap.operands_subset _ hm) hsame)
    · exact ih e he
  | source _ _ ih => exact ih
  | function _ ih => exact ih

end Heap

/-! ## Growing -/

section

variable [Hasher] {catalog : Catalog} {heap : List Expr} {s : Supply}

/-- A computation that started on a heap has ended with a supply and with results: both belong to a heap
that contains the first. -/
def Grown (catalog : Catalog) (heap : List Expr) (s : Supply) (es : List Expr) : Prop :=
  ∃ larger, heap ⊆ larger ∧ Heap catalog larger s ∧ es ⊆ larger

theorem Grown.rfl {es : List Expr} (h : Heap catalog heap s) (hes : es ⊆ heap) :
    Grown catalog heap s es :=
  ⟨heap, List.Subset.refl _, h, hes⟩

/-- One computation after the other. -/
theorem Grown.trans {s' : Supply} {es es' : List Expr} (h : Grown catalog heap s es)
    (h' : ∀ larger, heap ⊆ larger → Heap catalog larger s → es ⊆ larger → Grown catalog larger s' es') :
    Grown catalog heap s' es' := by
  obtain ⟨larger, hsub, hlarger, hes⟩ := h
  obtain ⟨largest, hsub', hlargest, hes'⟩ := h' larger hsub hlarger hes
  exact ⟨largest, List.Subset.trans hsub hsub', hlargest, hes'⟩

theorem Heap.grown_node {k t sh n os} (h : Heap catalog heap s)
    (hf : Formed catalog heap (s.node k t sh n os).1) :
    Grown catalog heap (s.node k t sh n os).2 [(s.node k t sh n os).1] := by
  refine ⟨_, List.subset_cons_self _ _, .node k t sh n os h hf, ?_⟩
  intro e he
  rw [List.mem_singleton.mp he]
  exact List.mem_cons_self

/-- A node that obeys its typing rule. -/
theorem Heap.grown_operation {k t sh os} (h : Heap catalog heap s) (hk : k.source? = none)
    (ht : k.Typed (os.map Expr.signature) ⟨t, sh⟩) (hos : os ⊆ heap) :
    Grown catalog heap (s.node k t sh none os).2 [(s.node k t sh none os).1] :=
  h.grown_node (.operation hk ht hos)

/-- A node made again under another name. -/
theorem Heap.grown_renamed {e : Expr} (name : String) (h : Heap catalog heap s) (he : e ∈ heap) :
    Grown catalog heap (s.node e.kind e.type e.shape (some name) e.operands).2
      [(s.node e.kind e.type e.shape (some name) e.operands).1] :=
  h.grown_node (.renamed he)

end

end Columnar
