import Columnar.Proofs.Expr.Traversal
import Columnar.Proofs.Session.Columns

/-!
# `Proofs.Session.References` — how often a column is listed

The distinct columns of an expression are told apart by structural equality. On a heap, where columns of one name over
one source are of one type, that comes down to three things: the name, the source, and the name that was given to the
node. So a column that was renamed is listed beside the column itself if both occur, and otherwise once.

## Contents
- `countP_eq_one_iff`: when exactly one item is as demanded.
- `Heap.same_column_iff`: when a node is equal to a column.
- `Expr.isReference`, `Expr.FirstReferenceAt`: columns of a name and a source, and the first of a given name.
- `reachable_columnRefs`: the distinct columns, in the order of their first places.
- `Orders.compared`: a session where a column and the same column renamed are operands of one node.
-/

namespace Columnar

/-! ## Counting -/

section

variable {α : Type} {R : α → α → Prop} {p : α → Bool} {items : List α}

theorem eq_of_countP_eq_one (h : items.countP p = 1) {a b : α} (ha : a ∈ items) (hb : b ∈ items) (hpa : p a = true)
    (hpb : p b = true) : a = b := by
  rw [List.countP_eq_length_filter, List.length_eq_one_iff] at h
  obtain ⟨x, hx⟩ := h
  have hmem : ∀ y ∈ items, p y = true → y = x := by
    intro y hy hpy
    rw [← List.mem_singleton, ← hx]
    exact List.mem_filter.mpr ⟨hy, hpy⟩
  rw [hmem a ha hpa, hmem b hb hpb]

/-- If all items that are as demanded are alike, but no two items are, one as demanded is the only one. -/
theorem countP_eq_one_iff (h : items.Pairwise fun a b => ¬ R a b)
    (hp : ∀ a ∈ items, ∀ b ∈ items, p a = true → p b = true → R a b) :
    items.countP p = 1 ↔ ∃ a ∈ items, p a = true := by
  rw [← List.countP_pos_iff]
  refine ⟨fun hone => hone ▸ Nat.one_pos, fun hpos => Nat.le_antisymm ?_ hpos⟩
  rw [List.countP_eq_length_filter]
  have hfiltered := h.filter p
  match hmatch : items.filter p with
  | [] | [_] => simp
  | a :: b :: rest =>
    rw [hmatch] at hfiltered
    obtain ⟨ha, hpa⟩ := List.mem_filter.mp (hmatch ▸ List.mem_cons_self : a ∈ items.filter p)
    obtain ⟨hb, hpb⟩ := List.mem_filter.mp
      (hmatch ▸ List.mem_cons_of_mem _ List.mem_cons_self : b ∈ items.filter p)
    exact absurd (hp a ha b hb hpa hpb) (List.rel_of_pairwise_cons hfiltered List.mem_cons_self)

end

/-! ## References -/

namespace Expr

/-- Whether the node is the column of a name over a source. -/
def isReference (name : String) (source : SourceId) (e : Expr) : Bool :=
  match e.kind with
  | .column n s => n == name && s == source
  | _ => false

theorem isReference_iff {e : Expr} {name : String} {source : SourceId} :
    e.isReference name source = true ↔ e.kind = .column name source := by
  unfold isReference
  cases e.kind <;> simp

/-- At the place there is a column, and no column of its name and source in front of it has its given name. -/
def FirstReferenceAt (nodes : List Expr) (i : Nat) (n : Expr) : Prop :=
  nodes[i]? = some n ∧ ∃ name source, n.kind = .column name source
    ∧ ∀ m ∈ nodes.take i, m.kind = .column name source → m.givenName ≠ n.givenName

end Expr

namespace Heap

variable [Hasher] {catalog : Catalog} {heap : List Expr} {s : Supply} (h : Heap catalog heap s)
include h

/-- A node is equal to a column exactly if it is the column of that name and source under the same given name. -/
theorem same_column_iff {m n : Expr} (hm : m ∈ heap) (hn : n ∈ heap) {name : String} {source : SourceId}
    (hkind : n.kind = .column name source) :
    m.same n = true ↔ m.kind = .column name source ∧ m.givenName = n.givenName := by
  have hcolumn : ∀ {x : Expr}, x ∈ heap → x.kind = .column name source → x.shape = .sequence ∧ x.operands = [] := by
    intro x hx hxkind
    have htyped := h.wellTyped x hx
    have hleaf : x.kind.isLeaf = true := by rw [hxkind]; rfl
    refine ⟨htyped.shape_eq_sequence_iff.mpr (.inl ?_), htyped.operands_eq_nil hleaf⟩
    rw [hxkind]
    rfl
  rw [h.same_iff_alike hm hn]
  constructor
  · rintro ⟨hk, _, _, hgiven, _⟩
    rw [hkind] at hk
    generalize m.kind = k at hk
    cases hk
    exact ⟨rfl, hgiven⟩
  · rintro ⟨hmkind, hgiven⟩
    obtain ⟨hmshape, hmoperands⟩ := hcolumn hm hmkind
    obtain ⟨hnshape, hnoperands⟩ := hcolumn hn hkind
    refine .node ?_ (h.column_type_unique hm hn hmkind hkind) (hmshape.trans hnshape.symm) hgiven ?_
    · rw [hmkind, hkind]
      exact .rfl
    · rw [hmoperands, hnoperands]
      exact .nil

/-- The places where a column is new are those where its name, source and given name come together first. -/
theorem newColumnAt_iff {nodes : List Expr} (hnodes : nodes ⊆ heap) {i : Nat} {n : Expr} :
    Expr.NewColumnAt nodes i n ↔ Expr.FirstReferenceAt nodes i n := by
  unfold Expr.NewColumnAt Expr.FirstReferenceAt
  refine and_congr_right fun hn => ?_
  have hmem : ∀ m ∈ nodes.take i, m ∈ heap := fun m hm => hnodes (List.mem_of_mem_take hm)
  have hn := hnodes (List.mem_of_getElem? hn)
  rw [Expr.isColumn_iff]
  constructor
  · rintro ⟨⟨name, source, hkind⟩, hnew⟩
    refine ⟨name, source, hkind, ?_⟩
    intro m hm hmkind hgiven
    exact hnew m hm (Expr.isColumn_iff.mpr ⟨name, source, hmkind⟩)
      ((h.same_column_iff (hmem m hm) hn hkind).mpr ⟨hmkind, hgiven⟩)
  · rintro ⟨name, source, hkind, hfirst⟩
    refine ⟨⟨name, source, hkind⟩, ?_⟩
    intro m hm _ hmn
    obtain ⟨hmkind, hgiven⟩ := (h.same_column_iff (hmem m hm) hn hkind).mp hmn
    exact hfirst m hm hmkind hgiven

variable {e : Expr} (he : e ∈ heap) {name : String} {source : SourceId}
include he

/-- For every column in the expression, the column of that name, source and given name is listed. -/
theorem exists_reference {n : Expr} (hn : n ∈ e.walk) (hkind : n.kind = .column name source) :
    ∃ c ∈ e.columnRefs, c.kind = .column name source ∧ c.givenName = n.givenName := by
  obtain ⟨c, hc, hcn⟩ := h.exists_columnRef he hn (Expr.isColumn_iff.mpr ⟨name, source, hkind⟩)
  have hcheap := h.walk_subset he (e.columnRefs_subset_walk hc)
  exact ⟨c, hc, (h.same_column_iff hcheap (h.walk_subset he hn) hkind).mp hcn⟩

/-- Of the columns listed, those of one name, source and given name are equal. -/
theorem same_of_givenName_eq {a b : Expr} (ha : a ∈ e.columnRefs) (hb : b ∈ e.columnRefs)
    (hakind : a.kind = .column name source) (hbkind : b.kind = .column name source)
    (hgiven : a.givenName = b.givenName) : a.same b = true := by
  have hmem : ∀ {c}, c ∈ e.columnRefs → c ∈ heap := fun hc => h.walk_subset he (e.columnRefs_subset_walk hc)
  exact (h.same_column_iff (hmem ha) (hmem hb) hbkind).mpr ⟨hakind, hgiven⟩

/-- A column is listed exactly once under every name that is given to it. -/
theorem countP_givenName_eq_one_iff {given : Option String} :
    (e.columnRefs.countP fun c => c.isReference name source && c.givenName == given) = 1
      ↔ ∃ n ∈ e.walk, n.kind = .column name source ∧ n.givenName = given := by
  rw [countP_eq_one_iff (h.pairwise_columnRefs he)]
  · simp only [Bool.and_eq_true, Expr.isReference_iff, beq_iff_eq]
    constructor
    · rintro ⟨c, hc, hkind, hgiven⟩
      exact ⟨c, e.columnRefs_subset_walk hc, hkind, hgiven⟩
    · rintro ⟨n, hn, hkind, rfl⟩
      exact h.exists_reference he hn hkind
  · simp only [Bool.and_eq_true, Expr.isReference_iff, beq_iff_eq]
    rintro a ha b hb ⟨hakind, hagiven⟩ ⟨hbkind, hbgiven⟩
    exact h.same_of_givenName_eq he ha hb hakind hbkind (hagiven.trans hbgiven.symm)

/-- A column is listed exactly once if it occurs, and always under the same given name. -/
theorem countP_isReference_eq_one_iff : e.columnRefs.countP (Expr.isReference name source) = 1
    ↔ (∃ n ∈ e.walk, n.kind = .column name source)
      ∧ ∀ m ∈ e.walk, ∀ n ∈ e.walk, m.kind = .column name source → n.kind = .column name source →
        m.givenName = n.givenName := by
  constructor
  · intro hone
    obtain ⟨c, hc, hkind⟩ := List.countP_pos_iff.mp (hone ▸ Nat.one_pos)
    refine ⟨⟨c, e.columnRefs_subset_walk hc, Expr.isReference_iff.mp hkind⟩, ?_⟩
    intro m hm n hn hmkind hnkind
    obtain ⟨a, ha, hakind, hagiven⟩ := h.exists_reference he hm hmkind
    obtain ⟨b, hb, hbkind, hbgiven⟩ := h.exists_reference he hn hnkind
    have hab := eq_of_countP_eq_one hone ha hb (Expr.isReference_iff.mpr hakind) (Expr.isReference_iff.mpr hbkind)
    rw [← hagiven, ← hbgiven, hab]
  · rintro ⟨⟨n, hn, hkind⟩, halways⟩
    refine (countP_eq_one_iff (h.pairwise_columnRefs he) ?_).mpr ?_
    · intro a ha b hb hakind hbkind
      rw [Expr.isReference_iff] at hakind hbkind
      have hgiven := halways a (e.columnRefs_subset_walk ha) b (e.columnRefs_subset_walk hb) hakind hbkind
      exact h.same_of_givenName_eq he ha hb hakind hbkind hgiven
    · obtain ⟨c, hc, hckind, _⟩ := h.exists_reference he hn hkind
      exact ⟨c, hc, Expr.isReference_iff.mpr hckind⟩

end Heap

/-! ## A column beside the same column renamed -/

namespace Orders

/-- The column under a name of its own. -/
def due : Expr := .node ⟨8⟩ 0 (.column "paid" ⟨1⟩) .boolean .sequence (some "due") []

def both : Expr := .node ⟨9⟩ 0 (.binary .and) .boolean .sequence none [paid, due]

/-- A column is renamed, and the outcome joined with the column. -/
def compared : Session :=
  { session with supply := ⟨10, 2, 0⟩, exprs := both :: due :: session.exprs }

theorem compared_reachable : @Session.Reachable collide compared := by
  let _ : Hasher := collide
  have hrenamed : Session.Reachable { session with supply := ⟨9, 2, 0⟩, exprs := due :: session.exprs } := by
    refine .step session_reachable (.construct (.rename paid "due") ?_ rfl)
    exact List.forall_mem_singleton.mpr (.field (c := report) List.mem_cons_self List.mem_cons_self)
  refine .step hrenamed (.construct (.binary paid .and due) ?_ rfl)
  exact List.forall_mem_cons.mpr ⟨.field (c := report) List.mem_cons_self List.mem_cons_self,
    List.forall_mem_singleton.mpr (.returned List.mem_cons_self)⟩

end Orders

namespace Session

/-- In every reachable session, the distinct columns of an expression are the columns visited at the places where name,
source and given name come together first, in the order of these places. So for a column there is exactly one entry for
each given name under which it occurs, and exactly one entry at all if it occurs and all its occurrences have the same
given name. -/
theorem reachable_columnRefs [Hasher] {s : Session} (h : Reachable s) {e : Expr} (he : s.Has e) :
    Enumerates (Expr.FirstReferenceAt e.walk) e.columnRefs
      ∧ ∀ name source,
        (∀ given, (e.columnRefs.countP fun c => c.isReference name source && c.givenName == given) = 1
          ↔ ∃ n ∈ e.walk, n.kind = .column name source ∧ n.givenName = given)
        ∧ (e.columnRefs.countP (Expr.isReference name source) = 1
          ↔ (∃ n ∈ e.walk, n.kind = .column name source)
            ∧ ∀ m ∈ e.walk, ∀ n ∈ e.walk, m.kind = .column name source → n.kind = .column name source →
              m.givenName = n.givenName) := by
  obtain ⟨heap, hsound⟩ := h.sound
  have hheap := hsound.history
  have he := hsound.has_mem he
  refine ⟨?_, ?_⟩
  · refine (hheap.columnRefs_enumerates he).congr ?_
    intro i n
    exact hheap.newColumnAt_iff (hheap.walk_subset he)
  · intro name source
    refine ⟨?_, hheap.countP_isReference_eq_one_iff he⟩
    intro given
    exact hheap.countP_givenName_eq_one_iff he

/-- A filled column is listed once. Joined with itself under another name, it is listed once under each name. -/
theorem reachable_columnRefs_compared : @Reachable Orders.collide Orders.compared
    ∧ Orders.compared.Has (Orders.settled 3 (Orders.no 2) none) ∧ Orders.compared.Has Orders.both
    ∧ (Orders.settled 3 (Orders.no 2) none).columnRefs.countP (Expr.isReference "paid" ⟨1⟩) = 1
    ∧ (Orders.both.columnRefs.countP fun c => c.isReference "paid" ⟨1⟩ && c.givenName == none) = 1
    ∧ (Orders.both.columnRefs.countP fun c => c.isReference "paid" ⟨1⟩ && c.givenName == some "due") = 1 := by
  have hreach := Orders.compared_reachable
  have hsettled : Orders.compared.Has (Orders.settled 3 (Orders.no 2) none) :=
    .returned (by simp [Orders.compared, Orders.session])
  have hboth : Orders.compared.Has Orders.both := .returned List.mem_cons_self
  have hone := (@reachable_columnRefs Orders.collide _ hreach _ hsettled).2 "paid" ⟨1⟩
  have heach := (@reachable_columnRefs Orders.collide _ hreach _ hboth).2 "paid" ⟨1⟩
  have hunnamed : ∀ n ∈ (Orders.settled 3 (Orders.no 2) none).walk, n.givenName = none := by decide
  have hpaid : Orders.paid ∈ Orders.both.walk := Expr.mem_walk_of_operand List.mem_cons_self (Expr.mem_walk_self _)
  have hdue : Orders.due ∈ Orders.both.walk :=
    Expr.mem_walk_of_operand (List.mem_cons_of_mem _ List.mem_cons_self) (Expr.mem_walk_self _)
  refine ⟨hreach, hsettled, hboth, hone.2.mpr ⟨⟨Orders.paid, ?_, rfl⟩, fun m hm n hn _ _ => ?_⟩,
    (heach.1 none).mpr ⟨Orders.paid, hpaid, rfl, rfl⟩, (heach.1 (some "due")).mpr ⟨Orders.due, hdue, rfl, rfl⟩⟩
  · exact Expr.mem_walk_of_operand List.mem_cons_self (Expr.mem_walk_self _)
  · rw [hunnamed m hm, hunnamed n hn]

/-- A column and the same column renamed are two entries of one name and source. -/
theorem renamed_column_listed_apart : ¬ ∀ s : Session, @Reachable Orders.collide s → ∀ e, s.Has e →
    ∀ name source, (∃ n ∈ e.walk, n.kind = .column name source) →
      e.columnRefs.countP (Expr.isReference name source) = 1 := by
  intro hclaim
  have hpaid : Orders.paid ∈ Orders.both.walk := Expr.mem_walk_of_operand List.mem_cons_self (Expr.mem_walk_self _)
  have hboth := hclaim _ Orders.compared_reachable Orders.both (.returned List.mem_cons_self) "paid" ⟨1⟩
    ⟨Orders.paid, hpaid, rfl⟩
  have htwo : Orders.both.columnRefs.countP (Expr.isReference "paid" ⟨1⟩) = 2 := by decide
  rw [htwo] at hboth
  cases hboth

end Session

end Columnar
