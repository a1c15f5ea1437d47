import Columnar.Proofs.Collection.Ownership
import Columnar.Proofs.Expr.Access
import Columnar.Proofs.Expr.Query
import Columnar.Proofs.Expr.Renumber

/-!
# `Proofs.Expr.Traversal` — what a walk visits, and what is collected on the way

A node is named by the way to it: at every step the number of an operand. Ways in dictionary order are the nodes in
the order of a walk, since a way comes before all that it is continued to, and those through one operand before
those through the next. Sources and columns are collected along the walk. Whether a column is new is decided by
comparison with the columns kept so far; that is as good as comparison with all columns visited so far, because
equality is transitive on a heap.

## Contents
- `Enumerates`: a list of what stands at some places, in the order of the places.
- `Expr.at?`, `walk_enumerates`: the node at the end of a way, and all nodes.
- `mem_sources_iff`, `Expr.JoinsSources`: sources from node to node.
- `Expr.NewColumnAt`: the places where a column is new.
- `Heap.addDistinct_enumerates`, `Heap.columnRefs_enumerates`: one more column, and all distinct columns.
- `Heap.mem_sources_iff_columnRefs`: the distinct columns show all sources.
-/

namespace Columnar

/-- Only a column has a source. -/
theorem Kind.source?_eq_some_iff {k : Kind} {s : SourceId} : k.source? = some s ↔ ∃ name, k = .column name s := by
  cases k <;> simp [source?]

/-! ## Enumerations -/

section

variable {ι κ α : Type} [LT ι] [LT κ] {At At' : ι → α → Prop} {items items' : List α}

/-- The list holds what stands at the places of a relation: each place once, in ascending order. -/
def Enumerates (At : ι → α → Prop) (items : List α) : Prop :=
  ∃ placed : List (ι × α), placed.Pairwise (fun p q => p.1 < q.1) ∧ (∀ i a, (i, a) ∈ placed ↔ At i a)
    ∧ placed.map Prod.snd = items

namespace Enumerates

theorem nil (h : ∀ i a, ¬ At i a) : Enumerates At [] :=
  ⟨[], .nil, fun i a => iff_of_false List.not_mem_nil (h i a), rfl⟩

theorem singleton (i : ι) (a : α) : Enumerates (fun j b => j = i ∧ b = a) [a] := by
  refine ⟨[(i, a)], List.pairwise_singleton _ _, fun j b => ?_, rfl⟩
  rw [List.mem_singleton, Prod.mk.injEq]

theorem congr (h : Enumerates At items) (hiff : ∀ i a, At i a ↔ At' i a) : Enumerates At' items := by
  obtain ⟨placed, hordered, hplaced, hitems⟩ := h
  exact ⟨placed, hordered, fun i a => (hplaced i a).trans (hiff i a), hitems⟩

/-- Places that all come before others. -/
theorem append (h : Enumerates At items) (h' : Enumerates At' items')
    (hlt : ∀ i a j b, At i a → At' j b → i < j) : Enumerates (fun i a => At i a ∨ At' i a) (items ++ items') := by
  obtain ⟨placed, hordered, hplaced, rfl⟩ := h
  obtain ⟨placed', hordered', hplaced', rfl⟩ := h'
  refine ⟨placed ++ placed', List.pairwise_append.mpr ⟨hordered, hordered', ?_⟩, fun i a => ?_, List.map_append⟩
  · rintro ⟨i, a⟩ hp ⟨j, b⟩ hq
    exact hlt i a j b ((hplaced i a).mp hp) ((hplaced' j b).mp hq)
  · rw [List.mem_append, hplaced, hplaced']

/-- The same items at places of another kind, in the same order. -/
theorem moved (h : Enumerates At items) {f : ι → κ} (hf : ∀ i j, i < j → f i < f j) :
    Enumerates (fun k a => ∃ i, k = f i ∧ At i a) items := by
  obtain ⟨placed, hordered, hplaced, rfl⟩ := h
  refine ⟨placed.map fun p => (f p.1, p.2), ?_, fun k a => ?_, ?_⟩
  · rw [List.pairwise_map]
    exact hordered.imp fun hpq => hf _ _ hpq
  · simp only [List.mem_map, Prod.mk.injEq, Prod.exists]
    constructor
    · rintro ⟨i, b, hmem, rfl, rfl⟩
      exact ⟨i, rfl, (hplaced i b).mp hmem⟩
    · rintro ⟨i, rfl, hat⟩
      exact ⟨i, a, (hplaced i a).mpr hat, rfl, rfl⟩
  · rw [List.map_map]
    rfl

theorem mem_iff (h : Enumerates At items) {a : α} : a ∈ items ↔ ∃ i, At i a := by
  obtain ⟨placed, _, hplaced, rfl⟩ := h
  simp only [List.mem_map, Prod.exists, exists_eq_right, hplaced]

/-- What is so of any two places, one before the other, is so of any two items. -/
theorem pairwise (h : Enumerates At items) {R : α → α → Prop} (hR : ∀ i a j b, i < j → At i a → At j b → R a b) :
    items.Pairwise R := by
  obtain ⟨placed, hordered, hplaced, rfl⟩ := h
  rw [List.pairwise_map]
  refine hordered.imp_of_mem fun {p q} hp hq hpq => ?_
  exact hR p.1 p.2 q.1 q.2 hpq ((hplaced _ _).mp hp) ((hplaced _ _).mp hq)

end Enumerates

end

namespace Expr

/-! ## Nodes -/

/-- The node at the end of a way that names an operand at every step. -/
def at? : Expr → List Nat → Option Expr
  | e, [] => some e
  | e, i :: way => (e.operands[i]?).bind fun o => o.at? way

theorem at?_cons_eq_some {e n : Expr} {i : Nat} {way : List Nat} :
    e.at? (i :: way) = some n ↔ ∃ o, e.operands[i]? = some o ∧ o.at? way = some n := by
  rw [at?, Option.bind_eq_some_iff]

/-- The nodes of several expressions in a row that are numbered from `k` on. -/
theorem flatMap_walk_enumerates {es : List Expr}
    (h : ∀ e ∈ es, Enumerates (fun way n => e.at? way = some n) e.walk) (k : Nat) :
    Enumerates (fun way n => ∃ i rest, way = (k + i) :: rest ∧ ∃ e, es[i]? = some e ∧ e.at? rest = some n)
      (es.flatMap walk) := by
  induction es generalizing k with
  | nil => exact .nil fun _ _ ⟨_, _, _, _, he, _⟩ => nomatch he
  | cons e es ih =>
    have hfirst := (h e List.mem_cons_self).moved (f := fun way => k :: way) fun _ _ hlt =>
      List.cons_lt_cons_iff.mpr (.inr ⟨rfl, hlt⟩)
    have hrest := ih (fun e he => h e (List.mem_cons_of_mem _ he)) (k + 1)
    rw [List.flatMap_cons]
    refine (hfirst.append hrest ?_).congr fun way n => ?_
    · rintro _ _ _ _ ⟨way, rfl, _⟩ ⟨i, rest, rfl, _⟩
      exact List.cons_lt_cons_iff.mpr (.inl (by omega))
    · constructor
      · rintro (⟨rest, rfl, hn⟩ | ⟨i, rest, rfl, hn⟩)
        · exact ⟨0, rest, rfl, e, rfl, hn⟩
        · exact ⟨i + 1, rest, by rw [Nat.add_right_comm, Nat.add_assoc], hn⟩
      · rintro ⟨i, rest, rfl, f, hf, hn⟩
        cases i with
        | zero =>
          cases hf
          exact .inl ⟨rest, rfl, hn⟩
        | succ i => exact .inr ⟨i, rest, by rw [Nat.add_right_comm, Nat.add_assoc], f, hf, hn⟩

/-- A walk visits the nodes at the ends of all ways, in the order of the ways. -/
theorem walk_enumerates (e : Expr) : Enumerates (fun way n => e.at? way = some n) e.walk := by
  induction e using Expr.induction with
  | step e ih =>
    rw [walk_eq_cons]
    refine ((Enumerates.singleton [] e).append (flatMap_walk_enumerates ih 0) ?_).congr fun way n => ?_
    · rintro _ _ _ _ ⟨rfl, _⟩ ⟨i, rest, rfl, _⟩
      exact List.nil_lt_cons _ _
    · cases way with
      | nil => simp [at?, eq_comm]
      | cons i way => simp [at?_cons_eq_some]

theorem isColumn_iff {e : Expr} : e.isColumn = true ↔ ∃ name source, e.kind = .column name source := by
  unfold isColumn
  rw [Option.isSome_iff_exists, exists_comm]
  simp only [Kind.source?_eq_some_iff]

/-- A column or a literal has no operands. -/
theorem WellTyped.operands_eq_nil {e : Expr} (h : e.WellTyped) (hleaf : e.kind.isLeaf = true) : e.operands = [] := by
  have htakes := h.takes
  cases hkind : e.kind with
  | column | literal =>
    rw [hkind] at htakes
    exact List.length_eq_zero_iff.mp htakes
  | _ =>
    rw [hkind] at hleaf
    cases hleaf

/-! ## Sources -/

/-- An expression refers to its own source, if it is a column, and to those of its operands. -/
theorem mem_sources_iff {e : Expr} {s : SourceId} :
    s ∈ e.sources ↔ e.kind.source? = some s ∨ ∃ o ∈ e.operands, s ∈ o.sources := by
  simp only [mem_sources]
  rw [walk_eq_cons]
  simp only [List.mem_cons, exists_eq_or_imp, List.mem_flatMap]
  constructor
  · rintro (hs | ⟨n, ⟨o, ho, hn⟩, hs⟩)
    · exact .inl hs
    · exact .inr ⟨o, ho, n, hn, hs⟩
  · rintro (hs | ⟨o, ho, n, hn, hs⟩)
    · exact .inl hs
    · exact .inr ⟨n, ⟨o, ho, hn⟩, hs⟩

/-- The sources are in ascending order, so there is none twice. -/
theorem pairwise_sources (e : Expr) : e.sources.Pairwise fun a b => a.number < b.number :=
  pairwise_ascendingSources _

/-- An expression refers to the sources that others refer to, and to no further one. -/
def JoinsSources (e : Expr) (es : List Expr) : Prop := ∀ s, s ∈ e.sources ↔ ∃ a ∈ es, s ∈ a.sources

/-- A node that is no column refers to the sources of its operands. -/
theorem joinsSources_operands {e : Expr} (h : e.kind.source? = none) : e.JoinsSources e.operands := by
  intro s
  rw [mem_sources_iff, h]
  exact or_iff_right nofun

theorem JoinsSources.congr {e : Expr} {as bs : List Expr} (h : e.JoinsSources as)
    (hmem : ∀ x, x ∈ as ↔ x ∈ bs) : e.JoinsSources bs := by
  intro s
  simp only [h s, hmem]

theorem joinsSources_singleton {e a : Expr} : e.JoinsSources [a] ↔ ∀ s, s ∈ e.sources ↔ s ∈ a.sources := by
  simp [JoinsSources]

/-! ## Columns -/

/-- At the place there is a column, and no column in front of it is equal to it. -/
def NewColumnAt (nodes : List Expr) (i : Nat) (n : Expr) : Prop :=
  nodes[i]? = some n ∧ n.isColumn = true ∧ ∀ m ∈ nodes.take i, m.isColumn = true → ¬ m.same n = true

/-- The place behind some nodes changes nothing for the places in front. -/
theorem newColumnAt_concat {nodes : List Expr} {last n : Expr} {i : Nat} : NewColumnAt (nodes ++ [last]) i n
    ↔ NewColumnAt nodes i n ∨ i = nodes.length ∧ n = last ∧ NewColumnAt (nodes ++ [last]) nodes.length last := by
  unfold NewColumnAt
  rcases Nat.lt_trichotomy i nodes.length with hlt | rfl | hgt
  · rw [List.getElem?_append_left hlt, List.take_append_of_le_length hlt.le]
    refine (or_iff_left ?_).symm
    rintro ⟨heq, _⟩
    exact absurd heq hlt.ne
  · rw [List.getElem?_eq_none le_rfl]
    simp only [List.getElem?_concat_length, Option.some.injEq, reduceCtorEq, false_and, false_or, true_and]
    constructor
    · rintro ⟨rfl, hnew⟩
      exact ⟨rfl, hnew⟩
    · rintro ⟨rfl, hnew⟩
      exact ⟨rfl, hnew⟩
  · rw [List.getElem?_eq_none (by simp; omega), List.getElem?_eq_none hgt.le]
    refine iff_of_false (fun h => nomatch h.1) ?_
    rintro (⟨hn, _⟩ | ⟨heq, _⟩)
    · cases hn
    · exact absurd heq hgt.ne'

/-- If the node behind is not new there, nothing is new there. -/
theorem newColumnAt_concat_of_not {nodes : List Expr} {last n : Expr} {i : Nat}
    (h : ¬ NewColumnAt (nodes ++ [last]) nodes.length last) :
    NewColumnAt (nodes ++ [last]) i n ↔ NewColumnAt nodes i n := by
  rw [newColumnAt_concat]
  exact or_iff_left fun hat => h hat.2.2

/-- A column behind some nodes is new there if it is equal to no column among them. -/
theorem newColumnAt_last {nodes : List Expr} {last : Expr} : NewColumnAt (nodes ++ [last]) nodes.length last
    ↔ last.isColumn = true ∧ ∀ m ∈ nodes, m.isColumn = true → ¬ m.same last = true := by
  unfold NewColumnAt
  simp

end Expr

namespace Heap

variable [Hasher] {catalog : Catalog} {heap : List Expr} {s : Supply} (h : Heap catalog heap s)
include h

/-- For every column among some nodes, a column that is equal to it stands at a place where it is new. -/
theorem exists_newColumnAt {nodes : List Expr} (hnodes : nodes ⊆ heap) {m : Expr} (hm : m ∈ nodes)
    (hcolumn : m.isColumn = true) : ∃ i n, Expr.NewColumnAt nodes i n ∧ n.same m = true := by
  classical
  have hsome : ∃ (i : Nat) (n : Expr), nodes[i]? = some n ∧ n.isColumn = true ∧ n.same m = true := by
    obtain ⟨i, hi⟩ := List.getElem?_of_mem hm
    exact ⟨i, m, hi, hcolumn, Expr.same_refl m⟩
  obtain ⟨n, hn, hncolumn, hnm⟩ := Nat.find_spec hsome
  refine ⟨Nat.find hsome, n, ⟨hn, hncolumn, ?_⟩, hnm⟩
  -- what is equal to the first such column is equal to the given one too, so it cannot stand in front of the first
  intro x hx hxcolumn hxn
  obtain ⟨j, hj⟩ := List.getElem?_of_mem hx
  rw [List.getElem?_take] at hj
  split at hj
  case isFalse => cases hj
  case isTrue hlt =>
    have hxm := h.same_trans (hnodes (List.mem_of_getElem? hj)) (hnodes (List.mem_of_getElem? hn)) (hnodes hm) hxn hnm
    exact Nat.find_min hsome hlt ⟨x, hj, hxcolumn, hxm⟩

/-- It makes no difference whether a node is compared with the columns that were kept or with all columns. -/
theorem any_same_iff {nodes found : List Expr} {n : Expr} (hnodes : nodes ⊆ heap) (hn : n ∈ heap)
    (hfound : Enumerates (Expr.NewColumnAt nodes) found) :
    found.any (·.same n) = true ↔ ∃ m ∈ nodes, m.isColumn = true ∧ m.same n = true := by
  rw [List.any_eq_true]
  constructor
  · rintro ⟨c, hc, hcn⟩
    obtain ⟨i, hc⟩ := hfound.mem_iff.mp hc
    exact ⟨c, List.mem_of_getElem? hc.1, hc.2.1, hcn⟩
  · rintro ⟨m, hm, hcolumn, hmn⟩
    obtain ⟨i, c, hc, hcm⟩ := h.exists_newColumnAt hnodes hm hcolumn
    have hcn := h.same_trans (hnodes (List.mem_of_getElem? hc.1)) (hnodes hm) hn hcm hmn
    exact ⟨c, hfound.mem_iff.mpr ⟨i, hc⟩, hcn⟩

/-- One more column is kept exactly if it is new behind the nodes so far. -/
theorem addDistinct_enumerates {nodes found : List Expr} {last : Expr} (hnodes : nodes ⊆ heap) (hlast : last ∈ heap)
    (hcolumn : last.isColumn = true) (hfound : Enumerates (Expr.NewColumnAt nodes) found) :
    Enumerates (Expr.NewColumnAt (nodes ++ [last])) (Expr.addDistinct found last) := by
  have hkept := h.any_same_iff hnodes hlast hfound
  unfold Expr.addDistinct
  by_cases hany : found.any (·.same last) = true
  · have hold : ¬ Expr.NewColumnAt (nodes ++ [last]) nodes.length last := by
      rw [Expr.newColumnAt_last]
      rintro ⟨_, hdistinct⟩
      obtain ⟨m, hm, hmcolumn, hmlast⟩ := hkept.mp hany
      exact hdistinct m hm hmcolumn hmlast
    rw [if_pos hany]
    refine hfound.congr ?_
    intro i n
    exact (Expr.newColumnAt_concat_of_not hold).symm
  · have hnew : Expr.NewColumnAt (nodes ++ [last]) nodes.length last := by
      refine Expr.newColumnAt_last.mpr ⟨hcolumn, ?_⟩
      intro m hm hmcolumn hmlast
      exact hany (hkept.mpr ⟨m, hm, hmcolumn, hmlast⟩)
    rw [if_neg hany]
    refine (hfound.append (.singleton nodes.length last) ?_).congr ?_
    · rintro i a _ _ ⟨ha, _⟩ ⟨rfl, _⟩
      exact (List.getElem?_eq_some_iff.mp ha).1
    · intro i n
      rw [Expr.newColumnAt_concat, and_iff_left hnew]

/-- Distinct columns collected from some nodes are those at the places where a column is new. -/
theorem foldl_addDistinct_enumerates {nodes : List Expr} (hnodes : nodes ⊆ heap) :
    Enumerates (Expr.NewColumnAt nodes) ((nodes.filter Expr.isColumn).foldl Expr.addDistinct []) := by
  -- from the front on, because every column is compared with those in front of it
  induction nodes using List.reverseRecOn with
  | nil => exact .nil fun _ _ hat => nomatch hat.1
  | append_singleton nodes last ih =>
    obtain ⟨hnodes, hlast⟩ := List.append_subset.mp hnodes
    rw [List.filter_append, List.foldl_append]
    by_cases hcolumn : last.isColumn = true
    · rw [List.filter_cons_of_pos hcolumn, List.filter_nil, List.foldl_cons, List.foldl_nil]
      exact h.addDistinct_enumerates hnodes (hlast (List.mem_singleton_self last)) hcolumn (ih hnodes)
    · have hold : ¬ Expr.NewColumnAt (nodes ++ [last]) nodes.length last := fun hnew => hcolumn hnew.2.1
      rw [List.filter_cons_of_neg hcolumn, List.filter_nil, List.foldl_nil]
      refine (ih hnodes).congr ?_
      intro i n
      exact (Expr.newColumnAt_concat_of_not hold).symm

section

variable {e : Expr} (he : e ∈ heap)
include he

/-- The distinct columns of an expression are those at the places of its walk where a column is new. -/
theorem columnRefs_enumerates : Enumerates (Expr.NewColumnAt e.walk) e.columnRefs :=
  h.foldl_addDistinct_enumerates (h.walk_subset he)

/-- Every column of the expression is equal to one of them. -/
theorem exists_columnRef {n : Expr} (hn : n ∈ e.walk) (hcolumn : n.isColumn = true) :
    ∃ c ∈ e.columnRefs, c.same n = true := by
  obtain ⟨i, c, hc, hcn⟩ := h.exists_newColumnAt (h.walk_subset he) hn hcolumn
  exact ⟨c, (h.columnRefs_enumerates he).mem_iff.mpr ⟨i, hc⟩, hcn⟩

/-- No two of them are equal. -/
theorem pairwise_columnRefs : e.columnRefs.Pairwise fun a b => ¬ a.same b = true := by
  refine (h.columnRefs_enumerates he).pairwise ?_
  intro i a j b hlt ha hb
  have hfront : a ∈ e.walk.take j := by
    refine List.mem_of_getElem? (i := i) ?_
    rw [List.getElem?_take_of_lt hlt]
    exact ha.1
  exact hb.2.2 a hfront ha.2.1

/-- The distinct columns are columns of the same sources as all columns. -/
theorem mem_sources_iff_columnRefs {source : SourceId} :
    source ∈ e.sources ↔ ∃ c ∈ e.columnRefs, c.kind.source? = some source := by
  rw [Expr.mem_sources]
  constructor
  · rintro ⟨n, hn, hsource⟩
    obtain ⟨c, hc, hcn⟩ := h.exists_columnRef he hn (Option.isSome_of_mem hsource)
    have hcheap := h.walk_subset he (e.columnRefs_subset_walk hc)
    have halike := (h.same_iff_alike hcheap (h.walk_subset he hn)).mp hcn
    exact ⟨c, hc, halike.kind.source?_eq.trans hsource⟩
  · rintro ⟨c, hc, hsource⟩
    exact ⟨c, e.columnRefs_subset_walk hc, hsource⟩

end

end Heap

end Columnar
