import Columnar.Proofs.Collection.Ownership
import Columnar.Proofs.Expr.Writing

/-!
# `Proofs.Expr.Renumber` — expressions under other numbers

Sources get their numbers from a counter that all parts of a process share, so the numbers say what else the process
has done. An expression with other numbers for its sources is a different expression, of another hash; but nothing
that can be read off it depends on the numbers, apart from the numbers themselves.

## Contents
- `Renumbering`: other numbers for sources and functions, and later identities for nodes.
- `Kind.renumber`, `Expr.renumber`: kinds and expressions under these numbers.
- `text_renumber`, `walk_renumber`, `branches_renumber` and so on: what is read off a renumbered expression.
- `ascendingSources`, `sources_renumber`: its sources.
-/

namespace Columnar

/-- Other numbers for sources and functions. Nodes get the identities of nodes that are made later by so many. -/
structure Renumbering where
  source : SourceId → SourceId
  function : FunctionId → FunctionId := id
  nodes : Nat := 0

/-- Different sources keep different numbers, and so do different functions. -/
structure Renumbering.Injective (ρ : Renumbering) : Prop where
  source : Function.Injective ρ.source
  function : Function.Injective ρ.function

/-- The identity of a node that is made later by so many. -/
def NodeId.later (i : NodeId) (nodes : Nat) : NodeId := ⟨nodes + i.number⟩

theorem NodeId.later_inj {i j : NodeId} {nodes : Nat} : i.later nodes = j.later nodes ↔ i = j := by
  cases i
  cases j
  simp [later]

def MapFunction.renumber (ρ : Renumbering) (f : MapFunction) : MapFunction := { f with id := ρ.function f.id }

def Mapping.renumber (ρ : Renumbering) (m : Mapping) : Mapping := { m with function := m.function.renumber ρ }

/-! ## Kinds -/

namespace Kind

variable (ρ : Renumbering)

/-- Only columns and mappings have numbers. -/
def renumber : Kind → Kind
  | column name source => column name (ρ.source source)
  | map m => map (m.renumber ρ)
  | k => k

variable (k : Kind)

@[simp] theorem name_renumber : (k.renumber ρ).name = k.name := by cases k <;> rfl

@[simp] theorem source?_renumber : (k.renumber ρ).source? = k.source?.map ρ.source := by cases k <;> rfl

@[simp] theorem literal?_renumber : (k.renumber ρ).literal? = k.literal? := by cases k <;> rfl

@[simp] theorem bins?_renumber : (k.renumber ρ).bins? = k.bins? := by cases k <;> rfl

@[simp] theorem mapping?_renumber : (k.renumber ρ).mapping? = k.mapping?.map (Mapping.renumber ρ) := by
  cases k <;> rfl

/-- A node is written without numbers. -/
@[simp] theorem write_renumber (t : ElementType) (texts : List String) :
    (k.renumber ρ).write t texts = k.write t texts := by
  cases k <;> rfl

variable {ρ k}

/-- Renumbered kinds are equal exactly if the kinds are. -/
theorem same_renumber (hρ : ρ.Injective) {l : Kind} : (k.renumber ρ).same (l.renumber ρ) = k.same l := by
  cases k with
  | column n s =>
    cases l with
    | column m t =>
      simp only [renumber, same]
      rw [Bool.eq_iff_iff]
      simp only [Bool.and_eq_true, beq_iff_eq, hρ.source.eq_iff]
    | _ => rfl
  | map m =>
    cases l with
    | map n =>
      simp only [renumber, same]
      rw [Bool.eq_iff_iff, Mapping.same_iff, Mapping.same_iff]
      exact and_congr Iff.rfl (and_congr hρ.function.eq_iff Iff.rfl)
    | _ => rfl
  | _ => cases l <;> rfl

end Kind

/-- Parts are taken from their places, whatever the operands are. -/
theorem Branches.ofOperands_map {α β : Type} (f : α → β) (hasCase hasDefault : Bool) (operands : List α) :
    Branches.ofOperands hasCase hasDefault (operands.map f)
      = (Branches.ofOperands hasCase hasDefault operands).map f := by
  unfold Branches.ofOperands Branches.map
  cases hasCase <;> cases hasDefault <;> simp [List.map_take, List.map_drop]

/-! ## Expressions -/

namespace Expr

/-- A source is put in its place. -/
theorem pairwise_insertSource {s : SourceId} {ts : List SourceId} (h : ts.Pairwise fun a b => a.number < b.number) :
    (insertSource s ts).Pairwise fun a b => a.number < b.number := by
  induction ts with
  | nil => exact List.pairwise_singleton _ _
  | cons t ts ih =>
    obtain ⟨hfirst, hrest⟩ := List.pairwise_cons.mp h
    rw [insertSource]
    by_cases hlt : s.number < t.number
    · rw [if_pos hlt]
      refine List.pairwise_cons.mpr ⟨List.forall_mem_cons.mpr ⟨hlt, fun u hu => ?_⟩, h⟩
      exact hlt.trans (hfirst u hu)
    · rw [if_neg hlt]
      by_cases heq : s.number = t.number
      · rw [if_pos heq]
        exact h
      · rw [if_neg heq]
        refine List.pairwise_cons.mpr ⟨fun u hu => ?_, ih hrest⟩
        rcases mem_insertSource.mp hu with rfl | hu
        · omega
        · exact hfirst u hu

/-- A list of sources, put in ascending order without repetition. -/
def ascendingSources (ss : List SourceId) : List SourceId := ss.foldr insertSource []

theorem mem_ascendingSources {ss : List SourceId} {s : SourceId} : s ∈ ascendingSources ss ↔ s ∈ ss := by
  unfold ascendingSources
  induction ss with
  | nil => rfl
  | cons t ts ih => rw [List.foldr_cons, mem_insertSource, ih, List.mem_cons]

theorem pairwise_ascendingSources (ss : List SourceId) :
    (ascendingSources ss).Pairwise fun a b => a.number < b.number := by
  unfold ascendingSources
  induction ss with
  | nil => exact .nil
  | cons t ts ih => exact pairwise_insertSource ih

theorem nodup_ascendingSources (ss : List SourceId) : (ascendingSources ss).Nodup :=
  (pairwise_ascendingSources ss).imp fun hab heq => hab.ne (congrArg SourceId.number heq)

/-- Sources put in ascending order are told by their members. -/
theorem ascendingSources_congr {ss ts : List SourceId} (h : ∀ s, s ∈ ss ↔ s ∈ ts) :
    ascendingSources ss = ascendingSources ts := by
  have hperm : (ascendingSources ss).Perm (ascendingSources ts) := by
    rw [List.perm_ext_iff_of_nodup (nodup_ascendingSources ss) (nodup_ascendingSources ts)]
    intro s
    rw [mem_ascendingSources, mem_ascendingSources, h]
  exact hperm.eq_of_pairwise (fun _ _ _ _ hab hba => absurd hab hba.not_gt) (pairwise_ascendingSources _)
    (pairwise_ascendingSources _)

section

variable [Hasher] (ρ : Renumbering)

mutual

/-- The expression with all its numbers changed. The hashes are those that nodes of these numbers are made with. -/
def renumber : Expr → Expr
  | node i _ k t s n os =>
    node (i.later ρ.nodes) (Hasher.digest (feed (k.renumber ρ) t s n (renumberList os))) (k.renumber ρ) t s n
      (renumberList os)

/-- Several expressions with all their numbers changed. -/
def renumberList : List Expr → List Expr
  | [] => []
  | e :: es => e.renumber :: renumberList es

end

theorem renumberList_eq_map : ∀ es : List Expr, renumberList ρ es = es.map (renumber ρ)
  | [] => by simp [renumberList]
  | e :: es => by simp [renumberList, renumberList_eq_map es]

variable (e : Expr)

@[simp] theorem id_renumber : (e.renumber ρ).id = e.id.later ρ.nodes := by
  cases e
  rw [renumber]
  rfl

@[simp] theorem kind_renumber : (e.renumber ρ).kind = e.kind.renumber ρ := by
  cases e
  rw [renumber]
  rfl

@[simp] theorem type_renumber : (e.renumber ρ).type = e.type := by
  cases e
  rw [renumber]
  rfl

@[simp] theorem shape_renumber : (e.renumber ρ).shape = e.shape := by
  cases e
  rw [renumber]
  rfl

@[simp] theorem givenName_renumber : (e.renumber ρ).givenName = e.givenName := by
  cases e
  rw [renumber]
  rfl

@[simp] theorem operands_renumber : (e.renumber ρ).operands = e.operands.map (renumber ρ) := by
  cases e
  rw [renumber, renumberList_eq_map]
  rfl

/-- A renumbered expression has the hash of its fields. -/
theorem hash_renumber : (e.renumber ρ).hash = (e.renumber ρ).digest := by
  cases e
  rw [renumber]
  rfl

/-! ## What is read off an expression -/

@[simp] theorem isScalar_renumber : (e.renumber ρ).isScalar = e.isScalar := by
  unfold isScalar
  rw [shape_renumber]

@[simp] theorem isSequence_renumber : (e.renumber ρ).isSequence = e.isSequence := by
  unfold isSequence
  rw [shape_renumber]

@[simp] theorem isLeaf_renumber : (e.renumber ρ).isLeaf = e.isLeaf := by
  unfold isLeaf
  rw [operands_renumber, List.isEmpty_map]

@[simp] theorem isColumn_renumber : (e.renumber ρ).isColumn = e.isColumn := by
  unfold isColumn
  rw [kind_renumber, Kind.source?_renumber, Option.isSome_map]

@[simp] theorem name?_renumber : (e.renumber ρ).name? = e.name? := by
  unfold name?
  rw [givenName_renumber, kind_renumber]
  cases e.givenName with
  | some n => rfl
  | none => cases e.kind <;> rfl

/-- Identities are moved on, so that identical nodes stay identical and no others become so. -/
@[simp] theorem identical_renumber (a b : Expr) : (a.renumber ρ).identical (b.renumber ρ) = a.identical b := by
  rw [Bool.eq_iff_iff, identical_iff, identical_iff, id_renumber, id_renumber, NodeId.later_inj]

/-- No number is written out. -/
@[simp] theorem text_renumber : (e.renumber ρ).text = e.text := by
  induction e using Expr.induction with
  | step e ih =>
    have htexts : (e.operands.map (renumber ρ)).map text = e.operands.map text := by
      rw [List.map_map]
      exact List.map_congr_left ih
    rw [text_eq, text_eq, kind_renumber, type_renumber, givenName_renumber, operands_renumber, htexts,
      Kind.write_renumber]

@[simp] theorem walk_renumber : (e.renumber ρ).walk = e.walk.map (renumber ρ) := by
  induction e using Expr.induction with
  | step e ih =>
    have hwalks : (e.operands.map (renumber ρ)).flatMap walk = (e.operands.flatMap walk).map (renumber ρ) := by
      rw [List.flatMap_map, List.map_flatMap]
      exact List.flatMap_congr ih
    rw [walk_eq_cons, walk_eq_cons, operands_renumber, hwalks, List.map_cons]

@[simp] theorem candidates_renumber : (e.renumber ρ).candidates = e.candidates.map (renumber ρ) := by
  unfold candidates
  rw [kind_renumber, operands_renumber]
  cases e.kind with
  | membership negated => exact List.map_drop.symm
  | _ => rfl

/-- The parts of a switch. -/
@[simp] theorem branches_renumber : (e.renumber ρ).branches = e.branches.map (renumber ρ) := by
  unfold branches
  rw [kind_renumber, operands_renumber]
  cases e.kind with
  | switch hasCase hasDefault => exact Branches.ofOperands_map _ _ _ _
  | _ => rfl

/-- The sources are those of the expression under their other numbers, again in ascending order. -/
theorem sources_renumber : (e.renumber ρ).sources = ascendingSources (e.sources.map ρ.source) := by
  have hfound : (e.renumber ρ).walk.filterMap (fun n => n.kind.source?)
      = (e.walk.filterMap fun n => n.kind.source?).map ρ.source := by
    rw [walk_renumber, List.filterMap_map, List.map_filterMap]
    exact List.filterMap_congr fun n _ => by
      rw [Function.comp_apply, kind_renumber, Kind.source?_renumber]
  show ascendingSources ((e.renumber ρ).walk.filterMap fun n => n.kind.source?) = _
  rw [hfound]
  refine ascendingSources_congr fun s => ?_
  show _ ↔ s ∈ (ascendingSources (e.walk.filterMap fun n => n.kind.source?)).map ρ.source
  simp only [List.mem_map, mem_ascendingSources]

/-- There are as many sources as before. -/
theorem length_sources_renumber {ρ : Renumbering} (hρ : ρ.Injective) (e : Expr) :
    (e.renumber ρ).sources.length = e.sources.length := by
  have hnodup : (e.sources.map ρ.source).Nodup := (nodup_ascendingSources _).map hρ.source
  have hperm : (ascendingSources (e.sources.map ρ.source)).Perm (e.sources.map ρ.source) := by
    rw [List.perm_ext_iff_of_nodup (nodup_ascendingSources _) hnodup]
    exact fun _ => mem_ascendingSources
  rw [sources_renumber, hperm.length_eq, List.length_map]

end

end Expr

end Columnar
