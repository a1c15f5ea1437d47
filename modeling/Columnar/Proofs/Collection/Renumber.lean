import Columnar.Collection.Apply
import Columnar.Proofs.Expr.Equivariance

/-!
# `Proofs.Collection.Renumber` — collections under other numbers

A collection compares numbers in one place only: it asks whether the columns of an expression are of its own source.
As long as different sources keep different numbers, the answer stays the same; and what a collection does
otherwise it does by names, types and shapes. So fields are found, chosen and mapped under other numbers as they
are under the first.

## Contents
- `Collection.renumber`, `FieldRef.map`, `Applied.renumber`: collections, references and results under other numbers.
- `checkOwned_renumber`: whose an expression is.
- `col_renumber`, `select_renumber`: fields that are found and chosen.
- `switch_renumbers`, `apply_renumbers`: expressions that are made over a collection.
- `make_renumber`: a new source, if its number is the one that comes next on both sides.
-/

namespace Columnar

/-- A reference to another expression, or by the same name. -/
def FieldRef.map (f : Expr → Expr) : FieldRef → FieldRef
  | named n => named n
  | given e => given (f e)

section

variable [Hasher] (ρ : Renumbering)

/-- The collection under other numbers. -/
def Collection.renumber (c : Collection) : Collection :=
  { c with source := ρ.source c.source, fields := c.fields.map (Expr.renumber ρ) }

/-- What comes of an application, under other numbers. -/
def Applied.renumber : Applied → Applied
  | sequence e => sequence (e.renumber ρ)
  | collection c => collection (c.renumber ρ)

end

/-! ## One after the other -/

section

variable {α β γ δ ε : Type}

/-- The next step does what it does on renamed results, if the first step gives the renamed result. -/
theorem except_bind_map {f : α → β} {g : γ → δ} {x : Except ε α} {y : Except ε β} {p : α → Except ε γ}
    {q : β → Except ε δ} (h : y = f <$> x) (hpq : ∀ a, x = .ok a → q (f a) = g <$> p a) :
    (y >>= q) = g <$> (x >>= p) := by
  rw [h]
  cases x with
  | error e => rfl
  | ok a => exact hpq a rfl

/-- A step that is the same on both sides. -/
theorem except_same_bind_map {g : γ → δ} (x : Except ε α) {p : α → Except ε γ} {q : α → Except ε δ}
    (hpq : ∀ a, q a = g <$> p a) : (x >>= q) = g <$> (x >>= p) :=
  except_bind_map (id_map x).symm fun a _ => hpq a

/-- Results for renamed items, where each is the renamed result. -/
theorem except_mapM_map {ι κ : Type} {items : List ι} {r : ι → κ} {f : α → β} {x : ι → Except ε α}
    {y : κ → Except ε β} (h : ∀ i, y (r i) = f <$> x i) : (items.map r).mapM y = List.map f <$> items.mapM x := by
  induction items with
  | nil => rfl
  | cons i items ih =>
    rw [List.map_cons, List.mapM_cons, List.mapM_cons]
    exact except_bind_map (h i) fun a _ => except_bind_map ih fun as _ => rfl

/-- Results for the same items on both sides. -/
theorem except_mapM_same {ι : Type} {items : List ι} {f : α → β} {x : ι → Except ε α} {y : ι → Except ε β}
    (h : ∀ i, y i = f <$> x i) : items.mapM y = List.map f <$> items.mapM x := by
  have hmap : (items.map id).mapM y = List.map f <$> items.mapM x := except_mapM_map h
  rwa [List.map_id] at hmap

end

namespace Collection

variable [Hasher] {ρ : Renumbering} (c : Collection)

/-! ## Fields -/

theorem col_renumber (name : String) : (c.renumber ρ).col name = Expr.renumber ρ <$> c.col name := by
  have hfields : ∀ i : Nat, (c.renumber ρ).fields[i]? = (c.fields[i]?).map (Expr.renumber ρ) :=
    fun i => List.getElem?_map
  have hschema : (c.renumber ρ).schema = c.schema := rfl
  unfold col
  rw [hschema]
  cases c.schema.indexOf? name with
  | none => rfl
  | some i =>
    rw [Option.bind_some, Option.bind_some, hfields]
    cases c.fields[i]? <;> rfl

section

variable (hρ : ρ.Injective)
include hρ

/-- An expression is the collection's or not, whatever the numbers are. -/
theorem checkOwned_renumber (e : Expr) : (c.renumber ρ).checkOwned (e.renumber ρ) = c.checkOwned e := by
  have hall : (e.renumber ρ).sources.all (· == (c.renumber ρ).source) = e.sources.all (· == c.source) := by
    rw [Bool.eq_iff_iff, List.all_eq_true, List.all_eq_true, Expr.sources_renumber]
    simp only [Expr.mem_ascendingSources, List.forall_mem_map, beq_iff_eq]
    exact forall₂_congr fun s _ => hρ.source.eq_iff
  unfold checkOwned
  rw [hall, Expr.text_renumber]
  rfl

theorem checkAllOwned_renumber (es : List Expr) :
    (c.renumber ρ).checkAllOwned (es.map (Expr.renumber ρ)) = c.checkAllOwned es :=
  Expr.forM_map_eq (checkOwned_renumber c hρ)

theorem resolve_renumber (ref : FieldRef) :
    (c.renumber ρ).resolve (ref.map (Expr.renumber ρ)) = Expr.renumber ρ <$> c.resolve ref := by
  cases ref with
  | named n => exact col_renumber c n
  | given e =>
    show ((c.renumber ρ).checkOwned (e.renumber ρ) >>= fun _ => pure (e.renumber ρ)) = _
    rw [checkOwned_renumber c hρ]
    exact except_same_bind_map _ fun _ => rfl

end

/-- A schema takes up the name and the type. -/
theorem pushNamed_renumber (checker : Checker) (schema : Schema) (e : Expr) :
    pushNamed checker schema (e.renumber ρ) = pushNamed checker schema e := by
  unfold pushNamed
  rw [Expr.name?_renumber, Expr.type_renumber, Expr.text_renumber]

/-- The fields chosen are the same, under their other numbers. -/
theorem select_renumber (hρ : ρ.Injective) (refs : List FieldRef) :
    (c.renumber ρ).select (refs.map (FieldRef.map (Expr.renumber ρ))) = renumber ρ <$> c.select refs := by
  unfold select
  refine except_bind_map (except_mapM_map (resolve_renumber c hρ)) fun selected _ => ?_
  rw [List.isEmpty_map, List.foldlM_map]
  simp only [pushNamed_renumber]
  exact except_same_bind_map _ fun _ => except_same_bind_map _ fun _ => rfl

/-! ## Choices -/

theorem switch_renumbers (hρ : ρ.Injective) (cases : Cases) :
    Build.Renumbers ρ (Expr.renumber ρ) (c.switch cases)
      ((c.renumber ρ).switch (cases.map (Expr.renumber ρ))) := by
  unfold switch
  rw [Cases.exprs_map, checkAllOwned_renumber c hρ]
  exact .check _ fun _ => Expr.switchOn_renumbers none cases

/-! ## User functions -/

section

variable (f : MapFunction) (o : ApplyOptions)

theorem mapNode_renumbers (m : Mapping) (name : String) (t : ElementType) (sh : Shape) (os : List Expr) :
    Build.Renumbers ρ (Expr.renumber ρ) (mapNode m name t sh os)
      (mapNode (m.renumber ρ) name t sh (os.map (Expr.renumber ρ))) := by
  unfold mapNode
  exact (Expr.node_renumbers (.map m) t sh os).bind fun e => Expr.rename_renumbers e name

theorem map_shape_renumber (es : List Expr) : (es.map (Expr.renumber ρ)).map Expr.shape = es.map Expr.shape := by
  rw [List.map_map]
  exact List.map_congr_left fun e _ => Expr.shape_renumber ρ e

/-- The names and types of fields that are mapped one by one. -/
theorem mappedSchema_renumber (checker : Checker) (fields : List Expr) (index : Nat) (schema : Schema) :
    mappedSchema checker o index schema (fields.map (Expr.renumber ρ))
      = mappedSchema checker o index schema fields := by
  induction fields generalizing index schema with
  | nil => rfl
  | cons field fields ih =>
    have hname : mappedName checker o.names index (field.renumber ρ) = mappedName checker o.names index field := by
      unfold mappedName
      rw [Expr.name?_renumber, Expr.text_renumber]
    have htype : mappedType o.types index (field.renumber ρ) = mappedType o.types index field := by
      unfold mappedType
      rw [Expr.type_renumber]
    rw [List.map_cons, mappedSchema, mappedSchema, hname, htype]
    simp only [ih]

theorem applyReduced_renumbers :
    Build.Renumbers ρ (Expr.renumber ρ) (c.applyReduced f o) ((c.renumber ρ).applyReduced (f.renumber ρ) o) := by
  unfold applyReduced
  simp only [renumber, map_shape_renumber]
  refine .check _ fun _ => .check _ fun _ => ?_
  refine (Expr.node_renumbers (.map ⟨f, .row, none⟩) _ _ c.fields).bind fun e => ?_
  cases o.names.head? with
  | some n => exact Expr.rename_renumbers e n
  | none => exact .pure e

theorem applyExpanded_renumbers :
    Build.Renumbers ρ (renumber ρ) (c.applyExpanded f o) ((c.renumber ρ).applyExpanded (f.renumber ρ) o) := by
  unfold applyExpanded
  simp only [renumber, map_shape_renumber]
  refine .check _ fun _ => .check _ fun schema => ?_
  refine (Build.Renumbers.mapM_same fun (p, i) => ?_).bind fun fields => .pure (c.derived schema fields)
  exact mapNode_renumbers ⟨f, .row, some i⟩ p.1 p.2 _ c.fields

theorem applyEach_renumbers :
    Build.Renumbers ρ (renumber ρ) (c.applyEach f o) ((c.renumber ρ).applyEach (f.renumber ρ) o) := by
  unfold applyEach
  simp only [renumber, List.length_map, mappedSchema_renumber]
  refine .check _ fun _ => .check _ fun _ => .check _ fun schema => ?_
  have hzip : schema.fields.zip (c.fields.map (Expr.renumber ρ))
      = (schema.fields.zip c.fields).map (Prod.map id (Expr.renumber ρ)) := by
    rw [← List.zip_map_right]
  rw [hzip]
  refine (Build.Renumbers.mapM fun (p, field) => ?_).bind fun fields => .pure (c.derived schema fields)
  show Build.Renumbers ρ (Expr.renumber ρ) (mapNode ⟨f, .column, none⟩ p.1 p.2 field.shape [field])
    (mapNode ⟨f.renumber ρ, .column, none⟩ p.1 p.2 (field.renumber ρ).shape [field.renumber ρ])
  rw [Expr.shape_renumber]
  exact mapNode_renumbers ⟨f, .column, none⟩ p.1 p.2 field.shape [field]

/-- A function is applied in the same way, and what comes of it is the same under other numbers. -/
theorem apply_renumbers (hρ : ρ.Injective) :
    Build.Renumbers ρ (Applied.renumber ρ) (c.apply f o) ((c.renumber ρ).apply (f.renumber ρ) o) := by
  have hempty : (c.renumber ρ).fields.isEmpty = c.fields.isEmpty := List.isEmpty_map
  have howned : (c.renumber ρ).checkAllOwned (c.renumber ρ).fields = c.checkAllOwned c.fields :=
    checkAllOwned_renumber c hρ c.fields
  unfold apply
  rw [hempty, howned]
  refine .check _ fun _ => .check _ fun _ => ?_
  cases o.axis with
  | row =>
    cases o.reduce with
    | true => exact (applyReduced_renumbers c f o).map fun _ => rfl
    | false => exact (applyExpanded_renumbers c f o).map fun _ => rfl
  | column =>
    cases o.reduce with
    | true => exact fun _ _ _ => rfl
    | false => exact (applyEach_renumbers c f o).map fun _ => rfl

end

/-! ## Sources -/

/-- A new source is the same under other numbers, if its own number is moved on like all numbers from now on. -/
theorem make_renumber {past s : Supply} (hnodes : past.nextNode = ρ.nodes)
    (hsource : ρ.source ⟨s.nextSource⟩ = ⟨past.nextSource + s.nextSource⟩) (name : String) (schema : Schema) :
    make name schema (past.after s) = (fun r => (r.1.renumber ρ, past.after r.2)) <$> make name schema s := by
  have hcolumns : Build.Renumbers ρ (renumber ρ)
      (schema.fields.mapM (fun p => Expr.column p.1 ⟨s.nextSource⟩ p.2) >>= fun fields =>
        pure (Collection.mk name ⟨s.nextSource⟩ schema fields))
      (schema.fields.mapM (fun p => Expr.column p.1 (ρ.source ⟨s.nextSource⟩) p.2) >>= fun fields =>
        pure (Collection.mk name (ρ.source ⟨s.nextSource⟩) schema fields)) := by
    refine (Build.Renumbers.mapM_same fun p => ?_).bind fun fields => .pure _
    exact Expr.node_renumbers (.column p.1 ⟨s.nextSource⟩) p.2 .sequence []
  have hmade := hcolumns past { s with nextSource := s.nextSource + 1 } hnodes
  rw [hsource] at hmade
  exact hmade

end Collection

end Columnar
