import Columnar.Collection.Apply
import Columnar.Proofs.Collection.Fields

/-!
# `Proofs.Collection.Apply` — what applying a function comes to

## Contents
- `mapNode_grown`, `mapField_grown`: the nodes of an application.
- `applyReduced_grown`, `applyExpanded_sound`, `applyEach_sound`: the three ways to apply a function.
- `apply_cases`, `apply_grown`, `apply_sound`: an application makes an expression over the fields or a sound
  collection.
-/

namespace Columnar.Collection

/-! ## Nodes -/

/-- A mapping along rows is over all fields. -/
theorem typed_mapRow {f : MapFunction} {i : Option Nat} {t : ElementType} {os : List Expr} (hos : os ≠ []) :
    (Kind.map ⟨f, .row, i⟩).Typed (os.map Expr.signature) ⟨t, .combine (os.map Expr.shape)⟩ := by
  have hshapes : os.map Expr.shape = (os.map Expr.signature).map Signature.shape := by
    rw [List.map_map]
    rfl
  rw [hshapes]
  exact .mapRow (by simpa using hos)

section

variable [Hasher] {catalog : Catalog} {heap : List Expr} {name : String} {t : ElementType}
  {source : SourceId} {s : Supply} {r : Expr × Supply}

/-- A mapping node is made twice, the second time under its name. -/
theorem mapNode_eq_ok {m : Mapping} {sh : Shape} {os : List Expr} :
    mapNode m name t sh os s = .ok r ↔
      r = (s.node (.map m) t sh none os).2.node (.map m) t sh (some name) os := by
  unfold mapNode
  simp only [Build.bind_eq_ok, Build.node_eq_ok, Expr.rename_eq_ok]
  constructor
  · rintro ⟨e, s', he, hr⟩
    cases he
    exact hr
  · intro hr
    exact ⟨_, _, rfl, hr⟩

/-- A mapping node over fields of one source. -/
theorem mapNode_grown {m : Mapping} {sh : Shape} {os : List Expr}
    (htyped : (Kind.map m).Typed (os.map Expr.signature) ⟨t, sh⟩) (hover : ∀ o ∈ os, o.Over source)
    (h : Heap catalog heap s) (hos : os ⊆ heap) (hr : mapNode m name t sh os s = .ok r) :
    Grown catalog heap r.2 [r.1] ∧ Labels (name, t) r.1 ∧ r.1.Over source := by
  rw [mapNode_eq_ok.mp hr]
  refine ⟨?_, ⟨rfl, rfl⟩, Expr.over_iff.mpr ⟨?_, hover⟩⟩
  · refine (h.grown_operation rfl htyped hos).trans fun larger _ hlarger hnode => ?_
    exact hlarger.grown_renamed name (hnode List.mem_cons_self)
  · intro other hother
    cases hother

/-- A mapping node over one field. -/
theorem mapField_grown {f : MapFunction} {field : Expr} (hover : field.Over source)
    (h : Heap catalog heap s) (hfield : field ∈ heap)
    (hr : mapNode ⟨f, .column, none⟩ name t field.shape [field] s = .ok r) :
    Grown catalog heap r.2 [r.1] ∧ Labels (name, t) r.1 ∧ r.1.Over source := by
  refine mapNode_grown .mapField ?_ h ?_ hr
  · intro o ho
    rw [List.mem_singleton.mp ho]
    exact hover
  · intro o ho
    rw [List.mem_singleton.mp ho]
    exact hfield

end

/-! ## Ways to apply a function -/

/-- Mapping field by field adds one entry to the schema for each field. -/
theorem length_mappedSchema {checker : Checker} {o : ApplyOptions} {index : Nat} {schema r : Schema}
    {fields : List Expr} (h : mappedSchema checker o index schema fields = .ok r) :
    r.fields.length = schema.fields.length + fields.length := by
  induction fields generalizing index schema with
  | nil =>
    cases h
    rfl
  | cons field fields ih =>
    obtain ⟨name, _, h⟩ := except_bind_eq_ok.mp h
    obtain ⟨next, hnext, h⟩ := except_bind_eq_ok.mp h
    rw [ih h, (Schema.push_eq_ok hnext).2, List.length_append, List.length_cons, List.length_cons,
      List.length_nil]
    omega

section

variable [Hasher] {catalog : Catalog} {heap : List Expr} {s : Supply} {c : Collection} {f : MapFunction}
  {o : ApplyOptions}

/-- One value per row, with or without a name. -/
theorem applyReduced_grown (hc : c.Sound catalog heap) (hne : c.fields ≠ []) (h : Heap catalog heap s)
    {r : Expr × Supply} (hr : c.applyReduced f o s = .ok r) : Grown catalog heap r.2 [r.1] := by
  unfold applyReduced at hr
  obtain ⟨_, _, hr⟩ := Build.check_eq_ok.mp hr
  obtain ⟨_, _, hr⟩ := Build.check_eq_ok.mp hr
  obtain ⟨e, s', he, hr⟩ := Build.bind_eq_ok.mp hr
  cases he
  have hgrown := h.grown_operation rfl (typed_mapRow (f := f) (i := none)
    (t := o.types.head?.getD .string) hne) hc.fields_subset
  cases hn : o.names.head? with
  | none =>
    rw [hn] at hr
    rw [Build.pure_eq_ok.mp hr]
    exact hgrown
  | some n =>
    rw [hn] at hr
    rw [Expr.rename_eq_ok.mp hr]
    refine hgrown.trans fun larger _ hlarger hnode => ?_
    exact hlarger.grown_renamed n (hnode List.mem_cons_self)

/-- A field for each entry of the declared schema, all over all fields. -/
theorem applyExpanded_sound (hc : c.Sound catalog heap) (hne : c.fields ≠ []) (h : Heap catalog heap s)
    {r : Collection × Supply} (hr : c.applyExpanded f o s = .ok r) :
    ∃ larger, heap ⊆ larger ∧ Heap catalog larger r.2 ∧ r.1.Sound catalog larger := by
  unfold applyExpanded at hr
  obtain ⟨_, _, hr⟩ := Build.check_eq_ok.mp hr
  obtain ⟨schema, _, hr⟩ := Build.check_eq_ok.mp hr
  obtain ⟨fields, s', hfields, hr⟩ := Build.bind_eq_ok.mp hr
  rw [Build.pure_eq_ok] at hr
  subst hr
  obtain ⟨⟨larger, hsub, hlarger, hes⟩, hlabels⟩ :=
    mapM_grown (Q := fun q e => Labels q.1 e ∧ e.Over c.source)
      (fun q _ _ _ _ hheap hbase he => mapNode_grown (typed_mapRow hne) hc.fields_over hheap hbase he) h
      hc.fields_subset hfields
  refine ⟨larger, hsub, hlarger, .of_labels hc.source_mem hes ?_⟩
  show List.Forall₂ _ schema.fields fields
  -- the entries are numbered on the way; without the numbers they are the entries again
  rw [← List.zipIdx_map_fst 0 schema.fields, List.forall₂_map_left_iff]
  exact hlabels

/-- A field for each field. The schema is made first, in a pass of its own, and has as many entries. -/
theorem applyEach_sound (hc : c.Sound catalog heap) (h : Heap catalog heap s)
    {r : Collection × Supply} (hr : c.applyEach f o s = .ok r) :
    ∃ larger, heap ⊆ larger ∧ Heap catalog larger r.2 ∧ r.1.Sound catalog larger := by
  unfold applyEach at hr
  obtain ⟨_, _, hr⟩ := Build.check_eq_ok.mp hr
  obtain ⟨_, _, hr⟩ := Build.check_eq_ok.mp hr
  obtain ⟨schema, hschema, hr⟩ := Build.check_eq_ok.mp hr
  obtain ⟨fields, s', hfields, hr⟩ := Build.bind_eq_ok.mp hr
  rw [Build.pure_eq_ok] at hr
  subst hr
  have hlength : schema.fields.length = c.fields.length := by
    rw [length_mappedSchema hschema]
    exact Nat.zero_add _
  obtain ⟨⟨larger, hsub, hlarger, hes⟩, hlabels⟩ :=
    mapM_grown (Q := fun q e => Labels q.1 e ∧ e.Over c.source)
      (fun (p, field) hq _ _ _ hheap hbase he =>
        have hfield := (List.of_mem_zip hq).2
        mapField_grown (hc.fields_over field hfield) hheap (hbase hfield) he)
      h hc.fields_subset hfields
  refine ⟨larger, hsub, hlarger, .of_labels hc.source_mem hes ?_⟩
  show List.Forall₂ _ schema.fields fields
  -- pairing with the fields loses no entry, because there are as many fields
  rw [← List.map_fst_zip (Nat.le_of_eq hlength), List.forall₂_map_left_iff]
  exact hlabels

/-- A function is applied to a collection that has fields, in one of three ways. -/
theorem apply_cases {a : Applied} {s' : Supply} (h : c.apply f o s = .ok (a, s')) :
    c.fields ≠ [] ∧ ((∃ e, a = .sequence e ∧ c.applyReduced f o s = .ok (e, s'))
      ∨ ∃ d, a = .collection d
        ∧ (c.applyExpanded f o s = .ok (d, s') ∨ c.applyEach f o s = .ok (d, s'))) := by
  unfold apply at h
  obtain ⟨_, hcount, h⟩ := Build.check_eq_ok.mp h
  obtain ⟨_, _, h⟩ := Build.check_eq_ok.mp h
  have hne : c.fields ≠ [] := by simpa using Checker.expectCount_eq_ok.mp hcount
  refine ⟨hne, ?_⟩
  cases haxis : o.axis with
  | row =>
    cases hreduce : o.reduce with
    | true =>
      rw [haxis, hreduce] at h
      obtain ⟨e, _, he, heq⟩ := Build.map_eq_ok.mp h
      cases heq
      exact Or.inl ⟨e, rfl, he⟩
    | false =>
      rw [haxis, hreduce] at h
      obtain ⟨d, _, hd, heq⟩ := Build.map_eq_ok.mp h
      cases heq
      exact Or.inr ⟨d, rfl, Or.inl hd⟩
  | column =>
    cases hreduce : o.reduce with
    | true =>
      rw [haxis, hreduce] at h
      cases h
    | false =>
      rw [haxis, hreduce] at h
      obtain ⟨d, _, hd, heq⟩ := Build.map_eq_ok.mp h
      cases heq
      exact Or.inr ⟨d, rfl, Or.inr hd⟩

/-- An application makes an expression on the heap or a sound collection. -/
theorem apply_sound (hc : c.Sound catalog heap) (h : Heap catalog heap s) {d : Collection} {s' : Supply}
    (hr : c.apply f o s = .ok (.collection d, s')) :
    ∃ larger, heap ⊆ larger ∧ Heap catalog larger s' ∧ d.Sound catalog larger := by
  obtain ⟨hne, ⟨_, heq, _⟩ | ⟨d', heq, hr | hr⟩⟩ := apply_cases hr
  · cases heq
  · cases heq
    exact applyExpanded_sound hc hne h hr
  · cases heq
    exact applyEach_sound hc h hr

theorem apply_grown (hc : c.Sound catalog heap) (h : Heap catalog heap s) {e : Expr} {s' : Supply}
    (hr : c.apply f o s = .ok (.sequence e, s')) : Grown catalog heap s' [e] := by
  obtain ⟨hne, ⟨e', heq, hr⟩ | ⟨_, heq, _⟩⟩ := apply_cases hr
  · cases heq
    exact applyReduced_grown hc hne h hr
  · cases heq

end

end Columnar.Collection
