import Columnar.Proofs.Session.Invariant

/-!
# `Proofs.Session.Columns` — collections and columns within reach

## Contents
- `Heap.column_type_unique`: columns of one name over one source are of one type.
- `reachable_fields`: in every collection, schema and fields agree, and all columns come from the source.
-/

namespace Columnar

/-- Two columns of one name over one source have the type that the schema of the source gives. -/
theorem Heap.column_type_unique [Hasher] {catalog : Catalog} {heap : List Expr} {s : Supply}
    (h : Heap catalog heap s) {a b : Expr} (ha : a ∈ heap) (hb : b ∈ heap) {name : String}
    {source : SourceId} (hka : a.kind = .column name source) (hkb : b.kind = .column name source) :
    a.type = b.type := by
  obtain ⟨schema, hs, hta⟩ := h.column_mem a ha hka
  obtain ⟨schema', hs', htb⟩ := h.column_mem b hb hkb
  rw [h.schema_unique hs' hs] at htb
  exact Schema.type_unique hta htb

/-- Every column in a field of a sound collection is an entry of the schema of the source. -/
theorem Collection.Sound.column_mem [Hasher] {catalog : Catalog} {heap : List Expr} {s : Supply}
    (h : Heap catalog heap s) {c : Collection} (hc : c.Sound catalog heap) {origin : Schema}
    (horigin : (c.source, origin) ∈ catalog) {e n : Expr} (he : e ∈ c.fields) (hn : n ∈ e.walk)
    {name : String} {source : SourceId} (hk : n.kind = .column name source) :
    source = c.source ∧ (name, n.type) ∈ origin.fields := by
  have hsource : source = c.source := by
    refine hc.fields_over e he n hn source ?_
    rw [hk]
    rfl
  have hmem := h.walk_subset (hc.fields_subset he) hn
  obtain ⟨schema, hs, ht⟩ := h.column_mem n hmem hk
  rw [hsource] at hs
  rw [h.schema_unique hs horigin] at ht
  exact ⟨hsource, ht⟩

namespace Session

/-- Through any chain of choices and applications: schema and fields of a collection are of one length, names
are distinct, each field is named and typed as its place in the schema says, and all columns in all fields are
columns of the source and entries of the schema that the source was made with. So a name is found exactly if
the schema has it, as a field of that name and of the type in the schema; and columns of one name over one
source are of one type, wherever they are found. -/
theorem reachable_fields [Hasher] {s : Session} (h : Reachable s) :
    (∀ c ∈ s.collections,
      c.schema.size = c.fields.length ∧ c.schema.names.Nodup
      ∧ (∀ (i : Nat) (name : String) (t : ElementType), c.schema.fields[i]? = some (name, t) →
          ∃ e, c.fields[i]? = some e ∧ e.name? = some name ∧ e.type = t)
      ∧ (∃ origin, (c.source, origin) ∈ s.catalog
          ∧ (∀ other, (c.source, other) ∈ s.catalog → other = origin)
          ∧ ∀ e ∈ c.fields, ∀ n ∈ e.walk, ∀ name source, n.kind = .column name source →
              source = c.source ∧ (name, n.type) ∈ origin.fields)
      ∧ ∀ name, ((∃ e, c.col name = .ok e) ↔ c.schema.contains name = true)
          ∧ ∀ e, c.col name = .ok e →
              e ∈ c.fields ∧ e.name? = some name ∧ c.schema.get? name = some e.type)
    ∧ ∀ a b, s.Has a → s.Has b → ∀ name source,
        a.kind = .column name source → b.kind = .column name source → a.type = b.type := by
  obtain ⟨heap, hsound⟩ := h.sound
  have hheap := hsound.history
  refine ⟨fun c hc => ?_, fun a b ha hb name source hka hkb => ?_⟩
  · have hc := hsound.collections_sound c hc
    obtain ⟨origin, horigin⟩ := hc.source_mem
    refine ⟨hc.labels.length_eq, c.schema.names_nodup, ?_, ⟨origin, horigin, ?_, ?_⟩, ?_⟩
    · intro i name t hentry
      exact getElem?_of_forall₂ hc.labels hentry
    · intro other hother
      exact hheap.schema_unique hother horigin
    · intro e he n hn name source hk
      exact hc.column_mem hheap horigin he hn hk
    · intro name
      refine ⟨Collection.exists_col_iff hc, fun e he => ?_⟩
      exact ⟨Collection.col_mem he, Collection.col_labels hc he⟩
  · exact hheap.column_type_unique (hsound.has_mem ha) (hsound.has_mem hb) hka hkb

/-- The column and its filled form, chosen under two names. -/
theorem reachable_fields_report : @Reachable Orders.collide Orders.session
    ∧ Orders.report ∈ Orders.session.collections
    ∧ Orders.report.schema.size = Orders.report.fields.length
    ∧ ((∃ e, Orders.report.col "settled" = .ok e) ↔ Orders.report.schema.contains "settled" = true) :=
  have hfields := (@reachable_fields Orders.collide _ Orders.session_reachable).1 Orders.report
    List.mem_cons_self
  ⟨Orders.session_reachable, List.mem_cons_self, hfields.1, (hfields.2.2.2.2 "settled").1⟩

end Session

end Columnar
