import Columnar.Collection.Basic
import Columnar.Proofs.Collection.Ownership
import Columnar.Proofs.Expr.Heap
import Columnar.Proofs.Expr.Outcome
import Columnar.Proofs.Schema.Lookup

/-!
# `Proofs.Collection.Fields` — schema and fields agree

The schema of a collection and its fields are two lists that are filled side by side: by a source, by a
choice of fields, and by each way to apply a function. The invariant (`Collection.Sound`) relates them place by
place, and also keeps every field over the source of the collection.

## Contents
- `mapM_grown`: makings of nodes, one after the other.
- `Collection.Labels`, `Collection.Sound`: the invariant.
- `col_eq_ok`, `exists_col_iff`: a field by its name.
- `pushNamed_eq_ok`, `pushNamed_eq_error`, `foldlM_pushNamed_eq_ok`: expressions added under their names.
- `make_sound`, `select_sound`: a source and a choice of fields are sound.
-/

namespace Columnar

/-! ## One after the other -/

/-- Making nodes one after the other: what each can be made from is still there when its turn comes. -/
theorem mapM_grown [Hasher] {α : Type} {f : α → Build Expr} {base : List Expr} {Q : α → Expr → Prop}
    {catalog : Catalog} {items : List α}
    (hf : ∀ a ∈ items, ∀ {heap s r}, Heap catalog heap s → base ⊆ heap → f a s = .ok r →
      Grown catalog heap r.2 [r.1] ∧ Q a r.1)
    {heap : List Expr} {s : Supply} {r : List Expr × Supply} (h : Heap catalog heap s)
    (hbase : base ⊆ heap) (hr : items.mapM f s = .ok r) :
    Grown catalog heap r.2 r.1 ∧ List.Forall₂ Q items r.1 := by
  induction items generalizing heap s r with
  | nil =>
    rw [List.mapM_nil, Build.pure_eq_ok] at hr
    subst hr
    exact ⟨.rfl h (List.nil_subset _), .nil⟩
  | cons a items ih =>
    rw [List.mapM_cons, Build.bind_eq_ok] at hr
    obtain ⟨e, s₁, he, hr⟩ := hr
    rw [Build.bind_eq_ok] at hr
    obtain ⟨es, s₂, hes, hr⟩ := hr
    rw [Build.pure_eq_ok] at hr
    subst hr
    obtain ⟨⟨heap₁, hsub₁, h₁, he₁⟩, hq⟩ := hf a List.mem_cons_self h hbase he
    obtain ⟨⟨heap₂, hsub₂, h₂, hes₂⟩, hqs⟩ :=
      ih (fun b hb => hf b (List.mem_cons_of_mem _ hb)) h₁ (List.Subset.trans hbase hsub₁) hes
    refine ⟨⟨heap₂, List.Subset.trans hsub₁ hsub₂, h₂, ?_⟩, .cons hq hqs⟩
    exact List.cons_subset.mpr ⟨hsub₂ (he₁ List.mem_cons_self), hes₂⟩

namespace Collection

/-! ## The invariant -/

/-- A field is called and typed as an entry of a schema says. -/
def Labels (entry : String × ElementType) (e : Expr) : Prop :=
  e.name? = some entry.1 ∧ e.type = entry.2

/-- What holds of a collection over a heap. -/
structure Sound (catalog : Catalog) (heap : List Expr) (c : Collection) : Prop where
  /-- The source is one that was made. -/
  source_mem : ∃ schema, (c.source, schema) ∈ catalog
  fields_subset : c.fields ⊆ heap
  /-- The schema describes the fields, place by place. -/
  labels : List.Forall₂ Labels c.schema.fields c.fields
  /-- All columns in the fields are columns of the source. -/
  fields_over : ∀ e ∈ c.fields, e.Over c.source

theorem Sound.mono {catalog catalog' : Catalog} {heap heap' : List Expr} {c : Collection}
    (h : c.Sound catalog heap) (hcatalog : catalog ⊆ catalog') (hheap : heap ⊆ heap') :
    c.Sound catalog' heap' := by
  obtain ⟨schema, hs⟩ := h.source_mem
  exact ⟨⟨schema, hcatalog hs⟩, List.Subset.trans h.fields_subset hheap, h.labels, h.fields_over⟩

/-- Fields made one after the other, each as an entry of the schema says and over the source, make a sound
collection. -/
theorem Sound.of_labels {catalog : Catalog} {heap : List Expr} {c : Collection}
    (hsource : ∃ schema, (c.source, schema) ∈ catalog) (hfields : c.fields ⊆ heap)
    (hlabels : List.Forall₂ (fun p e => Labels p e ∧ e.Over c.source) c.schema.fields c.fields) :
    c.Sound catalog heap := by
  refine ⟨hsource, hfields, hlabels.imp fun _ _ h => h.1, ?_⟩
  intro e he
  obtain ⟨_, _, _, hover⟩ := exists_of_forall₂ hlabels he
  exact hover

/-! ## Lookup -/

section

variable {catalog : Catalog} {heap : List Expr} {c : Collection} {name : String} {e : Expr}

theorem col_eq_ok :
    c.col name = .ok e ↔ ∃ i, c.schema.indexOf? name = some i ∧ c.fields[i]? = some e := by
  unfold col
  rw [← Option.bind_eq_some_iff]
  cases (c.schema.indexOf? name).bind (c.fields[·]?) with
  | none => exact ⟨fun h => (nomatch h), fun h => (nomatch h)⟩
  | some found => rw [Except.ok.injEq, Option.some.injEq]

theorem col_mem (h : c.col name = .ok e) : e ∈ c.fields := by
  obtain ⟨i, _, hi⟩ := col_eq_ok.mp h
  exact List.mem_of_getElem? hi

/-- The field that is found is the one the schema describes. -/
theorem col_labels (hc : c.Sound catalog heap) (h : c.col name = .ok e) :
    e.name? = some name ∧ c.schema.get? name = some e.type := by
  obtain ⟨i, hindex, hi⟩ := col_eq_ok.mp h
  obtain ⟨t, hentry⟩ := Schema.indexOf?_eq_some_iff.mp hindex
  obtain ⟨e', he', hname, htype⟩ := getElem?_of_forall₂ hc.labels hentry
  rw [hi] at he'
  cases he'
  refine ⟨hname, Schema.get?_eq_some_iff.mpr ?_⟩
  rw [htype]
  exact List.mem_of_getElem? hentry

/-- A name is found exactly if the schema has it. -/
theorem exists_col_iff (hc : c.Sound catalog heap) :
    (∃ e, c.col name = .ok e) ↔ c.schema.contains name = true := by
  constructor
  · rintro ⟨e, he⟩
    obtain ⟨_, hget⟩ := col_labels hc he
    exact Schema.contains_iff.mpr ⟨e.type, Schema.get?_eq_some_iff.mp hget⟩
  · intro h
    obtain ⟨t, ht⟩ := Schema.contains_iff.mp h
    obtain ⟨i, hi⟩ := List.getElem?_of_mem ht
    obtain ⟨e, he, _⟩ := getElem?_of_forall₂ hc.labels hi
    exact ⟨e, col_eq_ok.mpr ⟨i, Schema.indexOf?_eq_some_iff.mpr ⟨t, hi⟩, he⟩⟩

end

/-! ## Choosing fields -/

/-- An expression is added under the name that it has, and with its type. -/
theorem pushNamed_eq_ok {c : Checker} {schema r : Schema} {e : Expr} :
    pushNamed c schema e = .ok r ↔ ∃ entry, Labels entry e ∧ r.fields = schema.fields ++ [entry] := by
  unfold pushNamed
  cases hn : e.name? with
  | none =>
    refine iff_of_false nofun ?_
    rintro ⟨entry, ⟨hname, _⟩, _⟩
    rw [hn] at hname
    cases hname
  | some n =>
    show schema.push n e.type = .ok r ↔ _
    rw [Schema.push_eq_ok_iff]
    constructor
    · intro hr
      exact ⟨(n, e.type), ⟨hn, rfl⟩, hr⟩
    · rintro ⟨⟨m, t⟩, ⟨hname, rfl⟩, hr⟩
      rw [hn] at hname
      cases hname
      exact hr

theorem pushNamed_eq_error {c : Checker} {schema : Schema} {e : Expr} {err : BuildError} :
    pushNamed c schema e = .error err ↔
      (e.name? = none ∧ err = .invalidArgument c.operator (e.text ++ " needs a name, use rename()"))
        ∨ ∃ n, e.name? = some n ∧ n ∈ schema.names ∧ err = .duplicateField n := by
  unfold pushNamed
  cases e.name? with
  | none =>
    show Except.error _ = .error err ↔ _
    rw [Except.error.injEq, eq_comm]
    simp
  | some n =>
    show schema.push n e.type = .error err ↔ _
    rw [Schema.push_eq_error]
    simp

/-- Adding expressions one after the other adds an entry for each, in order. -/
theorem foldlM_pushNamed_eq_ok {c : Checker} {schema r : Schema} {es : List Expr} :
    es.foldlM (pushNamed c) schema = .ok r
      ↔ ∃ added, r.fields = schema.fields ++ added ∧ List.Forall₂ Labels added es := by
  induction es generalizing schema with
  | nil =>
    show ([] : List (String × ElementType)).foldlM (fun s p => s.push p.1 p.2) schema = .ok r ↔ _
    simp only [Schema.foldlM_push_eq_ok, List.forall₂_nil_right_iff, exists_eq_right]
  | cons e es ih =>
    simp only [List.foldlM_cons, except_bind_eq_ok, pushNamed_eq_ok, ih, List.forall₂_cons_right_iff]
    constructor
    · rintro ⟨next, ⟨entry, hentry, hnext⟩, added, hr, hadded⟩
      refine ⟨entry :: added, ?_, entry, added, hentry, hadded, rfl⟩
      rw [hr, hnext, List.append_assoc]
      rfl
    · rintro ⟨_, hr, entry, added, hentry, hadded, rfl⟩
      have hsplit : r.fields = (schema.fields ++ [entry]) ++ added := by
        rw [hr, List.append_assoc]
        rfl
      obtain ⟨next, hnext⟩ := Schema.exists_part hsplit
      refine ⟨next, ⟨entry, hentry, hnext⟩, added, ?_, hadded⟩
      rw [hnext]
      exact hsplit

section

variable {catalog : Catalog} {heap : List Expr} {c r : Collection}

theorem resolve_mem (hc : c.Sound catalog heap) {ref : FieldRef} {e : Expr}
    (href : ∀ g, ref = .given g → g ∈ heap) (h : c.resolve ref = .ok e) :
    e ∈ heap ∧ e.Over c.source := by
  cases ref with
  | named n =>
    have he := col_mem h
    exact ⟨hc.fields_subset he, hc.fields_over e he⟩
  | given g =>
    obtain ⟨_, howned, h⟩ := except_bind_eq_ok.mp h
    cases h
    exact ⟨href _ rfl, checkOwned_eq_ok.mp howned⟩

theorem select_sound (hc : c.Sound catalog heap) {refs : List FieldRef}
    (hrefs : ∀ e, FieldRef.given e ∈ refs → e ∈ heap) (h : c.select refs = .ok r) :
    r.Sound catalog heap := by
  unfold select at h
  obtain ⟨selected, hselected, h⟩ := except_bind_eq_ok.mp h
  obtain ⟨_, _, h⟩ := except_bind_eq_ok.mp h
  obtain ⟨schema, hschema, h⟩ := except_bind_eq_ok.mp h
  cases h
  obtain ⟨added, hadded, hlabels⟩ := foldlM_pushNamed_eq_ok.mp hschema
  have hmem : ∀ e ∈ selected, e ∈ heap ∧ e.Over c.source := by
    intro e he
    obtain ⟨ref, href, hres⟩ := exists_of_forall₂ (mapM_eq_ok.mp hselected) he
    exact resolve_mem hc (fun g hg => hrefs g (hg ▸ href)) hres
  refine ⟨hc.source_mem, fun e he => (hmem e he).1, ?_, fun e he => (hmem e he).2⟩
  show List.Forall₂ Labels schema.fields selected
  rw [hadded]
  exact hlabels

end

/-! ## Sources -/

section

variable [Hasher] {catalog : Catalog} {heap : List Expr} {s : Supply} {schema : Schema}

theorem column_grown {source : SourceId} (hs : (source, schema) ∈ catalog) {entry : String × ElementType}
    (hentry : entry ∈ schema.fields) {r : Expr × Supply} (h : Heap catalog heap s)
    (hr : Expr.column entry.1 source entry.2 s = .ok r) :
    Grown catalog heap r.2 [r.1] ∧ Labels entry r.1 ∧ r.1.Over source := by
  obtain ⟨name, type⟩ := entry
  rw [Build.node_eq_ok.mp hr]
  refine ⟨h.grown_node (.column hs hentry), ⟨rfl, rfl⟩, Expr.over_iff.mpr ⟨?_, ?_⟩⟩
  · intro other hother
    cases hother
    rfl
  · intro o ho
    cases ho

/-- A source and its columns: every column is in the schema that the source is made with. -/
theorem make_sound {name : String} {r : Collection × Supply} (h : Heap catalog heap s)
    (hr : make name schema s = .ok r) :
    ∃ larger, heap ⊆ larger ∧ Heap ((r.1.source, schema) :: catalog) larger r.2
      ∧ r.1.Sound ((r.1.source, schema) :: catalog) larger := by
  unfold make at hr
  obtain ⟨source, s₁, hsource, hr⟩ := Build.bind_eq_ok.mp hr
  cases hsource
  obtain ⟨fields, s₂, hfields, hr⟩ := Build.bind_eq_ok.mp hr
  rw [Build.pure_eq_ok] at hr
  subst hr
  have hmem : (⟨s.nextSource⟩, schema) ∈ (⟨s.nextSource⟩, schema) :: catalog := List.mem_cons_self
  obtain ⟨⟨larger, hsub, hlarger, hes⟩, hlabels⟩ :=
    mapM_grown (Q := fun p e => Labels p e ∧ e.Over ⟨s.nextSource⟩)
      (fun p hp _ _ _ hheap _ he => column_grown hmem hp hheap he) (h.source schema)
      (List.nil_subset _) hfields
  exact ⟨larger, hsub, hlarger, .of_labels ⟨schema, hmem⟩ hes hlabels⟩

end

end Collection

end Columnar
