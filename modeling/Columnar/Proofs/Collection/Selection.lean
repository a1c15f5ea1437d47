import Columnar.Proofs.Collection.Fields

/-!
# `Proofs.Collection.Selection` — choosing fields

A choice goes through its references twice. At first every reference is resolved: a name to the field of that name,
an expression to itself if it is over the source. Only then are the fields entered into a schema, each under the name
that it has, which may be one that is taken by then.

## Contents
- `Collection.Takes`, `Collection.Chooses`, `resolve_eq_ok`, `resolve_eq_error`: one reference.
- `Expr.DistinctlyNamed`, `distinctlyNamed_iff`: expressions that a schema can be made of.
- `Collection.RefusesChoice`, `select_eq_ok`, `exists_select_iff`, `select_eq_error`: a choice of fields.
- `select_select`: a choice among fields that were chosen already.
-/

namespace Columnar

variable {catalog : Catalog} {heap : List Expr} {c r : Collection} {ref : FieldRef} {refs : List FieldRef} {e : Expr}
  {es : List Expr} {err : BuildError}

/-! ## Names -/

/-- Every expression has a name, and no two have the same. -/
structure Expr.DistinctlyNamed (es : List Expr) : Prop where
  named : ∀ e ∈ es, ∃ n, e.name? = some n
  distinct : (es.map Expr.name?).Nodup

namespace Collection

/-- Expressions with the names of entries have these names, in order. -/
theorem map_name?_eq {entries : List (String × ElementType)}
    (h : List.Forall₂ (fun entry e => Expr.name? e = some entry.1) entries es) :
    es.map Expr.name? = (entries.map Prod.fst).map some := by
  induction h with
  | nil => rfl
  | cons hname _ ih => rw [List.map_cons, List.map_cons, List.map_cons, ih, hname]

theorem names_of_labels {entries : List (String × ElementType)} (h : List.Forall₂ Labels entries es) :
    es.map Expr.name? = (entries.map Prod.fst).map some :=
  map_name?_eq (h.imp fun _ _ hlabels => hlabels.1)

/-- A schema describes expressions exactly if they are named distinctly. -/
theorem distinctlyNamed_iff :
    Expr.DistinctlyNamed es ↔ ∃ schema : Schema, List.Forall₂ Labels schema.fields es := by
  constructor
  · rintro ⟨hnamed, hdistinct⟩
    have hentry : ∀ e ∈ es, ∃ entry, Labels entry e := by
      intro e he
      obtain ⟨n, hn⟩ := hnamed e he
      exact ⟨(n, e.type), hn, rfl⟩
    obtain ⟨entries, hentries⟩ := exists_forall₂_iff.mpr hentry
    rw [names_of_labels hentries.flip] at hdistinct
    exact ⟨⟨entries, hdistinct.of_map _⟩, hentries.flip⟩
  · rintro ⟨schema, h⟩
    refine ⟨fun e he => ?_, ?_⟩
    · obtain ⟨entry, _, hname, _⟩ := exists_of_forall₂ h he
      exact ⟨entry.1, hname⟩
    · rw [names_of_labels h]
      exact schema.names_nodup.map (Option.some_injective _)

/-! ## One reference -/

/-- What a reference means: the field at the place of its name, or the very expression. -/
inductive Chooses (c : Collection) : FieldRef → Expr → Prop
  | named {name : String} {t : ElementType} {i : Nat} {e : Expr} :
      c.schema.fields[i]? = some (name, t) → c.fields[i]? = some e → Chooses c (.named name) e
  | given {e : Expr} : Chooses c (.given e) e

/-- A name that there is a field of, or an expression with no column of another source. -/
def Takes (c : Collection) : FieldRef → Prop
  | .named name => c.schema.contains name = true
  | .given e => e.Over c.source

/-- What is said of a reference that is not taken. -/
def refusal (c : Collection) : FieldRef → BuildError
  | .named name => .fieldNotFound name c.name
  | .given e => .foreignField e.text c.name

theorem resolve_eq_ok (hc : c.Sound catalog heap) : c.resolve ref = .ok e ↔ c.Takes ref ∧ c.Chooses ref e := by
  cases ref with
  | named name =>
    show c.col name = .ok e ↔ c.schema.contains name = true ∧ _
    rw [← exists_col_iff hc]
    constructor
    · intro h
      obtain ⟨i, hindex, hi⟩ := col_eq_ok.mp h
      obtain ⟨t, hentry⟩ := Schema.indexOf?_eq_some_iff.mp hindex
      exact ⟨⟨e, h⟩, .named hentry hi⟩
    · rintro ⟨_, hchooses⟩
      cases hchooses with
      | named hentry hi => exact col_eq_ok.mpr ⟨_, Schema.indexOf?_eq_some_iff.mpr ⟨_, hentry⟩, hi⟩
  | given g =>
    show (c.checkOwned g >>= fun _ => .ok g) = .ok e ↔ g.Over c.source ∧ _
    simp only [except_bind_eq_ok, checkOwned_eq_ok]
    constructor
    · rintro ⟨_, hover, h⟩
      cases h
      exact ⟨hover, .given⟩
    · rintro ⟨hover, hchooses⟩
      cases hchooses
      exact ⟨(), hover, rfl⟩

theorem exists_resolve_iff (hc : c.Sound catalog heap) : (∃ e, c.resolve ref = .ok e) ↔ c.Takes ref := by
  cases ref with
  | named name => exact exists_col_iff hc
  | given g =>
    constructor
    · rintro ⟨e, he⟩
      exact ((resolve_eq_ok hc).mp he).1
    · intro hover
      exact ⟨g, (resolve_eq_ok hc).mpr ⟨hover, .given⟩⟩

theorem resolve_eq_error (hc : c.Sound catalog heap) :
    c.resolve ref = .error err ↔ ¬ c.Takes ref ∧ err = c.refusal ref := by
  cases ref with
  | named name =>
    show c.col name = .error err ↔ ¬ c.schema.contains name = true ∧ err = .fieldNotFound name c.name
    rw [← exists_col_iff hc]
    unfold col
    cases (c.schema.indexOf? name).bind (c.fields[·]?) with
    | none =>
      rw [Except.error.injEq, eq_comm]
      exact (and_iff_right fun ⟨_, h⟩ => nomatch h).symm
    | some e => exact iff_of_false nofun fun h => h.1 ⟨e, rfl⟩
  | given g =>
    show (c.checkOwned g >>= fun _ => .ok g) = .error err ↔ ¬ g.Over c.source ∧ err = .foreignField g.text c.name
    rw [except_bind_eq_error, checkOwned_eq_error]
    exact or_iff_left fun ⟨_, _, h⟩ => nomatch h

/-! ## All references -/

theorem resolveAll_eq_ok (hc : c.Sound catalog heap) :
    refs.mapM c.resolve = .ok es ↔ (∀ ref ∈ refs, c.Takes ref) ∧ List.Forall₂ c.Chooses refs es := by
  simp only [mapM_eq_ok, resolve_eq_ok hc]
  exact List.forall₂_and_left refs es

theorem resolveAll_eq_error (hc : c.Sound catalog heap) :
    refs.mapM c.resolve = .error err ↔ ∃ ref, FirstNot c.Takes refs ref ∧ err = c.refusal ref := by
  have htakes : (fun ref => ∃ e, c.resolve ref = .ok e) = c.Takes :=
    funext fun _ => propext (exists_resolve_iff hc)
  simp only [mapM_eq_error, htakes, resolve_eq_error hc]
  constructor
  · rintro ⟨ref, hfirst, _, herr⟩
    exact ⟨ref, hfirst, herr⟩
  · rintro ⟨ref, hfirst, herr⟩
    exact ⟨ref, hfirst, hfirst.not, herr⟩

/-- As many fields are chosen as there are references. -/
theorem chosen_eq_nil_iff (h : List.Forall₂ c.Chooses refs es) : es = [] ↔ refs = [] := by
  cases h with
  | nil => exact iff_of_true rfl rfl
  | cons => exact iff_of_false (List.cons_ne_nil _ _) (List.cons_ne_nil _ _)

/-! ## The choice -/

theorem select_eq_ok (hc : c.Sound catalog heap) : c.select refs = .ok r ↔
    refs ≠ [] ∧ (∀ ref ∈ refs, c.Takes ref) ∧ List.Forall₂ c.Chooses refs r.fields
      ∧ List.Forall₂ Labels r.schema.fields r.fields ∧ r.name = c.name ∧ r.source = c.source := by
  unfold select
  simp only [except_bind_eq_ok, resolveAll_eq_ok hc, Checker.expectCount_isEmpty_eq_ok, foldlM_pushNamed_eq_ok]
  constructor
  · rintro ⟨es, ⟨htakes, hchosen⟩, _, hne, schema, ⟨added, hadded, hlabels⟩, h⟩
    cases h
    refine ⟨mt (chosen_eq_nil_iff hchosen).mpr hne, htakes, hchosen, ?_, rfl, rfl⟩
    show List.Forall₂ Labels schema.fields es
    rw [hadded]
    exact hlabels
  · rintro ⟨hne, htakes, hchosen, hlabels, hname, hsource⟩
    refine ⟨r.fields, ⟨htakes, hchosen⟩, (), mt (chosen_eq_nil_iff hchosen).mp hne, r.schema,
      ⟨r.schema.fields, rfl, hlabels⟩, ?_⟩
    obtain ⟨name, source, schema, fields⟩ := r
    cases hname
    cases hsource
    rfl

theorem exists_select_iff (hc : c.Sound catalog heap) : (∃ r, c.select refs = .ok r) ↔
    refs ≠ [] ∧ (∀ ref ∈ refs, c.Takes ref)
      ∧ ∃ es, List.Forall₂ c.Chooses refs es ∧ Expr.DistinctlyNamed es := by
  simp only [select_eq_ok hc, distinctlyNamed_iff]
  constructor
  · rintro ⟨r, hne, htakes, hchosen, hlabels, _⟩
    exact ⟨hne, htakes, r.fields, hchosen, r.schema, hlabels⟩
  · rintro ⟨hne, htakes, es, hchosen, schema, hlabels⟩
    exact ⟨c.derived schema es, hne, htakes, hchosen, hlabels, rfl, rfl⟩

/-- Why a choice of fields is refused: a reference is not taken, the first such one counts; or there is none; or else,
behind fields that are named distinctly, comes one without a name or with one of theirs. -/
inductive RefusesChoice (c : Collection) (refs : List FieldRef) : BuildError → Prop
  | notTaken {ref : FieldRef} : FirstNot c.Takes refs ref → RefusesChoice c refs (c.refusal ref)
  | noField : refs = [] → RefusesChoice c refs (.argumentCount "select" "at least one field" 0)
  | unnamed {before after : List Expr} {e : Expr} : (∀ ref ∈ refs, c.Takes ref) →
      List.Forall₂ c.Chooses refs (before ++ e :: after) → Expr.DistinctlyNamed before → e.name? = none →
      RefusesChoice c refs (.invalidArgument "select" (e.text ++ " needs a name, use rename()"))
  | repeated {before after : List Expr} {e : Expr} {n : String} : (∀ ref ∈ refs, c.Takes ref) →
      List.Forall₂ c.Chooses refs (before ++ e :: after) → Expr.DistinctlyNamed before → e.name? = some n →
      (∃ b ∈ before, b.name? = some n) → RefusesChoice c refs (.duplicateField n)

/-- A name is taken if one of the expressions has it. -/
theorem mem_names_of_labels {schema : Schema} (h : List.Forall₂ Labels schema.fields es) {n : String} :
    n ∈ schema.names ↔ ∃ b ∈ es, b.name? = some n := by
  rw [← List.mem_map, names_of_labels h]
  exact (List.mem_map_of_injective (Option.some_injective _)).symm

theorem enterAll_eq_error {checker : Checker} : es.foldlM (pushNamed checker) .empty = .error err ↔
    ∃ before e after, es = before ++ e :: after ∧ Expr.DistinctlyNamed before
      ∧ ((e.name? = none ∧ err = .invalidArgument checker.operator (e.text ++ " needs a name, use rename()"))
        ∨ ∃ n, e.name? = some n ∧ (∃ b ∈ before, b.name? = some n) ∧ err = .duplicateField n) := by
  have hlabels : ∀ {before : List Expr} {schema : Schema},
      before.foldlM (pushNamed checker) .empty = .ok schema ↔ List.Forall₂ Labels schema.fields before := by
    intro before schema
    rw [foldlM_pushNamed_eq_ok]
    exact ⟨fun ⟨_, hadded, h⟩ => hadded ▸ h, fun h => ⟨_, rfl, h⟩⟩
  simp only [foldlM_eq_error, hlabels, pushNamed_eq_error]
  constructor
  · rintro ⟨before, e, after, schema, rfl, hschema, hrefused⟩
    refine ⟨before, e, after, rfl, distinctlyNamed_iff.mpr ⟨schema, hschema⟩, ?_⟩
    simpa only [mem_names_of_labels hschema] using hrefused
  · rintro ⟨before, e, after, rfl, hbefore, hrefused⟩
    obtain ⟨schema, hschema⟩ := distinctlyNamed_iff.mp hbefore
    refine ⟨before, e, after, schema, rfl, hschema, ?_⟩
    simpa only [mem_names_of_labels hschema] using hrefused

theorem select_eq_error (hc : c.Sound catalog heap) : c.select refs = .error err ↔ c.RefusesChoice refs err := by
  unfold select
  simp only [except_bind_eq_error, resolveAll_eq_ok hc, resolveAll_eq_error hc, Checker.expectCount_isEmpty_eq_ok,
    Checker.expectCount_isEmpty_eq_error, enterAll_eq_error]
  constructor
  · rintro (⟨ref, hfirst, rfl⟩ | ⟨es, ⟨htakes, hchosen⟩, ⟨hnone, rfl⟩ | ⟨_, _, hrest⟩⟩)
    · exact .notTaken hfirst
    · exact .noField ((chosen_eq_nil_iff hchosen).mp hnone)
    · rcases hrest with ⟨before, e, after, rfl, hbefore, ⟨hname, rfl⟩ | ⟨n, hname, hb, rfl⟩⟩ | ⟨_, _, h⟩
      · exact .unnamed htakes hchosen hbefore hname
      · exact .repeated htakes hchosen hbefore hname hb
      · cases h
  · intro hrefuses
    have hne : ∀ {before after : List Expr} {e : Expr}, before ++ e :: after ≠ [] :=
      List.append_ne_nil_of_right_ne_nil _ (List.cons_ne_nil _ _)
    cases hrefuses with
    | notTaken hfirst => exact .inl ⟨_, hfirst, rfl⟩
    | noField hnone =>
      subst hnone
      exact .inr ⟨[], ⟨nofun, .nil⟩, .inl ⟨rfl, rfl⟩⟩
    | unnamed htakes hchosen hbefore hname =>
      exact .inr ⟨_, ⟨htakes, hchosen⟩, .inr ⟨(), hne, .inl ⟨_, _, _, rfl, hbefore, .inl ⟨hname, rfl⟩⟩⟩⟩
    | repeated htakes hchosen hbefore hname hb =>
      exact .inr ⟨_, ⟨htakes, hchosen⟩, .inr ⟨(), hne, .inl ⟨_, _, _, rfl, hbefore, .inr ⟨_, hname, hb, rfl⟩⟩⟩⟩

/-! ## A choice of a choice -/

section

variable {a : Collection} {before names : List String}

/-- Each name chosen is again the name of the same field. -/
theorem col_select (hc : c.Sound catalog heap) (h : c.select (before.map .named) = .ok a) {n : String}
    (hn : n ∈ before) : a.col n = c.col n := by
  obtain ⟨_, htakes, hchosen, hlabels, _⟩ := (select_eq_ok hc).mp h
  have hnamed : FieldRef.named n ∈ before.map .named := List.mem_map_of_mem hn
  obtain ⟨i, hi⟩ := List.getElem?_of_mem hnamed
  obtain ⟨e, he, hchooses⟩ := getElem?_of_forall₂ hchosen hi
  have hcol : c.col n = .ok e := (resolve_eq_ok hc).mpr ⟨htakes _ hnamed, hchooses⟩
  -- the field stands at the place where its name was asked for, and so does its entry
  obtain ⟨entry, hentry, hlabel⟩ := getElem?_of_forall₂ hlabels.flip he
  have hname : entry.1 = n := by
    rw [← Option.some_inj, ← hlabel.1]
    exact (col_labels hc hcol).1
  rw [hcol]
  refine col_eq_ok.mpr ⟨i, Schema.indexOf?_eq_some_iff.mpr ⟨entry.2, ?_⟩, he⟩
  rw [hentry, ← hname]

/-- Choosing among names that were chosen before is choosing among all. -/
theorem select_select (hc : c.Sound catalog heap) (h : c.select (before.map .named) = .ok a) (hsub : names ⊆ before) :
    a.select (names.map .named) = c.select (names.map .named) := by
  have hresolve : (names.map FieldRef.named).mapM a.resolve = (names.map FieldRef.named).mapM c.resolve := by
    refine mapM_congr_of_mem fun ref href => ?_
    obtain ⟨n, hn, rfl⟩ := List.mem_map.mp href
    exact col_select hc h (hsub hn)
  obtain ⟨_, _, _, _, hname, hsource⟩ := (select_eq_ok hc).mp h
  have hderived : a.derived = c.derived := by
    funext schema fields
    unfold derived
    rw [hname, hsource]
  unfold select
  rw [hresolve, hderived]

end

end Collection

end Columnar
