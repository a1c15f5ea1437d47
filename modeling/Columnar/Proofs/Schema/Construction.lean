import Columnar.Proofs.Expr.Checker
import Columnar.Proofs.Schema.Lookup
import Columnar.Proofs.Schema.Reading
import Mathlib.Data.List.Induction

/-!
# `Proofs.Schema.Construction` — a schema from a list of fields

A list of fields is made into a schema by adding the fields one after the other, and each addition refuses a name
that is taken. A schema that is changed in place keeps what it had when it refuses. A reader of documents does not
ask whether a name is taken: it gives the type to the field that is there.

## Contents
- `Schema.Change`, `Schema.insertNew`: a schema that is changed in place.
- `insertNew_eq`: adding in place is `push`, and a refusal leaves the schema unchanged.
- `FirstRepeat`, `FirstRepeated`: the first repeated name of a list, and of a list of fields.
- `foldlM_push_cases`, `ofFields_of_firstRepeat`: fields added one after the other, up to the first repeated name.
- `names_foldl_set`, `get?_foldl_set`: what a reader makes of repeated names.
- `construction_outcomes`: when each way to make a schema succeeds, and what it makes.
-/

namespace Columnar.Schema

variable {s : Schema} {name : String} {t : ElementType} {fields : List (String × ElementType)}

/-! ## Changes in place -/

/-- Changes to a schema in place. Where one is refused, the schema is left as it is by then. -/
abbrev Change := ExceptT BuildError (StateM Schema)

/-- The outcome of a change, and the schema after it. -/
def Change.apply (change : Change Unit) (s : Schema) : Except BuildError Unit × Schema := change.run s

/-- Puts a field into a schema unless its name is taken. -/
def insertNew (name : String) (type : ElementType) : Change Unit := do
  if (← get).contains name then throw (.duplicateField name)
  modify (·.set name type)

/-- What comes after a change that is refused is not done. -/
theorem Change.apply_bind (first : Change Unit) (next : Unit → Change Unit) (s : Schema) :
    Change.apply (first >>= next) s = match first.apply s with
      | (.ok u, r) => (next u).apply r
      | (.error e, r) => (.error e, r) := by
  show (ExceptT.bindCont next (first.apply s).1).run (first.apply s).2 = _
  obtain ⟨outcome, r⟩ := first.apply s
  cases outcome <;> rfl

theorem contains_iff_mem : s.contains name = true ↔ name ∈ s.names := List.contains_iff_mem

/-- A field of a new name is added in the same way with and without a question. -/
theorem push_of_not_mem (h : name ∉ s.names) (t : ElementType) : s.push name t = .ok (s.set name t) := by
  have hpush : s.push name t = .ok ⟨s.fields ++ [(name, t)], _⟩ := dif_neg h
  have hset : s.set name t = ⟨s.fields ++ [(name, t)], _⟩ := dif_neg h
  rw [hpush, hset]

/-- Adding in place comes to what `push` returns, and a refusal leaves the schema unchanged. -/
theorem insertNew_eq (name : String) (t : ElementType) (s : Schema) :
    (insertNew name t).apply s = match s.push name t with
      | .ok r => (.ok (), r)
      | .error e => (.error e, s) := by
  have happly : (insertNew name t).apply s
      = if s.contains name then (.error (.duplicateField name), s) else (.ok (), s.set name t) := by
    show Change.apply (if s.contains name then throw (.duplicateField name) else modify (·.set name t)) s = _
    split <;> rfl
  rw [happly]
  by_cases h : name ∈ s.names
  · rw [if_pos (contains_iff_mem.mpr h), push_of_mem h]
  · rw [if_neg (mt contains_iff_mem.mp h), push_of_not_mem h]

/-! ## One field after the other -/

/-- Puts fields into a schema, one after the other. -/
def insertAll (fields : List (String × ElementType)) : Change Unit := fields.forM fun p => insertNew p.1 p.2

/-- Behind distinct names comes the first one that is among them. -/
def FirstRepeat (names : List String) (name : String) : Prop :=
  ∃ before after, names = before ++ name :: after ∧ before.Nodup ∧ name ∈ before

theorem FirstRepeat.not_nodup {names : List String} (h : FirstRepeat names name) : ¬ names.Nodup := by
  obtain ⟨before, after, rfl, _, htaken⟩ := h
  exact fun hnodup => List.disjoint_of_nodup_append hnodup htaken List.mem_cons_self

theorem FirstRepeat.ne_nil {names : List String} (h : FirstRepeat names name) : names ≠ [] := by
  rintro rfl
  exact h.not_nodup List.nodup_nil

/-- Behind some fields of distinct names comes the first one whose name is taken. -/
structure FirstRepeated (fields before : List (String × ElementType)) (name : String) : Prop where
  fields_eq : ∃ t after, fields = before ++ (name, t) :: after
  distinct : (before.map Prod.fst).Nodup
  taken : name ∈ before.map Prod.fst

theorem FirstRepeated.firstRepeat {before : List (String × ElementType)} (h : FirstRepeated fields before name) :
    FirstRepeat (fields.map Prod.fst) name := by
  obtain ⟨t, after, rfl⟩ := h.fields_eq
  exact ⟨before.map Prod.fst, after.map Prod.fst, List.map_append, h.distinct, h.taken⟩

/-- Fields are added until a name is taken, if one is: both to a schema that is made anew each time and to one that
is changed in place. -/
theorem foldlM_push_cases (s : Schema) (fields : List (String × ElementType)) :
    (∃ r, r.fields = s.fields ++ fields ∧ fields.foldlM (fun s p => s.push p.1 p.2) s = .ok r
        ∧ (insertAll fields).apply s = (.ok (), r))
      ∨ ∃ before name r, (∃ t after, fields = before ++ (name, t) :: after)
        ∧ r.fields = s.fields ++ before ∧ name ∈ r.names
        ∧ fields.foldlM (fun s p => s.push p.1 p.2) s = .error (.duplicateField name)
        ∧ (insertAll fields).apply s = (.error (.duplicateField name), r) := by
  induction fields generalizing s with
  | nil => exact Or.inl ⟨s, (List.append_nil _).symm, rfl, rfl⟩
  | cons p fields ih =>
    obtain ⟨name, t⟩ := p
    have hfirst : (insertAll ((name, t) :: fields)).apply s
        = match (insertNew name t).apply s with
          | (.ok _, r) => (insertAll fields).apply r
          | (.error e, r) => (.error e, r) :=
      Change.apply_bind (insertNew name t) (fun _ => insertAll fields) s
    rw [insertNew_eq] at hfirst
    by_cases hmem : name ∈ s.names
    · rw [push_of_mem hmem] at hfirst
      refine Or.inr ⟨[], name, s, ⟨t, fields, rfl⟩, (List.append_nil _).symm, hmem, ?_, hfirst⟩
      rw [List.foldlM_cons, push_of_mem hmem]
      rfl
    · rw [push_of_not_mem hmem] at hfirst
      have hpush : ((name, t) :: fields).foldlM (fun s p => s.push p.1 p.2) s
          = fields.foldlM (fun s p => s.push p.1 p.2) (s.set name t) := by
        rw [List.foldlM_cons, push_of_not_mem hmem]
        rfl
      have hset := fields_set hmem t
      rw [hpush, hfirst]
      rcases ih (s.set name t) with ⟨r, hr, hfold, hinsert⟩ | ⟨before, other, r, ⟨u, after, hfields⟩, hr, hrest⟩
      · refine Or.inl ⟨r, ?_, hfold, hinsert⟩
        rw [hr, hset, List.append_assoc]
        rfl
      · refine Or.inr ⟨(name, t) :: before, other, r, ⟨u, after, ?_⟩, ?_, hrest⟩
        · rw [hfields, List.cons_append]
        · rw [hr, hset, List.append_assoc]
          rfl

theorem nodup_or_firstRepeat (names : List String) : names.Nodup ∨ ∃ name, FirstRepeat names name := by
  induction names using List.reverseRecOn with
  | nil => exact .inl List.nodup_nil
  | append_singleton names name ih =>
    rcases ih with hnodup | ⟨first, before, after, rfl, hbefore, htaken⟩
    · by_cases htaken : name ∈ names
      · exact .inr ⟨name, names, [], rfl, hnodup, htaken⟩
      · rw [← List.concat_eq_append]
        exact .inl (.concat htaken hnodup)
    · exact .inr ⟨first, before, after ++ [name], by simp, hbefore, htaken⟩

theorem ofFields_eq_ok {r : Schema} : ofFields fields = .ok r ↔ r.fields = fields := foldlM_push_eq_ok

theorem ofFields_of_firstRepeat (h : FirstRepeat (fields.map Prod.fst) name) :
    ofFields fields = .error (.duplicateField name) := by
  obtain ⟨before, after, hnames, hbefore, htaken⟩ := h
  obtain ⟨front, rest, rfl, rfl, hrest⟩ := List.map_eq_append_iff.mp hnames
  obtain ⟨p, behind, rfl, rfl, _⟩ := List.map_eq_cons_iff.mp hrest
  exact foldlM_eq_error.mpr ⟨front, p, behind, ⟨front, hbefore⟩, rfl, foldlM_push_eq_ok.mpr rfl,
    push_eq_error.mpr ⟨htaken, rfl⟩⟩

/-! ## Repeated names in documents -/

theorem names_set (s : Schema) (name : String) (t : ElementType) :
    (s.set name t).names = if name ∈ s.names then s.names else s.names ++ [name] := by
  by_cases h : name ∈ s.names
  · have hfields : (s.set name t).fields = s.fields.map fun p => if p.1 = name then (name, t) else p :=
      congrArg Schema.fields (dif_pos h)
    rw [if_pos h]
    unfold names
    rw [hfields, List.map_map]
    refine List.map_congr_left fun p _ => ?_
    by_cases hp : p.1 = name <;> simp [hp]
  · rw [if_neg h]
    unfold names
    rw [fields_set h, List.map_append]
    rfl

/-- A field that is set has its new type, and all others have the one they had. -/
theorem mem_set {n : String} {u : ElementType} :
    (n, u) ∈ (s.set name t).fields ↔ (n = name ∧ u = t) ∨ (n ≠ name ∧ (n, u) ∈ s.fields) := by
  by_cases h : name ∈ s.names
  · have hfields : (s.set name t).fields = s.fields.map fun p => if p.1 = name then (name, t) else p :=
      congrArg Schema.fields (dif_pos h)
    rw [hfields, List.mem_map]
    constructor
    · rintro ⟨p, hp, heq⟩
      by_cases hname : p.1 = name
      · rw [if_pos hname] at heq
        cases heq
        exact Or.inl ⟨rfl, rfl⟩
      · rw [if_neg hname] at heq
        subst heq
        exact Or.inr ⟨hname, hp⟩
    · rintro (⟨rfl, rfl⟩ | ⟨hname, hmem⟩)
      · obtain ⟨p, hp, hname⟩ := List.mem_map.mp h
        exact ⟨p, hp, if_pos hname⟩
      · exact ⟨_, hmem, if_neg hname⟩
  · rw [fields_set h, List.mem_append, List.mem_singleton, Prod.mk.injEq]
    constructor
    · rintro (hmem | heq)
      · refine Or.inr ⟨?_, hmem⟩
        rintro rfl
        exact h (List.mem_map_of_mem hmem)
      · exact Or.inl heq
    · rintro (heq | ⟨_, hmem⟩)
      · exact Or.inr heq
      · exact Or.inl hmem

theorem get?_set (s : Schema) (name : String) (t : ElementType) (n : String) :
    (s.set name t).get? n = if n = name then some t else s.get? n := by
  refine Option.ext fun u => ?_
  rw [get?_eq_some_iff, mem_set]
  by_cases hn : n = name
  · rw [if_pos hn, Option.some.injEq]
    simp [hn, eq_comm]
  · rw [if_neg hn, get?_eq_some_iff]
    simp [hn]

/-- Each name is there once, at its first place. -/
theorem names_foldl_set (fields : List (String × ElementType)) :
    (fields.foldl (fun s p => s.set p.1 p.2) empty).names = (fields.map Prod.fst).eraseDups := by
  induction fields using List.reverseRecOn with
  | nil => rfl
  | append_singleton fields p ih =>
    rw [List.foldl_append, List.foldl_cons, List.foldl_nil, names_set, ih, List.map_append, List.eraseDups_append]
    simp only [List.mem_eraseDups]
    by_cases hmem : p.1 ∈ fields.map Prod.fst
    · rw [if_pos hmem]
      simp [List.removeAll, hmem]
    · rw [if_neg hmem]
      simp [List.removeAll, hmem, List.eraseDups_cons]

/-- Each name has the last type that is given for it. -/
theorem get?_foldl_set (fields : List (String × ElementType)) (s : Schema) (n : String) :
    (fields.foldl (fun s p => s.set p.1 p.2) s).get? n = (fields.reverse.lookup n).or (s.get? n) := by
  induction fields generalizing s with
  | nil => rfl
  | cons p fields ih =>
    rw [List.foldl_cons, ih, get?_set, List.reverse_cons, List.lookup_append, Option.or_assoc]
    congr 1
    obtain ⟨name, t⟩ := p
    by_cases hn : n = name
    · rw [if_pos hn, hn, List.lookup_cons_self, Option.some_or]
    · rw [if_neg hn, List.lookup_cons, beq_false_of_ne hn]
      exact (Option.none_or).symm

/-! ## All ways -/

/-- A list of fields whose names are distinct is made into a schema of these fields, in this order, whether they
are added to an empty schema, made anew or changed in place, or given as two lists, or read from a document. If a
name is repeated, all ways to add the fields are refused for the first such name, and a schema that is changed in
place has the fields before it by then; but a document is still read, as a schema that has each name at its first
place and with its last type. An addition is refused exactly if the name is taken, and then changes nothing. -/
theorem construction_outcomes (fields : List (String × ElementType)) :
    (((fields.map Prod.fst).Nodup ∧ ∃ s, s.fields = fields ∧ ofFields fields = .ok s
        ∧ ofLists (fields.map Prod.fst) (fields.map Prod.snd) = .ok s
        ∧ (insertAll fields).apply empty = (.ok (), s)
        ∧ ofJsonText? (document fields).text = some s)
      ∨ ¬ (fields.map Prod.fst).Nodup ∧ ∃ before name, FirstRepeated fields before name
        ∧ ofFields fields = .error (.duplicateField name)
        ∧ ofLists (fields.map Prod.fst) (fields.map Prod.snd) = .error (.duplicateField name)
        ∧ (∃ s, s.fields = before ∧ (insertAll fields).apply empty = (.error (.duplicateField name), s))
        ∧ ∃ s, ofJsonText? (document fields).text = some s ∧ s.names = (fields.map Prod.fst).eraseDups
          ∧ ∀ n, s.get? n = fields.reverse.lookup n)
    ∧ ∀ (s : Schema) name t,
      (name ∉ s.names ∧ ∃ r, r.fields = s.fields ++ [(name, t)] ∧ (insertNew name t).apply s = (.ok (), r))
        ∨ name ∈ s.names ∧ (insertNew name t).apply s = (.error (.duplicateField name), s) := by
  have hlists : ofLists (fields.map Prod.fst) (fields.map Prod.snd) = ofFields fields := by
    unfold ofLists
    rw [if_pos (by simp), ← List.zip_of_prod rfl rfl]
  rw [hlists, ofJsonText?_document]
  refine ⟨?_, fun s name t => ?_⟩
  · rcases foldlM_push_cases empty fields with
      ⟨r, hr, hfold, hinsert⟩ | ⟨before, name, r, hfields, hr, htaken, hfold, hinsert⟩
    · have hr : r.fields = fields := hr
      have hnodup : (fields.map Prod.fst).Nodup := hr ▸ r.names_nodup
      have hread : fields.foldl (fun s p => s.set p.1 p.2) empty = r := by
        rw [← hr]
        exact foldl_set_fields r
      exact Or.inl ⟨hnodup, r, hr, hfold, hfold, hinsert, congrArg some hread⟩
    · have hr : r.fields = before := hr
      have hrepeated : FirstRepeated fields before name :=
        ⟨hfields, hr ▸ r.names_nodup, hr ▸ htaken⟩
      refine Or.inr ⟨hrepeated.firstRepeat.not_nodup, before, name, hrepeated, hfold, hfold, ⟨r, hr, hinsert⟩, _, rfl,
        names_foldl_set fields, fun n => ?_⟩
      rw [get?_foldl_set]
      exact Option.or_none
  · rw [insertNew_eq]
    by_cases h : name ∈ s.names
    · rw [push_of_mem h]
      exact Or.inr ⟨h, rfl⟩
    · rw [push_of_not_mem h]
      exact Or.inl ⟨h, _, fields_set h t, rfl⟩

/-- Not all ways to make a schema succeed together or are refused together: the fields of a document may repeat a
name. -/
theorem repeated_name_read : ¬ ∀ fields : List (String × ElementType),
    (∃ s, s.fields = fields ∧ ofFields fields = .ok s
        ∧ ofLists (fields.map Prod.fst) (fields.map Prod.snd) = .ok s
        ∧ (insertAll fields).apply empty = (.ok (), s) ∧ ofJsonText? (document fields).text = some s)
      ∨ (∃ e, ofFields fields = .error e) ∧ (∃ e, ofLists (fields.map Prod.fst) (fields.map Prod.snd) = .error e)
        ∧ (∃ e s, (insertAll fields).apply empty = (.error e, s)) ∧ ofJsonText? (document fields).text = none := by
  intro hall
  have hrefused : ofFields [("a", .int .w64), ("a", .string)] = .error (.duplicateField "a") := rfl
  rcases hall [("a", .int .w64), ("a", .string)] with ⟨s, _, hs, _⟩ | ⟨_, _, _, hread⟩
  · rw [hrefused] at hs
    cases hs
  · rw [ofJsonText?_document] at hread
    cases hread

end Columnar.Schema
