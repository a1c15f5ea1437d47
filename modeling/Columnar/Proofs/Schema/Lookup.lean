import Columnar.Proofs.Expr.Checker
import Columnar.Schema.Basic
import Mathlib.Data.List.Nodup

/-!
# `Proofs.Schema.Lookup` — looking fields up by name

The names of a schema are distinct, so a name that is there stands at one place and has one type.

## Contents
- `get?_eq_some_iff`, `indexOf?_eq_some_iff`, `contains_iff`: what the lookups find.
- `type_unique`: the type of a name.
- `push_eq_ok_iff`, `push_eq_error`, `foldlM_push_eq_ok`: fields added at the end.
-/

namespace Columnar.Schema

variable {s : Schema} {name : String}

/-- A name has one type. -/
theorem type_unique {t u : ElementType} (ht : (name, t) ∈ s.fields) (hu : (name, u) ∈ s.fields) :
    t = u := by
  have h := List.inj_on_of_nodup_map s.names_nodup ht hu rfl
  exact congrArg Prod.snd h

theorem get?_eq_some_iff {t : ElementType} : s.get? name = some t ↔ (name, t) ∈ s.fields := by
  unfold get?
  constructor
  · intro h
    obtain ⟨before, behind, hfields, _⟩ := List.lookup_eq_some_iff.mp h
    rw [hfields]
    exact List.mem_append_right _ List.mem_cons_self
  · intro h
    cases hl : s.fields.lookup name with
    | none =>
      have hne := List.lookup_eq_none_iff.mp hl _ h
      simp at hne
    | some u =>
      obtain ⟨before, behind, hfields, _⟩ := List.lookup_eq_some_iff.mp hl
      have hu : (name, u) ∈ s.fields := by
        rw [hfields]
        exact List.mem_append_right _ List.mem_cons_self
      rw [type_unique h hu]

theorem contains_iff : s.contains name = true ↔ ∃ t, (name, t) ∈ s.fields := by
  unfold contains names
  rw [List.contains_iff_mem, List.mem_map]
  constructor
  · rintro ⟨⟨n, t⟩, h, rfl⟩
    exact ⟨t, h⟩
  · rintro ⟨t, h⟩
    exact ⟨_, h, rfl⟩

/-- The place of a name is where the field of that name stands. -/
theorem indexOf?_eq_some_iff {i : Nat} :
    s.indexOf? name = some i ↔ ∃ t, s.fields[i]? = some (name, t) := by
  unfold indexOf?
  rw [List.findIdx?_eq_some_iff_getElem]
  constructor
  · rintro ⟨hi, hname, _⟩
    have hlt : i < s.fields.length := by simpa [names] using hi
    refine ⟨s.fields[i].2, ?_⟩
    rw [List.getElem?_eq_getElem hlt]
    have hfst : s.fields[i].1 = name := by simpa [names] using hname
    rw [← hfst]
  · rintro ⟨t, hfield⟩
    obtain ⟨hlt, hi⟩ := List.getElem?_eq_some_iff.mp hfield
    have hlen : i < s.names.length := by simpa [names] using hlt
    have hname : s.names[i] = name := by simp [names, hi]
    refine ⟨hlen, by simp [hname], fun j hj heq => ?_⟩
    -- an earlier place of the same name would be the same place
    have hjname : s.names[j] = s.names[i] := by
      rw [hname]
      exact eq_of_beq heq
    exact absurd ((List.Nodup.getElem_inj_iff s.names_nodup).mp hjname) (Nat.ne_of_lt hj)

/-! ## Additions -/

/-- A field can be added if the schema with it is one: its name is not taken. -/
theorem push_eq_ok_iff {r : Schema} {t : ElementType} :
    s.push name t = .ok r ↔ r.fields = s.fields ++ [(name, t)] := by
  refine ⟨fun h => (push_eq_ok h).2, fun h => ?_⟩
  have hnodup := r.names_nodup
  rw [h, List.map_append, List.nodup_append] at hnodup
  have hfree : name ∉ s.fields.map Prod.fst :=
    fun htaken => hnodup.2.2 name htaken name (List.mem_singleton_self _) rfl
  obtain ⟨fields, _⟩ := r
  cases h
  exact dif_neg hfree

theorem push_eq_error {t : ElementType} {err : BuildError} :
    s.push name t = .error err ↔ name ∈ s.names ∧ err = .duplicateField name := by
  by_cases htaken : name ∈ s.names
  · rw [push_of_mem htaken, Except.error.injEq, eq_comm]
    exact (and_iff_right htaken).symm
  · have hfree : s.push name t = .ok ⟨s.fields ++ [(name, t)], _⟩ := dif_neg htaken
    rw [hfree]
    exact iff_of_false nofun fun h => htaken h.1

/-- The first fields of a schema are a schema. -/
theorem exists_part {before after : List (String × ElementType)} (h : s.fields = before ++ after) :
    ∃ part : Schema, part.fields = before := by
  have hnodup := s.names_nodup
  rw [h, List.map_append] at hnodup
  exact ⟨⟨before, hnodup.of_append_left⟩, rfl⟩

/-- Fields can be added one after the other if the schema with all of them is one. -/
theorem foldlM_push_eq_ok {fields : List (String × ElementType)} {r : Schema} :
    fields.foldlM (fun s p => s.push p.1 p.2) s = .ok r ↔ r.fields = s.fields ++ fields := by
  induction fields generalizing s with
  | nil =>
    show Except.ok s = .ok r ↔ _
    rw [Except.ok.injEq, List.append_nil]
    constructor
    · rintro rfl
      rfl
    · intro h
      cases s
      cases r
      cases h
      rfl
  | cons p fields ih =>
    simp only [List.foldlM_cons, except_bind_eq_ok, push_eq_ok_iff, ih]
    constructor
    · rintro ⟨next, hnext, hr⟩
      rw [hr, hnext, List.append_assoc]
      rfl
    · intro hr
      have hsplit : r.fields = (s.fields ++ [p]) ++ fields := by
        rw [hr, List.append_assoc]
        rfl
      obtain ⟨next, hnext⟩ := exists_part hsplit
      refine ⟨next, hnext, ?_⟩
      rw [hnext]
      exact hsplit

end Columnar.Schema
