import Columnar.Error

/-!
# `Columnar.Schema.Basic` — ordered sets of named, typed fields

## Contents
- `Schema`: fields in order, under distinct names.
- `get?`, `indexOf?`, `contains`: lookup by name.
- `push`, `ofFields`, `ofLists`: construction, which refuses a repeated name.
- `set`: the field of a name, whether it is there or not.
- `same`: equality up to the order of fields.
-/

namespace Columnar

/-- Fields in order, no two of one name. -/
structure Schema where
  fields : List (String × ElementType)
  names_nodup : (fields.map Prod.fst).Nodup
  deriving DecidableEq, Repr

namespace Schema

/-- The schema without fields. -/
def empty : Schema := ⟨[], List.nodup_nil⟩

/-- The names of the fields, in order. -/
def names (s : Schema) : List String := s.fields.map Prod.fst

/-- The types of the fields, in order. -/
def types (s : Schema) : List ElementType := s.fields.map Prod.snd

/-- The number of fields. -/
def size (s : Schema) : Nat := s.fields.length

def isEmpty (s : Schema) : Bool := s.fields.isEmpty

/-! ## Lookup -/

/-- The type of the field of a name. -/
def get? (s : Schema) (name : String) : Option ElementType := s.fields.lookup name

/-- The place of the field of a name. -/
def indexOf? (s : Schema) (name : String) : Option Nat := s.names.findIdx? (· == name)

/-- Whether there is a field of a name. -/
def contains (s : Schema) (name : String) : Bool := s.names.contains name

/-- The same fields, in whatever order. -/
def same (a b : Schema) : Bool :=
  a.size == b.size && a.fields.all (fun p => b.get? p.1 == some p.2)

/-! ## Construction -/

/-- Adds a field at the end, unless its name is taken. -/
def push (s : Schema) (name : String) (type : ElementType) : Except BuildError Schema :=
  if h : name ∈ s.fields.map Prod.fst then .error (.duplicateField name)
  else .ok ⟨s.fields ++ [(name, type)], by
    rw [List.map_append, List.nodup_append]
    exact ⟨s.names_nodup, by simp, fun a ha b hb => by
      simp at hb
      subst hb
      exact fun e => h (e ▸ ha)⟩⟩

theorem push_of_mem {s : Schema} {name : String} (h : name ∈ s.names) (type : ElementType) :
    s.push name type = .error (.duplicateField name) :=
  dif_pos h

/-- A push that succeeds adds the field behind all others, and the name was not taken. -/
theorem push_eq_ok {s r : Schema} {name : String} {type : ElementType}
    (h : s.push name type = .ok r) : name ∉ s.names ∧ r.fields = s.fields ++ [(name, type)] := by
  rw [push] at h
  split at h
  · cases h
  · next hn =>
    cases h
    exact ⟨hn, rfl⟩

/-- The schema with the given fields, unless a name is repeated. -/
def ofFields (fields : List (String × ElementType)) : Except BuildError Schema :=
  fields.foldlM (fun s p => s.push p.1 p.2) empty

/-- The schema with the given names and their types, of which there must be equally many. -/
def ofLists (names : List String) (types : List ElementType) : Except BuildError Schema :=
  if names.length = types.length then ofFields (names.zip types)
  else .error (.argumentCount "schema" (String.ofList (Text.digits names.length) ++ " types")
    types.length)

/-- Gives the field of a name a type: in its place if it is there, at the end if it is not. -/
def set (s : Schema) (name : String) (type : ElementType) : Schema :=
  if h : name ∈ s.fields.map Prod.fst then
    ⟨s.fields.map (fun p => if p.1 = name then (name, type) else p), by
      have e : (s.fields.map (fun p => if p.1 = name then (name, type) else p)).map Prod.fst
          = s.fields.map Prod.fst := by
        rw [List.map_map]
        refine List.map_congr_left fun p _ => ?_
        by_cases hp : p.1 = name <;> simp [hp]
      rw [e]
      exact s.names_nodup⟩
  else
    ⟨s.fields ++ [(name, type)], by
      rw [List.map_append, List.nodup_append]
      exact ⟨s.names_nodup, by simp, fun a ha b hb => by
        simp at hb
        subst hb
        exact fun e => h (e ▸ ha)⟩⟩

end Schema

end Columnar
