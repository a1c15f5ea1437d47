import Columnar.Proofs.Json.Reading
import Columnar.Schema.Json
import Mathlib.Data.List.Nodup

/-!
# `Proofs.Schema.Reading` — a schema is read back from its document

A reader gives each field of the document to the schema read so far, where a name that is taken keeps its
place. The names of a schema are distinct, so its fields come back one behind the other, in their order.

## Contents
- `fields_set`, `fields_foldl_set`: a new name goes to the end.
- `document`, `fieldsReader_object`, `reader_document`: the object of the fields, and the object around it.
- `ofJsonText?_jsonText`: the text of a schema is read as that schema.
-/

namespace Columnar

open Json.Reader

/-- A written type is read as that type. -/
theorem ElementType.reader_toJson (t : ElementType) (rest : List Char) :
    reader (t.toJson.chars ++ rest) = some (t, rest) := by
  unfold reader toJson
  rw [Json.chars, readName_quoted, ofTag?_tag]
  rfl

namespace Schema

variable {s : Schema}

/-! ## Fields in order -/

theorem fields_set {name : String} (h : name ∉ s.names) (t : ElementType) :
    (s.set name t).fields = s.fields ++ [(name, t)] := by
  exact congrArg Schema.fields (dif_neg h)

/-- Fields of new and distinct names go behind those that are there, in their order. -/
theorem fields_foldl_set {fields : List (String × ElementType)}
    (h : ((s.fields ++ fields).map Prod.fst).Nodup) :
    (fields.foldl (fun s p => s.set p.1 p.2) s).fields = s.fields ++ fields := by
  induction fields generalizing s with
  | nil => exact (List.append_nil _).symm
  | cons p fields ih =>
    have hnew : p.1 ∉ s.names := by
      intro hmem
      rw [List.map_append, List.map_cons] at h
      exact (List.disjoint_of_nodup_append h) hmem List.mem_cons_self
    have hfields := fields_set hnew p.2
    rw [List.foldl_cons, ih, hfields, List.append_assoc]
    · rfl
    · rw [hfields, List.append_assoc]
      exact h

/-- Giving the fields of a schema to the empty one makes it anew. -/
theorem foldl_set_fields (s : Schema) : s.fields.foldl (fun s p => s.set p.1 p.2) empty = s := by
  rw [Schema.mk.injEq]
  exact fields_foldl_set (s := empty) s.names_nodup

/-! ## Reading -/

/-- The fields of a document are given to the schema one after the other. -/
theorem fieldsReader_object (fields : List (String × ElementType)) (rest : List Char) :
    fieldsReader ((Json.object (fields.map fun p => (p.1, p.2.toJson))).chars ++ rest)
      = some (fields.foldl (fun s p => s.set p.1 p.2) empty, rest) := by
  unfold fieldsReader
  rw [readObject_object _ _ (f := fun s p => pure (s.set p.1 p.2)), List.foldlM_pure]
  · rfl
  · intro s p _ rest
    rw [ElementType.reader_toJson]
    rfl

/-- The document of fields that need not be those of a schema. -/
def document (fields : List (String × ElementType)) : Json :=
  .object [("fields", .object (fields.map fun p => (p.1, p.2.toJson)))]

/-- The member of the fields is taken once. -/
theorem memberReader_fields (found : Option Schema) (fields : List (String × ElementType)) (rest : List Char) :
    memberReader found "fields" ((Json.object (fields.map fun p => (p.1, p.2.toJson))).chars ++ rest)
      = (if found.isSome then none else some (some (fields.foldl (fun s p => s.set p.1 p.2) empty))).map
          fun found => (found, rest) := by
  unfold memberReader
  rw [if_pos rfl, fieldsReader_object]
  cases found <;> rfl

/-- The fields of a document are given to the empty schema. -/
theorem reader_document (fields : List (String × ElementType)) (rest : List Char) :
    reader ((document fields).chars ++ rest) = some (fields.foldl (fun s p => s.set p.1 p.2) empty, rest) := by
  have hobject := readObject_object
    (fun fields : List (String × ElementType) => ("fields", .object (fields.map fun p => (p.1, p.2.toJson))))
    [fields] (fun found fields _ rest => memberReader_fields found fields rest) none rest
  have hspace : skipSpace ((document fields).chars ++ rest) = (document fields).chars ++ rest := by
    unfold document
    rw [Json.chars, List.cons_append, skipSpace_cons rfl]
  unfold reader
  rw [hspace]
  -- an object does not start like the array, so the object is read
  show (readObject memberReader none ((document fields).chars ++ rest) >>= fun r => r.1 >>= fun t => some (t, r.2))
    = _
  unfold document
  rw [List.map_cons, List.map_nil] at hobject
  rw [hobject]
  rfl

theorem ofJsonText?_document (fields : List (String × ElementType)) :
    ofJsonText? (document fields).text = some (fields.foldl (fun s p => s.set p.1 p.2) empty) := by
  have hread := reader_document fields []
  rw [List.append_nil] at hread
  unfold ofJsonText? readWhole Json.text
  rw [String.toList_ofList, hread]
  rfl

/-- A written schema is read as that schema. -/
theorem reader_toJson (s : Schema) (rest : List Char) :
    reader (s.toJson.chars ++ rest) = some (s, rest) := by
  have hread := reader_document s.fields rest
  rw [foldl_set_fields] at hread
  exact hread

/-- The text of a schema is read as a schema of the same fields, in the same order, and that is written in the
same text: whatever characters there are in the names, and although equality of schemas does not see the
order. -/
theorem ofJsonText?_jsonText (s : Schema) :
    ∃ r, ofJsonText? s.jsonText = some r ∧ r.fields = s.fields ∧ r.jsonText = s.jsonText := by
  refine ⟨s, ?_, rfl, rfl⟩
  have hread := reader_toJson s []
  rw [List.append_nil] at hread
  unfold ofJsonText? readWhole jsonText Json.text
  rw [String.toList_ofList, hread]
  rfl

end Schema

end Columnar
