import Columnar.Schema.Basic
import Columnar.Shape
import Columnar.Value.Json

/-!
# `Columnar.Schema.Json` — schemas and shapes in documents

A schema is an object with one member `fields`, which holds the type of each field under its name, in
order. When read, other members are skipped, a name given twice keeps its place and takes the later type,
and an array of the field object alone is accepted in place of the outer object.
-/

namespace Columnar

namespace Shape

def toJson (s : Shape) : Json := .string s.tag

/-- The shape in a document. -/
def ofJsonText? (text : String) : Option Shape :=
  Json.Reader.readWhole (Json.Reader.readName ofTag?) text

end Shape

namespace Schema

/-- The object of the fields, in order, as the one member of an object. -/
def toJson (s : Schema) : Json :=
  .object [("fields", .object (s.fields.map fun p => (p.1, p.2.toJson)))]

/-- The text of a schema in a document. -/
def jsonText (s : Schema) : String := s.toJson.text

open Json.Reader

/-- Reads the object of field names and types. -/
def fieldsReader (cs : List Char) : Option (Schema × List Char) :=
  readObject (fun s name cs => (ElementType.reader cs).map fun (t, cs) => (s.set name t, cs)) empty cs

/-- Takes a member of the outer object: the fields once, all others skipped. -/
def memberReader (found : Option Schema) (key : String) (cs : List Char) :
    Option (Option Schema × List Char) :=
  if key = "fields" then
    if found.isSome then none else (fieldsReader cs).map fun (s, cs) => (some s, cs)
  else (skipValue cs).map fun cs => (found, cs)

/-- Reads a schema in either form. -/
def reader (cs : List Char) : Option (Schema × List Char) :=
  match skipSpace cs with
  | '[' :: cs => do
    let (s, cs) ← fieldsReader cs
    let cs ← mark ']' cs
    some (s, cs)
  | cs => do
    let (found, cs) ← readObject memberReader none cs
    some (← found, cs)

/-- The schema in a document. -/
def ofJsonText? (text : String) : Option Schema := readWhole reader text

end Schema

end Columnar
