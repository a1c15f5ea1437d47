import Columnar.Collection.Basic

/-!
# `Columnar.Collection.Apply` — user functions over the fields of a collection

## Contents
- `ApplyOptions`, `Applied`: how a function is applied, and what comes of it.
- `Collection.apply`: along rows to one expression or to new fields, or along columns field by field.
-/

namespace Columnar

/-- How a function is applied. -/
structure ApplyOptions where
  axis : Axis := .column
  /-- With the row axis: one value per row. -/
  reduce : Bool := false
  /-- Names of the results. -/
  names : List String := []
  /-- Types of the results. -/
  types : List ElementType := []
  deriving DecidableEq, Repr

/-- What comes of an application. -/
inductive Applied
  | sequence (e : Expr)
  | collection (c : Collection)

namespace Applied

/-- The expression, if the result is one. -/
def toSequence : Applied → Except BuildError Expr
  | sequence e => .ok e
  | collection _ =>
    (Checker.mk "apply").invalidArgument "apply produced a collection; set reduce for a single value"

/-- The collection, if the result is one. -/
def toCollection : Applied → Except BuildError Collection
  | collection c => .ok c
  | sequence _ => (Checker.mk "apply").invalidArgument "apply produced a single sequence"

end Applied

namespace Collection

/-- A number as text. -/
def countText (n : Nat) : String := String.ofList (Text.digits n)

/-- The type of the field at a place when mapped: its own, the one declared for all, or the one declared
for that place. -/
def mappedType (types : List ElementType) (index : Nat) (field : Expr) : ElementType :=
  match types with
  | [] => field.type
  | [t] => t
  | ts => ts[index]?.getD field.type

/-- The name of the field at a place when mapped: the one declared, or else its own. -/
def mappedName (c : Checker) (names : List String) (index : Nat) (field : Expr) :
    Except BuildError String :=
  match names[index]?.or field.name? with
  | some n => .ok n
  | none => c.invalidArgument (field.text ++ " needs a name")

/-- The schema of fields mapped one by one, from a place on. -/
def mappedSchema (c : Checker) (o : ApplyOptions) :
    Nat → Schema → List Expr → Except BuildError Schema
  | _, schema, [] => .ok schema
  | index, schema, field :: fields => do
    let name ← mappedName c o.names index field
    let schema ← schema.push name (mappedType o.types index field)
    mappedSchema c o (index + 1) schema fields

variable [Hasher]

/-- A mapping node of a given name. -/
def mapNode (m : Mapping) (name : String) (type : ElementType) (shape : Shape) (operands : List Expr) :
    Build Expr := do
  let e ← Build.node (.map m) type shape operands
  e.rename name

/-- Along rows, to one value per row: of the declared type or else a string. -/
def applyReduced (c : Collection) (f : MapFunction) (o : ApplyOptions) : Build Expr := do
  let checker : Checker := ⟨"apply"⟩
  checker.expectCount (o.types.length ≤ 1) "at most one output type" o.types.length
  checker.expectCount (o.names.length ≤ 1) "at most one output name" o.names.length
  let e ← Build.node (.map ⟨f, .row, none⟩) (o.types.head?.getD .string)
    (.combine (c.fields.map Expr.shape)) c.fields
  match o.names.head? with
  | some n => e.rename n
  | none => pure e

/-- Along rows, to a field for each declared name and type. -/
def applyExpanded (c : Collection) (f : MapFunction) (o : ApplyOptions) : Build Collection := do
  let checker : Checker := ⟨"apply"⟩
  checker.expectCount (!o.names.isEmpty && o.names.length == o.types.length)
    ("one output type per output name (" ++ countText o.names.length ++ ")") o.types.length
  let schema ← Schema.ofLists o.names o.types
  let fields ← schema.fields.zipIdx.mapM fun (p, i) =>
    mapNode ⟨f, .row, some i⟩ p.1 p.2 (.combine (c.fields.map Expr.shape)) c.fields
  pure (c.derived schema fields)

/-- Along columns: every field on its own. -/
def applyEach (c : Collection) (f : MapFunction) (o : ApplyOptions) : Build Collection := do
  let checker : Checker := ⟨"apply"⟩
  let n := c.fields.length
  checker.expectCount (o.types.length ≤ 1 || o.types.length == n)
    ("0, 1 or " ++ countText n ++ " output types") o.types.length
  checker.expectCount (o.names.isEmpty || o.names.length == n)
    ("0 or " ++ countText n ++ " output names") o.names.length
  let schema ← mappedSchema checker o 0 .empty c.fields
  let fields ← (schema.fields.zip c.fields).mapM fun (p, field) =>
    mapNode ⟨f, .column, none⟩ p.1 p.2 field.shape [field]
  pure (c.derived schema fields)

/-- Applies a function to the fields of a collection. -/
def apply (c : Collection) (f : MapFunction) (o : ApplyOptions) : Build Applied := do
  let checker : Checker := ⟨"apply"⟩
  checker.expectCount (!c.fields.isEmpty) "at least one field" 0
  c.checkAllOwned c.fields
  match o.axis, o.reduce with
  | .row, true => .sequence <$> c.applyReduced f o
  | .row, false => .collection <$> c.applyExpanded f o
  | .column, true =>
    checker.invalidArgument "reducing along the column axis aggregates a whole field, not a row"
  | .column, false => .collection <$> c.applyEach f o

end Collection

end Columnar
