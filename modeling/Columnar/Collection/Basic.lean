import Columnar.Expr.Switch
import Columnar.Schema.Basic

/-!
# `Columnar.Collection.Basic` — collections of fields

A collection is a source of columns, or a choice of expressions over one. Its schema lists the names and
types of its fields in order.

## Contents
- `Collection`, `Collection.make`: the type, and a source with its columns.
- `col`, `select`, `switch`: a field, a choice of fields, and a choice between values.
- `checkOwned`: whether an expression belongs to a collection.
-/

namespace Columnar

/-- Named fields over one source. -/
structure Collection where
  name : String
  source : SourceId
  schema : Schema
  fields : List Expr

/-- A field given by its name or as an expression. -/
inductive FieldRef
  | named (name : String)
  | given (e : Expr)

namespace Collection

/-- A new source: every field of the schema is a column. -/
def make [Hasher] (name : String) (schema : Schema) : Build Collection := do
  let source ← Build.source
  let fields ← schema.fields.mapM fun p => Expr.column p.1 source p.2
  pure ⟨name, source, schema, fields⟩

/-- The same source with other fields. -/
def derived (c : Collection) (schema : Schema) (fields : List Expr) : Collection :=
  { c with schema, fields }

/-! ## Fields -/

/-- The field of a name. -/
def col (c : Collection) (name : String) : Except BuildError Expr :=
  match (c.schema.indexOf? name).bind (c.fields[·]?) with
  | some e => .ok e
  | none => .error (.fieldNotFound name c.name)

/-- All columns of an expression must be columns of the collection's source. -/
def checkOwned (c : Collection) (e : Expr) : Except BuildError Unit :=
  if e.sources.all (· == c.source) then .ok () else .error (.foreignField e.text c.name)

/-- All expressions must belong to the collection, checked one after the other. -/
def checkAllOwned (c : Collection) (es : List Expr) : Except BuildError Unit := es.forM c.checkOwned

/-- The expression that a reference means. -/
def resolve (c : Collection) : FieldRef → Except BuildError Expr
  | .named n => c.col n
  | .given e => do
    c.checkOwned e
    pure e

/-- Adds an expression to a schema, under the name that it must have. -/
def pushNamed (c : Checker) (schema : Schema) (e : Expr) : Except BuildError Schema :=
  match e.name? with
  | some n => schema.push n e.type
  | none => c.invalidArgument (e.text ++ " needs a name, use rename()")

/-- The collection of the fields referred to, in order. -/
def select (c : Collection) (fields : List FieldRef) : Except BuildError Collection := do
  let checker : Checker := ⟨"select"⟩
  let selected ← fields.mapM c.resolve
  checker.expectCount (!selected.isEmpty) "at least one field" 0
  let schema ← selected.foldlM (pushNamed checker) .empty
  pure (c.derived schema selected)

/-- A choice between values by boolean conditions over the collection. -/
def switch [Hasher] (c : Collection) (cases : Cases) : Build Expr := do
  c.checkAllOwned cases.exprs
  Expr.switchOn none cases

end Collection

end Columnar
