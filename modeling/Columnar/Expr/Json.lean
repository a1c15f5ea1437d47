import Columnar.Expr.Basic
import Columnar.Value.Json
import Columnar.Schema.Json

/-!
# `Columnar.Expr.Json` — expressions in documents

A node is an object of its kind, its type and shape, its given name and its operands. A kind without payload
is its tag, and any other an object with its tag as the only key. A user function is its name.
-/

namespace Columnar

/-- Edges, labels and all options. -/
def Bins.toJson (b : Bins) : Json :=
  .object [("edges", .array (b.edges.map Value.toJson)), ("labels", .array (b.labels.map .string)),
    ("right", .bool b.right), ("include_lowest", .bool b.includeLowest),
    ("include_under", .bool b.includeUnder), ("include_over", .bool b.includeOver)]

/-- The function by its name, the axis by its tag, and the place if there is one. -/
def Mapping.toJson (m : Mapping) : Json :=
  .object [("function", .string m.function.name), ("axis", .string m.axis.tag),
    ("output_index", .ofOption (fun i => .int i) m.outputIndex)]

/-- A kind without payload is its tag; any other is an object with its tag as the only key. -/
def Kind.toJson : Kind → Json
  | column name source =>
    .object [("Column", .object [("name", .string name), ("source", .int source.number)])]
  | literal v => .object [("Literal", v.toJson)]
  | unary op => .object [("Unary", .string op.tag)]
  | binary op => .object [("Binary", .string op.tag)]
  | reduce op => .object [("Reduce", .string op.tag)]
  | fillMissing => .string "FillNa"
  | membership negated => .object [("IsIn", .object [("negated", .bool negated)])]
  | between inclusive => .object [("Between", .object [("inclusive", .bool inclusive)])]
  | conditional => .string "IfElse"
  | switch hasCase hasDefault =>
    .object [("Switch", .object [("has_case", .bool hasCase), ("has_default", .bool hasDefault)])]
  | cut bins => .object [("Cut", bins.toJson)]
  | cast => .string "Cast"
  | map mapping => .object [("Map", mapping.toJson)]

namespace Expr

mutual

/-- The document of an expression. -/
def toJson : Expr → Json
  | node _ _ k t s n os =>
    .object [("kind", k.toJson), ("data_type", t.toJson), ("shape", s.toJson),
      ("alias", .ofOption .string n), ("operands", .array (toJsonList os))]

/-- The documents of several expressions. -/
def toJsonList : List Expr → List Json
  | [] => []
  | e :: es => e.toJson :: toJsonList es

end

theorem toJsonList_eq_map : ∀ es : List Expr, toJsonList es = es.map toJson
  | [] => by simp [toJsonList]
  | e :: es => by simp [toJsonList, toJsonList_eq_map es]

end Expr

end Columnar
