/-!
# `Columnar.Shape` — one value, or one per row
-/

namespace Columnar

/-- Whether an expression yields one value per row of a source or a single value. -/
inductive Shape
  | sequence
  | scalar
  deriving DecidableEq, Repr

namespace Shape

def isScalar (s : Shape) : Bool := s == scalar

def isSequence (s : Shape) : Bool := s == sequence

/-- The shape of what is computed value by value from parts of the given shapes: scalar only when every
part is. -/
def combine (shapes : List Shape) : Shape :=
  if shapes.all isScalar then scalar else sequence

theorem combine_eq_scalar_iff {shapes : List Shape} :
    combine shapes = scalar ↔ ∀ s ∈ shapes, s = scalar := by
  simp [combine, isScalar]

/-- The name of a shape in messages. -/
def name : Shape → String
  | sequence => "sequence"
  | scalar => "scalar"

/-- The name of a shape in documents. -/
def tag : Shape → String
  | sequence => "Sequence"
  | scalar => "Scalar"

/-- The shape with a given name in documents. -/
def ofTag? (s : String) : Option Shape := [sequence, scalar].find? (fun t => t.tag == s)

@[simp] theorem ofTag?_tag (s : Shape) : ofTag? s.tag = some s := by
  cases s <;> rfl

end Shape

end Columnar
