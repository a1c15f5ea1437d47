import Columnar.Value.Basic
import Columnar.Text.Quoted

/-!
# `Columnar.Function` — user functions over rows

## Contents
- `Row`: named values, some of them missing.
- `MapFunction`: a function with a name and an identity. Functions themselves cannot be compared; two
  references are the same when they share name and identity.
-/

namespace Columnar

/-! ## Rows -/

/-- Named field values in order; a value may be missing. Names may repeat. -/
structure Row where
  fields : List (String × Option Value)
  deriving Repr

namespace Row

/-- The value of the first field of a name, if that is there and not missing. -/
def get? (r : Row) (name : String) : Option Value := (r.fields.lookup name).join

/-- The value at a place, if that is there and not missing. -/
def getAt? (r : Row) (index : Nat) : Option Value := (r.fields[index]?).bind Prod.snd

def names (r : Row) : List String := r.fields.map Prod.fst

def size (r : Row) : Nat := r.fields.length

def isEmpty (r : Row) : Bool := r.fields.isEmpty

/-- The same names with the same values, in the same order. -/
def same (a b : Row) : Bool :=
  a.fields.isEqv b.fields fun p q => p.1 == q.1 && Value.sameOption p.2 q.2

end Row

/-! ## Functions -/

/-- Tells functions of one name apart. -/
structure FunctionId where
  number : Nat
  deriving DecidableEq, Repr

/-- A reference to a user function. -/
structure MapFunction where
  name : String
  id : FunctionId
  call : Row → Option Value

namespace MapFunction

/-- The same name and the same identity. -/
def same (f g : MapFunction) : Bool := f.name == g.name && f.id == g.id

instance : BEq MapFunction := ⟨same⟩

/-- A function shown with its name alone. -/
def description (f : MapFunction) : String :=
  "MapFunction \x7b name: " ++ Text.quoted f.name ++ " \x7d"

end MapFunction

end Columnar
