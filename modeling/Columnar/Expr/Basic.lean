import Columnar.Error
import Columnar.Expr.Kind

/-!
# `Columnar.Expr.Basic` — expressions

An expression is a tree of nodes. A node holds its kind, its type and shape, the name given to it and its
operands; none of this ever changes. Every node also has an identity, so that it can be told whether two
places of a tree hold the very same node, and a hash that is computed once, when it is made.

## Contents
- `Expr` and its fields.
- `Expr.same`: structural equality, which looks at identities and hashes first.
- `Supply`, `Build`: the identities not yet used, and constructions that draw from them.
- `Build.node`, `Expr.rename`, `Expr.withOperands`: making nodes.
-/

namespace Columnar

/-- Tells nodes apart. -/
structure NodeId where
  number : Nat
  deriving DecidableEq, Repr

/-- An expression: a node and the expressions below it. -/
inductive Expr
  | node (id : NodeId) (hash : UInt64) (kind : Kind) (type : ElementType) (shape : Shape)
      (givenName : Option String) (operands : List Expr)

namespace Expr

/-! ## Fields -/

def id : Expr → NodeId
  | node i _ _ _ _ _ _ => i

def hash : Expr → UInt64
  | node _ h _ _ _ _ _ => h

def kind : Expr → Kind
  | node _ _ k _ _ _ _ => k

def type : Expr → ElementType
  | node _ _ _ t _ _ _ => t

def shape : Expr → Shape
  | node _ _ _ _ s _ _ => s

/-- The name given to the expression by renaming. -/
def givenName : Expr → Option String
  | node _ _ _ _ _ n _ => n

def operands : Expr → List Expr
  | node _ _ _ _ _ _ os => os

@[simp] theorem id_node {i h k t s n os} : (node i h k t s n os).id = i := rfl
@[simp] theorem hash_node {i h k t s n os} : (node i h k t s n os).hash = h := rfl
@[simp] theorem kind_node {i h k t s n os} : (node i h k t s n os).kind = k := rfl
@[simp] theorem type_node {i h k t s n os} : (node i h k t s n os).type = t := rfl
@[simp] theorem shape_node {i h k t s n os} : (node i h k t s n os).shape = s := rfl
@[simp] theorem givenName_node {i h k t s n os} : (node i h k t s n os).givenName = n := rfl
@[simp] theorem operands_node {i h k t s n os} : (node i h k t s n os).operands = os := rfl

/-- The name of the expression in a collection: the one given to it, or else that of its column. -/
def name? (e : Expr) : Option String :=
  match e.givenName, e.kind with
  | some n, _ => some n
  | none, .column n _ => some n
  | none, _ => none

def isLeaf (e : Expr) : Bool := e.operands.isEmpty

def isScalar (e : Expr) : Bool := e.shape.isScalar

def isSequence (e : Expr) : Bool := e.shape.isSequence

/-- Whether two expressions are the very same node. -/
def identical (a b : Expr) : Bool := a.id == b.id

/-! ## Equality -/

mutual

/-- Structural equality. Identical nodes are equal without a look inside, and nodes of different hashes are
different without one. -/
def same : Expr → Expr → Bool
  | node i h k t s n os, node i' h' k' t' s' n' os' =>
    i == i' || (h == h' && t == t' && s == s' && k.same k' && n == n' && sameList os os')

/-- Equality of lists, item by item. -/
def sameList : List Expr → List Expr → Bool
  | [], [] => true
  | a :: as, b :: bs => a.same b && sameList as bs
  | _, _ => false

end

instance : BEq Expr := ⟨same⟩

/-- Lists are equal when they are of one length and equal at every place. -/
theorem sameList_eq_isEqv : ∀ as bs : List Expr, sameList as bs = as.isEqv bs same
  | [], [] => by simp [sameList]
  | [], _ :: _ => by simp [sameList]
  | _ :: _, [] => by simp [sameList]
  | a :: as, b :: bs => by
    rw [sameList, sameList_eq_isEqv as bs]
    rfl

end Expr

/-! ## Constructions -/

/-- The identities that are still unused. -/
structure Supply where
  nextNode : Nat := 0
  nextSource : Nat := 1
  nextFunction : Nat := 0
  deriving DecidableEq, Repr

/-- A construction: it draws identities from the supply, and it may be refused. -/
abbrev Build := StateT Supply (Except BuildError)

/-- The items of a node: its own data, then the hashes of its operands. -/
def Expr.feed (kind : Kind) (type : ElementType) (shape : Shape) (givenName : Option String)
    (operands : List Expr) : List HashItem :=
  kind.feed ++ type.feed ++ .text shape.tag :: HashItem.ofOption (fun n => [.text n]) givenName
    ++ operands.map (fun e => .number e.hash.toNat)

/-- Makes a node out of the next identity. -/
def Supply.node [Hasher] (s : Supply) (kind : Kind) (type : ElementType) (shape : Shape)
    (givenName : Option String) (operands : List Expr) : Expr × Supply :=
  (.node ⟨s.nextNode⟩ (Hasher.digest (Expr.feed kind type shape givenName operands)) kind type shape
      givenName operands,
    { s with nextNode := s.nextNode + 1 })

namespace Supply

variable [Hasher] (s : Supply) (k : Kind) (t : ElementType) (sh : Shape) (n : Option String)
  (os : List Expr)

@[simp] theorem id_node : (s.node k t sh n os).1.id = ⟨s.nextNode⟩ := rfl
@[simp] theorem kind_node : (s.node k t sh n os).1.kind = k := rfl
@[simp] theorem type_node : (s.node k t sh n os).1.type = t := rfl
@[simp] theorem shape_node : (s.node k t sh n os).1.shape = sh := rfl
@[simp] theorem givenName_node : (s.node k t sh n os).1.givenName = n := rfl
@[simp] theorem operands_node : (s.node k t sh n os).1.operands = os := rfl

end Supply

namespace Build

/-- Makes a new node without a given name. -/
def node [Hasher] (kind : Kind) (type : ElementType) (shape : Shape) (operands : List Expr) :
    Build Expr :=
  fun s => .ok (s.node kind type shape none operands)

/-- Takes a new source number. -/
def source : Build SourceId :=
  fun s => .ok (⟨s.nextSource⟩, { s with nextSource := s.nextSource + 1 })

/-- Makes a function of a new identity. -/
def function (name : String) (call : Row → Option Value) : Build MapFunction :=
  fun s => .ok (⟨name, ⟨s.nextFunction⟩, call⟩, { s with nextFunction := s.nextFunction + 1 })

end Build

namespace Expr

variable [Hasher]

/-- A new node that differs in its operands. -/
def withOperands (e : Expr) (operands : List Expr) (s : Supply) : Expr × Supply :=
  s.node e.kind e.type e.shape e.givenName operands

/-- A new node of the given name over the same operands. -/
def rename (e : Expr) (name : String) : Build Expr :=
  fun s => .ok (s.node e.kind e.type e.shape (some name) e.operands)

/-- A field of a source. -/
def column (name : String) (source : SourceId) (type : ElementType) : Build Expr :=
  .node (.column name source) type .sequence []

/-- A constant. -/
def literal (v : Value) : Build Expr := .node (.literal v) v.type .scalar []

end Expr

end Columnar
