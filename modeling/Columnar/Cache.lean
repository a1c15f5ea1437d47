import Columnar.Expr.Query

/-!
# `Columnar.Cache` — shared nodes

A cache holds nodes no two of which are equal. Interning an expression gives an equal one all of whose nodes
are in the cache, so that equal expressions interned later share their nodes at every level.

## Contents
- `Cache`: the nodes, in the order in which they came in.
- `Cache.find?`, `Cache.contains`: the node equal to a given one.
- `Cache.intern`: operands first, then the node itself.
-/

namespace Columnar

/-- Nodes that are shared. -/
structure Cache where
  nodes : List Expr := []

namespace Cache

/-- The number of nodes. -/
def size (c : Cache) : Nat := c.nodes.length

def isEmpty (c : Cache) : Bool := c.nodes.isEmpty

/-- The node equal to a given one. -/
def find? (c : Cache) (e : Expr) : Option Expr := c.nodes.find? (·.same e)

/-- Whether a node equal to a given one is there. -/
def contains (c : Cache) (e : Expr) : Bool := (c.find? e).isSome

/-- The cache without nodes. -/
def clear (_ : Cache) : Cache := {}

/-- The node equal to a given one, which is put in if there is none. -/
def share (c : Cache) (e : Expr) : Expr × Cache :=
  match c.find? e with
  | some found => (found, c)
  | none => (e, { c with nodes := c.nodes ++ [e] })

/-- Whether two lists hold the very same nodes. -/
def identicalAll (as bs : List Expr) : Bool := as.isEqv bs Expr.identical

variable [Hasher]

mutual

/-- Interns an expression. Its node is kept if its operands were, and made anew over the shared ones if
they were not. -/
def intern : Expr → Cache → Supply → Expr × Cache × Supply
  | .node i h k t s n os, c, supply =>
    let (shared, c, supply) := internList os c supply
    let (candidate, supply) :=
      if identicalAll shared os then (.node i h k t s n os, supply)
      else supply.node k t s n shared
    let (e, c) := c.share candidate
    (e, c, supply)

/-- Interns several expressions, one after the other. -/
def internList : List Expr → Cache → Supply → List Expr × Cache × Supply
  | [], c, supply => ([], c, supply)
  | e :: es, c, supply =>
    let (e, c, supply) := intern e c supply
    let (es, c, supply) := internList es c supply
    (e :: es, c, supply)

end

end Cache

end Columnar
