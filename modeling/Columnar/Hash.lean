import Columnar.Function

/-!
# `Columnar.Hash` — what is handed to a hash function

A hash function sees a list of items and nothing else. Equal things hand over equal items, whatever their
representation: a decimal is reduced first.

## Contents
- `HashItem`, `Hasher`: the items and the function, which is a parameter of everything that builds nodes.
- `Hasher.standard`: one such function.
- `feed` for types, shapes and values.
-/

namespace Columnar

/-- An item handed to a hash function. -/
inductive HashItem
  | number (n : Int)
  | text (s : String)
  deriving DecidableEq, Repr

/-- A hash function. -/
class Hasher where
  digest : List HashItem → UInt64

namespace Hasher

/-- Mixes a number into a state. -/
def mix (state : UInt64) (n : Nat) : UInt64 := (state ^^^ n.toUInt64) * 1099511628211

/-- Mixes an item into a state; texts are closed by a number that no character has. -/
def mixItem (state : UInt64) : HashItem → UInt64
  | .number n => mix (mix state n.natAbs) (if n < 0 then 1 else 0)
  | .text s => mix (s.toList.foldl (fun h c => mix h c.toNat) state) 0x110000

/-- A hash function that mixes the items in from the left. -/
abbrev standard : Hasher := ⟨fun items => items.foldl mixItem 14695981039346656037⟩

end Hasher

/-! ## Items of types and values -/

/-- A truth value as a number. -/
def HashItem.ofBool (b : Bool) : HashItem := .number (if b then 1 else 0)

/-- The items of a list, behind its length. -/
def HashItem.ofList {α : Type} (feed : α → List HashItem) (as : List α) : List HashItem :=
  .number as.length :: as.flatMap feed

/-- The items of something that may be missing. -/
def HashItem.ofOption {α : Type} (feed : α → List HashItem) : Option α → List HashItem
  | some a => .number 1 :: feed a
  | none => [.number 0]

/-- A type is its tag. -/
def ElementType.feed (t : ElementType) : List HashItem := [.text t.tag]

/-- The reduced mantissa and scale, which equal numbers share. -/
def Decimal.feed (d : Decimal) : List HashItem :=
  [.number d.reduced.1, .number d.reduced.2]

/-- All parts of a moment. -/
def Datetime.feed (t : Datetime) : List HashItem :=
  [.number t.year, .number t.month, .number t.day, .number t.hour, .number t.minute,
    .number t.second, .number t.nanosecond]

/-- The type of a value, then its data. -/
def Value.feed (v : Value) : List HashItem :=
  v.type.feed ++ match v with
    | boolean b => [.ofBool b]
    | int _ n => [.number n.val]
    | float _ x => [.ofBool x.negative, .number x.magnitude]
    | decimal d => d.feed
    | string s => [.text s]
    | datetime t => t.feed

/-- The name and the identity of a function. -/
def MapFunction.feed (f : MapFunction) : List HashItem := [.text f.name, .number f.id.number]

end Columnar
