import Mathlib.Data.Finset.Sort
import Mathlib.Data.List.Sort
import Mathlib.Data.String.Basic
import HautePerformance.Library.CausalReplicas
import HautePerformance.Library.CheckedInteger
import HautePerformance.Library.EntryMerge

/-!
# The CRDT demo

`demo_3_3b_crdt.rs`: a counter that only grows, a counter with two of these, and an
observed-remove set.  A `HashMap` is a list of entries with distinct keys, and
`+= 1` on a `u64` has no result when it overflows.
-/

namespace HautePerformance.Demos.Crdt

open Library

/-! ## The counter that only grows -/

structure GCounter where
  nodeId : String
  counters : AList fun _ : String => Nat

namespace GCounter

def new (nodeId : String) : GCounter :=
  { nodeId := nodeId, counters := ∅ }

/-- The case of a node, zero when it has none. -/
def count (self : GCounter) (node : String) : Nat :=
  valueAt 0 self.counters node

/-- `*self.counters.entry(self.node_id).or_insert(0) += 1`. -/
def increment (self : GCounter) : Option GCounter :=
  (checkedAdd (self.count self.nodeId) 1).map fun count =>
    { self with counters := self.counters.insert self.nodeId count }

def value (self : GCounter) : Option Nat :=
  checkedSum (self.counters.entries.map fun entry => entry.2)

/-- The maximum, case by case. -/
def merge (self other : GCounter) : GCounter :=
  { self with counters := mergeEntries max 0 self.counters other.counters }

end GCounter

/-! ## The counter that can be decremented -/

structure PNCounter where
  p : GCounter
  n : GCounter

namespace PNCounter

def new (nodeId : String) : PNCounter :=
  { p := GCounter.new nodeId, n := GCounter.new nodeId }

def increment (self : PNCounter) : Option PNCounter :=
  self.p.increment.map fun p => { self with p := p }

def decrement (self : PNCounter) : Option PNCounter :=
  self.n.increment.map fun n => { self with n := n }

/-- `self.p.value() as i64 - self.n.value() as i64`. -/
def value (self : PNCounter) : Option Int :=
  self.p.value.bind fun p =>
    self.n.value.bind fun n => checkedSub (asI64 p) (asI64 n)

def merge (self other : PNCounter) : PNCounter :=
  { p := self.p.merge other.p, n := self.n.merge other.n }

end PNCounter

inductive PNOp where
  | increment
  | decrement
  deriving DecidableEq, Repr

/-- Replicas of a counter, one for each node id. -/
def pnCounter : ReplicatedType String PNOp PNCounter where
  new := PNCounter.new
  apply
    | .increment, counter => counter.increment
    | .decrement, counter => counter.decrement
  merge := PNCounter.merge

/-! ## The observed-remove set -/

structure OrSet where
  nodeId : String
  counter : Nat
  elements : AList fun _ : String => Finset String

namespace OrSet

def new (nodeId : String) : OrSet :=
  { nodeId := nodeId, counter := 0, elements := ∅ }

/-- The live tags of an item, none when it has no entry. -/
def tags (self : OrSet) (item : String) : Finset String :=
  valueAt ∅ self.elements item

/-- `format!("{}:{}", self.node_id, self.counter)`. -/
def tag (nodeId : String) (counter : Nat) : String :=
  nodeId ++ ":" ++ toString counter

def add (self : OrSet) (item : String) : Option OrSet :=
  (checkedAdd self.counter 1).map fun counter =>
    { self with
      counter := counter
      elements :=
        self.elements.insert item
          (insert (tag self.nodeId counter) (self.tags item)) }

/-- The tags of the item are cleared, if it has an entry. -/
def remove (self : OrSet) (item : String) : OrSet :=
  match self.elements.lookup item with
  | none => self
  | some _ => { self with elements := self.elements.insert item ∅ }

def contains (self : OrSet) (item : String) : Bool :=
  match self.elements.lookup item with
  | none => false
  | some tags => !decide (tags = ∅)

/-- The items with a live tag, sorted. -/
def values (self : OrSet) : List String :=
  ((self.elements.entries.filter fun entry => !decide (entry.2 = ∅)).map
    Sigma.fst).insertionSort (· ≤ ·)

/-- The union of the live tags, item by item. -/
def merge (self other : OrSet) : OrSet :=
  { self with elements := mergeEntries (· ∪ ·) ∅ self.elements other.elements }

end OrSet

inductive OrSetOp where
  | add (item : String)
  | remove (item : String)
  deriving DecidableEq, Repr

/-- Replicas of a set, one for each node id. -/
def orSet : ReplicatedType String OrSetOp OrSet where
  new := OrSet.new
  apply
    | .add item, set => set.add item
    | .remove item, set => some (set.remove item)
  merge := OrSet.merge

end HautePerformance.Demos.Crdt
