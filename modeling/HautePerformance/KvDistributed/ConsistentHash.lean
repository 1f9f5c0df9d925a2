import Mathlib.Algebra.GroupWithZero.Nat
import Mathlib.Data.List.Nodup
import Mathlib.Data.List.Sublists

/-!
# The consistent-hash ring

`consistent_hash.rs` over an arbitrary 64-bit hash.  The `BTreeMap` of virtual
nodes is a list of positions in increasing order; the structure carries that
order.
-/

namespace HautePerformance.KvDistributed

/-- The virtual nodes in increasing order of position. -/
abbrev VirtualNodes := List (UInt64 × String)

/-- `BTreeMap::insert`: an occupied position changes its owner. -/
def insertVnode (position : UInt64) (owner : String) :
    VirtualNodes → VirtualNodes
  | [] => [(position, owner)]
  | (other, otherOwner) :: rest =>
      if position < other then
        (position, owner) :: (other, otherOwner) :: rest
      else if position = other then
        (position, owner) :: rest
      else
        (other, otherOwner) :: insertVnode position owner rest

/-- The positions increase strictly. -/
def Increasing (ring : VirtualNodes) : Prop :=
  ring.Pairwise (fun left right => left.1 < right.1)

theorem mem_insertVnode {position : UInt64} {owner : String}
    {ring : VirtualNodes} {entry : UInt64 × String}
    (member : entry ∈ insertVnode position owner ring) :
    entry = (position, owner) ∨ entry ∈ ring := by
  induction ring with
  | nil => simpa [insertVnode] using member
  | cons head tail inductionHypothesis =>
      obtain ⟨other, otherOwner⟩ := head
      simp only [insertVnode] at member
      split at member
      · simpa using member
      · split at member
        · rcases List.mem_cons.mp member with here | later
          · exact Or.inl here
          · exact Or.inr (List.mem_cons_of_mem _ later)
        · rcases List.mem_cons.mp member with here | later
          · exact Or.inr (by simp [here])
          · rcases inductionHypothesis later with inserted | old
            · exact Or.inl inserted
            · exact Or.inr (List.mem_cons_of_mem _ old)

theorem Increasing.insertVnode {ring : VirtualNodes}
    (increasing : Increasing ring) (position : UInt64) (owner : String) :
    Increasing (insertVnode position owner ring) := by
  induction ring with
  | nil => simp [KvDistributed.insertVnode, Increasing]
  | cons head tail inductionHypothesis =>
      obtain ⟨other, otherOwner⟩ := head
      obtain ⟨headBelow, tailIncreasing⟩ := List.pairwise_cons.mp increasing
      simp only [KvDistributed.insertVnode]
      split
      · rename_i before
        refine List.pairwise_cons.mpr ⟨?_, increasing⟩
        intro entry member
        rcases List.mem_cons.mp member with here | later
        · simpa [here] using before
        · exact UInt64.lt_trans before (headBelow entry later)
      · rename_i notBefore
        split
        · rename_i same
          exact List.pairwise_cons.mpr
            ⟨fun entry member => same ▸ headBelow entry member,
              tailIncreasing⟩
        · rename_i different
          refine List.pairwise_cons.mpr
            ⟨?_, inductionHypothesis tailIncreasing⟩
          intro entry member
          rcases mem_insertVnode member with inserted | old
          · rw [inserted]
            exact UInt64.lt_of_le_of_ne (UInt64.not_lt.mp notBefore)
              (Ne.symm different)
          · exact headBelow entry old

structure ConsistentHashRing where
  ring : VirtualNodes
  nodes : List String
  virtualNodes : Nat
  increasing : Increasing ring

/-- `format!("{node_id}#vnode-{i}")`. -/
def vnodeKey (nodeId : String) (i : Nat) : String :=
  nodeId ++ "#vnode-" ++ toString i

namespace ConsistentHashRing

/-- `ConsistentHashRing::new`. -/
def new (virtualNodes : Nat) : ConsistentHashRing :=
  { ring := []
    nodes := []
    virtualNodes := virtualNodes
    increasing := List.Pairwise.nil }

/-- The loop of `add_node` over the indices of the virtual nodes. -/
def insertAll (hash : String → UInt64) (nodeId : String) :
    List Nat → VirtualNodes → VirtualNodes
  | [], ring => ring
  | i :: rest, ring =>
      insertAll hash nodeId rest (insertVnode (hash (vnodeKey nodeId i)) nodeId ring)

theorem Increasing.insertAll (hash : String → UInt64) (nodeId : String)
    (indices : List Nat) :
    ∀ {ring : VirtualNodes},
      Increasing ring → Increasing (insertAll hash nodeId indices ring) := by
  induction indices with
  | nil =>
      intro ring increasing
      exact increasing
  | cons i rest inductionHypothesis =>
      intro ring increasing
      exact inductionHypothesis (increasing.insertVnode _ _)

/-- `ConsistentHashRing::add_node`: a node already present is ignored. -/
def addNode (hash : String → UInt64) (self : ConsistentHashRing)
    (nodeId : String) : ConsistentHashRing :=
  if self.nodes.any (· == nodeId) then
    self
  else
    { self with
      nodes := self.nodes ++ [nodeId]
      ring := insertAll hash nodeId (List.range self.virtualNodes) self.ring
      increasing := Increasing.insertAll hash nodeId _ self.increasing }

/-- `ConsistentHashRing::remove_node`. -/
def removeNode (self : ConsistentHashRing) (nodeId : String) :
    ConsistentHashRing :=
  { self with
    nodes := self.nodes.filter (· != nodeId)
    ring := self.ring.filter (fun entry => entry.2 != nodeId)
    increasing := self.increasing.filter _ }

/-- `self.ring.range(h..)`. -/
def range (self : ConsistentHashRing) (h : UInt64) : VirtualNodes :=
  self.ring.filter (fun entry => decide (h ≤ entry.1))

/-- `ConsistentHashRing::get_node`. -/
def getNode (hash : String → UInt64) (self : ConsistentHashRing)
    (key : String) : Option String :=
  if self.ring.isEmpty then
    none
  else
    ((self.range (hash key)).head?.or self.ring.head?).map Prod.snd

/-- The loop of `get_nodes`.  `result` lists the nodes in the order in which
they were inserted in the set `seen`, so it stands for both. -/
def walk (count nodeCount : Nat) : List String → VirtualNodes → List String
  | result, [] => result
  | result, (_, node) :: rest =>
      if node ∈ result then
        if result.length = nodeCount then result
        else walk count nodeCount result rest
      else
        if count ≤ (result ++ [node]).length then result ++ [node]
        else if (result ++ [node]).length = nodeCount then result ++ [node]
        else walk count nodeCount (result ++ [node]) rest

/-- The nodes of `get_nodes`, whose chain goes over the tail of the ring and then
over the whole ring. -/
def getNodes (hash : String → UInt64) (self : ConsistentHashRing)
    (key : String) (count : Nat) : List String :=
  if self.ring.isEmpty || count == 0 then
    []
  else
    walk count self.nodes.length [] (self.range (hash key) ++ self.ring)

/-- `Vec::with_capacity(count)` for `&str`s of sixteen bytes, which panics when
the vector could take more than `isize::MAX` bytes. -/
def withCapacity (count : Nat) : Option (List String) :=
  if 16 * count ≤ 2 ^ 63 - 1 then some [] else none

/-- `ConsistentHashRing::get_nodes` with its allocation: `none` is the panic. -/
def getNodes? (hash : String → UInt64) (self : ConsistentHashRing)
    (key : String) (count : Nat) : Option (List String) :=
  if self.ring.isEmpty || count == 0 then
    some []
  else
    (withCapacity count).map fun result =>
      walk count self.nodes.length result (self.range (hash key) ++ self.ring)

/-- `get_nodes` gives its nodes, unless there is something to walk and no vector
for so many nodes. -/
theorem getNodes?_eq (hash : String → UInt64) (self : ConsistentHashRing)
    (key : String) (count : Nat) :
    self.getNodes? hash key count =
      if self.ring = [] ∨ count < 2 ^ 59 then
        some (self.getNodes hash key count)
      else none := by
  have hasRoom : 16 * count ≤ 2 ^ 63 - 1 ↔ count < 2 ^ 59 := by omega
  simp only [getNodes?, getNodes, withCapacity, hasRoom]
  by_cases idle : (self.ring.isEmpty || count == 0) = true
  · have answers : self.ring = [] ∨ count < 2 ^ 59 := by
      rcases Bool.or_eq_true_iff.mp idle with isEmpty | isZero
      · exact Or.inl (List.isEmpty_iff.mp isEmpty)
      · exact Or.inr (by rw [beq_iff_eq.mp isZero]; decide)
    rw [if_pos idle, if_pos idle, if_pos answers]
  · rw [if_neg idle, if_neg idle]
    have notEmpty : self.ring ≠ [] := by
      intro empty
      simp [empty] at idle
    by_cases fits : count < 2 ^ 59
    · rw [if_pos fits, if_pos (Or.inr fits)]
      rfl
    · rw [if_neg fits, if_neg (not_or.mpr ⟨notEmpty, fits⟩)]
      rfl

theorem getNodes?_of_lt {hash : String → UInt64} {self : ConsistentHashRing}
    {key : String} {count : Nat} (fits : count < 2 ^ 59) :
    self.getNodes? hash key count = some (self.getNodes hash key count) := by
  rw [getNodes?_eq, if_pos (Or.inr fits)]

theorem nodup_walk (count nodeCount : Nat) :
    ∀ (vnodes : VirtualNodes) {result : List String},
      result.Nodup → (walk count nodeCount result vnodes).Nodup
  | [], result, nodup => nodup
  | (_, node) :: rest, result, nodup => by
      have extended (fresh : node ∉ result) : (result ++ [node]).Nodup :=
        List.nodup_append.mpr
          ⟨nodup, List.nodup_singleton node, by
            intro other member last lastMember same
            rw [List.mem_singleton] at lastMember
            exact fresh (lastMember ▸ same ▸ member)⟩
      simp only [walk]
      split
      · split
        · exact nodup
        · exact nodup_walk count nodeCount rest nodup
      · rename_i fresh
        split
        · exact extended fresh
        · split
          · exact extended fresh
          · exact nodup_walk count nodeCount rest (extended fresh)

theorem length_walk_le (count nodeCount : Nat) :
    ∀ (vnodes : VirtualNodes) {result : List String},
      result.length < count →
      (walk count nodeCount result vnodes).length ≤ count
  | [], result, bound => by
      simp only [walk]
      omega
  | (_, node) :: rest, result, bound => by
      have extended : (result ++ [node]).length ≤ count := by
        simp only [List.length_append, List.length_singleton]
        omega
      simp only [walk]
      split
      · split
        · omega
        · exact length_walk_le count nodeCount rest bound
      · split
        · exact extended
        · rename_i notFull
          split
          · exact extended
          · exact length_walk_le count nodeCount rest (by omega)

/-- The replicas of a key are distinct nodes. -/
theorem nodup_getNodes (hash : String → UInt64) (self : ConsistentHashRing)
    (key : String) (count : Nat) : (self.getNodes hash key count).Nodup := by
  unfold getNodes
  split
  · exact List.nodup_nil
  · exact nodup_walk _ _ _ List.nodup_nil

theorem mem_walk (count nodeCount : Nat) {node : String} :
    ∀ (vnodes : VirtualNodes) {result : List String},
      node ∈ walk count nodeCount result vnodes →
      node ∈ result ∨ ∃ position, (position, node) ∈ vnodes
  | [], result, member => Or.inl member
  | (position, other) :: rest, result, member => by
      have later (found : node ∈ result ∨ ∃ position, (position, node) ∈ rest) :
          node ∈ result ∨
            ∃ place, (place, node) ∈ (position, other) :: rest := by
        rcases found with old | ⟨place, inRest⟩
        · exact Or.inl old
        · exact Or.inr ⟨place, List.mem_cons_of_mem _ inRest⟩
      have extended (found : node ∈ result ++ [other]) :
          node ∈ result ∨
            ∃ place, (place, node) ∈ (position, other) :: rest := by
        rcases List.mem_append.mp found with old | new
        · exact Or.inl old
        · rw [List.mem_singleton] at new
          exact Or.inr ⟨position, by simp [new]⟩
      simp only [walk] at member
      split at member
      · split at member
        · exact Or.inl member
        · exact later (mem_walk count nodeCount rest member)
      · split at member
        · exact extended member
        · split at member
          · exact extended member
          · rcases mem_walk count nodeCount rest member with
              added | ⟨place, inRest⟩
            · exact extended added
            · exact Or.inr ⟨place, List.mem_cons_of_mem _ inRest⟩

/-- A replica owns a virtual node of the ring. -/
theorem mem_getNodes {hash : String → UInt64} {self : ConsistentHashRing}
    {key node : String} {count : Nat}
    (member : node ∈ self.getNodes hash key count) :
    ∃ position, (position, node) ∈ self.ring := by
  unfold getNodes at member
  split at member
  · cases member
  · rcases mem_walk _ _ _ member with impossible | ⟨position, inChain⟩
    · cases impossible
    · rcases List.mem_append.mp inChain with inRange | inRing
      · exact ⟨position, (List.mem_filter.mp inRange).1⟩
      · exact ⟨position, inRing⟩

/-- At most `count` replicas. -/
theorem length_getNodes_le (hash : String → UInt64)
    (self : ConsistentHashRing) (key : String) (count : Nat) :
    (self.getNodes hash key count).length ≤ count := by
  unfold getNodes
  split
  · simp
  · rename_i some
    refine length_walk_le _ _ _ ?_
    simp only [Bool.or_eq_true, not_or, beq_iff_eq] at some
    simpa using Nat.pos_of_ne_zero some.2

end ConsistentHashRing

end HautePerformance.KvDistributed
