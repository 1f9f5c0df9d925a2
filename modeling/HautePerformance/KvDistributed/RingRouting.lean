import Mathlib.Data.List.Perm.Subperm
import HautePerformance.Library.FirstOccurrences
import HautePerformance.KvDistributed.ConsistentHash

/-!
# Routing on the ring

The replicas of a key are the first distinct owners that are met clockwise from
the hash of the key.  Removing a node leaves it out of that order, and adding one
inserts it, so that the replicas move as little as possible.
-/

namespace HautePerformance.KvDistributed

open Library

/-- A change of the set of nodes. -/
inductive RingOp where
  | add (nodeId : String)
  | remove (nodeId : String)
  deriving DecidableEq, Repr

namespace ConsistentHashRing

variable (hash : String → UInt64)

/-- The ring after one change. -/
def apply (self : ConsistentHashRing) : RingOp → ConsistentHashRing
  | .add nodeId => self.addNode hash nodeId
  | .remove nodeId => self.removeNode nodeId

/-- The ring that a sequence of changes builds. -/
def build (virtualNodes : Nat) (ops : List RingOp) : ConsistentHashRing :=
  ops.foldl (apply hash) (new virtualNodes)

/-- Every owner of a virtual node is listed among the nodes, once. -/
structure WellFormed (routing : ConsistentHashRing) : Prop where
  nodup : routing.nodes.Nodup
  listed : ∀ entry, entry ∈ routing.ring → entry.2 ∈ routing.nodes

/-- The owners clockwise from the hash of a key, each where it is met first. -/
def clockwise (self : ConsistentHashRing) (key : String) : List String :=
  ((self.range (hash key) ++ self.ring).map Prod.snd).eraseDups

variable {hash}

/-! ## Rings that are built -/

theorem mem_insertAll {nodeId : String} {indices : List Nat}
    {entry : UInt64 × String} :
    ∀ {ring : VirtualNodes},
      entry ∈ insertAll hash nodeId indices ring →
      entry.2 = nodeId ∨ entry ∈ ring := by
  induction indices with
  | nil =>
      intro ring member
      exact Or.inr member
  | cons i rest inductionHypothesis =>
      intro ring member
      rcases inductionHypothesis member with own | inserted
      · exact Or.inl own
      · rcases mem_insertVnode inserted with here | old
        · exact Or.inl (by rw [here])
        · exact Or.inr old

namespace WellFormed

theorem new (virtualNodes : Nat) : (new virtualNodes).WellFormed where
  nodup := List.nodup_nil
  listed := by
    intro entry member
    cases member

theorem addNode {self : ConsistentHashRing} (wellFormed : self.WellFormed)
    (nodeId : String) : (self.addNode hash nodeId).WellFormed := by
  simp only [ConsistentHashRing.addNode]
  split
  · exact wellFormed
  · rename_i isNew
    have absent : nodeId ∉ self.nodes := by
      intro member
      exact isNew (List.any_eq_true.mpr ⟨nodeId, member, beq_self_eq_true _⟩)
    constructor
    · rw [← List.concat_eq_append]
      exact wellFormed.nodup.concat absent
    · intro entry member
      rcases mem_insertAll member with own | old
      · rw [own]
        exact List.mem_append_right _ List.mem_cons_self
      · exact List.mem_append_left _ (wellFormed.listed entry old)

theorem removeNode {self : ConsistentHashRing}
    (wellFormed : self.WellFormed) (nodeId : String) :
    (self.removeNode nodeId).WellFormed where
  nodup := wellFormed.nodup.filter _
  listed := by
    intro entry member
    obtain ⟨inRing, kept⟩ := List.mem_filter.mp member
    exact List.mem_filter.mpr ⟨wellFormed.listed entry inRing, kept⟩

theorem apply {self : ConsistentHashRing} (wellFormed : self.WellFormed)
    (op : RingOp) : (self.apply hash op).WellFormed := by
  cases op with
  | add nodeId => exact wellFormed.addNode nodeId
  | remove nodeId => exact wellFormed.removeNode nodeId

/-- Every ring that is built is well formed. -/
theorem build (virtualNodes : Nat) (ops : List RingOp) :
    (build hash virtualNodes ops).WellFormed := by
  induction ops using List.reverseRecOn with
  | nil => exact WellFormed.new virtualNodes
  | append_singleton ops op inductionHypothesis =>
      rw [ConsistentHashRing.build, List.foldl_append]
      exact inductionHypothesis.apply op

end WellFormed

/-! ## The walk -/

/-- When as many nodes are listed as there are, all are. -/
theorem mem_of_length_eq {nodes result : List String} (nodup : result.Nodup)
    (listed : ∀ node, node ∈ result → node ∈ nodes)
    (full : result.length = nodes.length) {node : String}
    (member : node ∈ nodes) : node ∈ result := by
  have subperm : result.Subperm nodes := nodup.subperm listed
  have perm : result.Perm nodes :=
    subperm.perm_of_length_le (Nat.le_of_eq full.symm)
  exact perm.mem_iff.mpr member

/-- The walk gives the first `count` distinct owners: its early exit is taken
only when no other owner is left. -/
theorem walk_eq_take {nodes : List String} (count : Nat) :
    ∀ (vnodes : VirtualNodes) {result : List String},
      result.Nodup →
      result.length < count →
      (∀ node, node ∈ result ++ vnodes.map Prod.snd → node ∈ nodes) →
      walk count nodes.length result vnodes =
        (result ++ vnodes.map Prod.snd).eraseDups.take count
  | [], result, nodup, short, listed => by
      rw [List.map_nil, List.append_nil, eraseDups_of_nodup nodup,
        List.take_of_length_le (Nat.le_of_lt short)]
      rfl
  | (position, node) :: rest, result, nodup, short, listed => by
      have resultListed (other : String) (member : other ∈ result) :
          other ∈ nodes :=
        listed other (List.mem_append_left _ member)
      have restListed (other : String) (member : other ∈ rest.map Prod.snd) :
          other ∈ nodes :=
        listed other
          (List.mem_append_right _ (List.mem_cons_of_mem _ member))
      have nodeListed : node ∈ nodes :=
        listed node (List.mem_append_right _ List.mem_cons_self)
      simp only [walk, List.map_cons]
      split
      · rename_i seen
        rw [eraseDups_append_cons_of_mem seen]
        split
        · rename_i full
          have nothingNew (other : String)
              (member : other ∈ rest.map Prod.snd) : other ∈ result :=
            mem_of_length_eq nodup resultListed full (restListed other member)
          rw [eraseDups_append_of_subset nothingNew, eraseDups_of_nodup nodup,
            List.take_of_length_le (Nat.le_of_lt short)]
        · apply walk_eq_take count rest nodup short
          intro other member
          rcases List.mem_append.mp member with old | new
          · exact resultListed other old
          · exact restListed other new
      · rename_i fresh
        have grownNodup : (result ++ [node]).Nodup := by
          rw [← List.concat_eq_append]
          exact nodup.concat fresh
        have grownListed (other : String) (member : other ∈ result ++ [node]) :
            other ∈ nodes := by
          rcases List.mem_append.mp member with old | new
          · exact resultListed other old
          · rw [List.mem_singleton.mp new]
            exact nodeListed
        have regroup : result ++ node :: rest.map Prod.snd =
            (result ++ [node]) ++ rest.map Prod.snd := by
          rw [List.append_assoc, List.singleton_append]
        rw [regroup]
        have length : (result ++ [node]).length = result.length + 1 := by
          simp
        split
        · rename_i enough
          have reached : (result ++ [node]).length = count := by omega
          have first := eraseDups_prefix (result ++ [node]) (rest.map Prod.snd)
          rw [eraseDups_of_nodup grownNodup] at first
          rw [← reached]
          exact List.prefix_iff_eq_take.mp first
        · rename_i notEnough
          split
          · rename_i full
            have nothingNew (other : String)
                (member : other ∈ rest.map Prod.snd) :
                other ∈ result ++ [node] :=
              mem_of_length_eq grownNodup grownListed full
                (restListed other member)
            rw [eraseDups_append_of_subset nothingNew,
              eraseDups_of_nodup grownNodup, List.take_of_length_le]
            omega
          · apply walk_eq_take count rest grownNodup (by omega)
            intro other member
            rcases List.mem_append.mp member with old | new
            · exact grownListed other old
            · exact restListed other new

/-- `get_nodes` gives the first owners clockwise. -/
theorem WellFormed.getNodes_eq {self : ConsistentHashRing}
    (wellFormed : self.WellFormed) (key : String) (count : Nat) :
    self.getNodes hash key count = (self.clockwise hash key).take count := by
  simp only [getNodes]
  split
  · rename_i trivially
    rcases Bool.or_eq_true_iff.mp trivially with empty | none
    · have noVnodes : self.ring = [] := List.isEmpty_iff.mp empty
      simp [clockwise, range, noVnodes]
    · rw [beq_iff_eq] at none
      rw [none, List.take_zero]
  · rename_i notTrivial
    have positive : 0 < count := by
      simp only [Bool.or_eq_true, not_or, beq_iff_eq] at notTrivial
      exact Nat.pos_of_ne_zero notTrivial.2
    apply walk_eq_take count _ List.nodup_nil positive
    intro node member
    rw [List.nil_append] at member
    obtain ⟨entry, inChain, rfl⟩ := List.mem_map.mp member
    apply wellFormed.listed entry
    rcases List.mem_append.mp inChain with inRange | inRing
    · exact (List.mem_filter.mp inRange).1
    · exact inRing

/-! ## Redistribution -/

/-- The owners of the virtual nodes without those of one node. -/
theorem map_filter_owner (vnodes : VirtualNodes) (nodeId : String) :
    (vnodes.filter (fun entry => entry.2 != nodeId)).map Prod.snd =
      (vnodes.map Prod.snd).filter (· != nodeId) := by
  rw [List.filter_map]
  rfl

/-- When two rings differ by the virtual nodes of one node, so do the orders. -/
theorem clockwise_of_filter {self other : ConsistentHashRing} {nodeId : String}
    (same :
      self.ring.filter (fun entry => entry.2 != nodeId) = other.ring)
    (key : String) :
    other.clockwise hash key =
      (self.clockwise hash key).filter (· != nodeId) := by
  have rangeSame : other.range (hash key) =
      (self.range (hash key)).filter (fun entry => entry.2 != nodeId) := by
    simp only [range, ← same, List.filter_filter, Bool.and_comm]
  simp only [clockwise]
  rw [filter_eraseDups, ← map_filter_owner, List.filter_append, ← rangeSame,
    same]

theorem clockwise_removeNode (self : ConsistentHashRing) (nodeId key : String) :
    (self.removeNode nodeId).clockwise hash key =
      (self.clockwise hash key).filter (· != nodeId) :=
  clockwise_of_filter rfl key

/-- An insertion at a position that no other node occupies leaves the virtual
nodes of the others as they are. -/
theorem filter_insertVnode {ring : VirtualNodes} {position : UInt64}
    {nodeId : String}
    (unoccupied : ∀ entry, entry ∈ ring →
      entry.2 ≠ nodeId → entry.1 ≠ position) :
    (insertVnode position nodeId ring).filter
        (fun entry => entry.2 != nodeId) =
      ring.filter (fun entry => entry.2 != nodeId) := by
  induction ring with
  | nil => simp [insertVnode]
  | cons head tail inductionHypothesis =>
      obtain ⟨other, owner⟩ := head
      have tailUnoccupied (entry : UInt64 × String) (member : entry ∈ tail)
          (notOwn : entry.2 ≠ nodeId) : entry.1 ≠ position :=
        unoccupied entry (List.mem_cons_of_mem _ member) notOwn
      simp only [insertVnode]
      split
      · simp
      · split
        · rename_i same
          have own : owner = nodeId := by
            by_contra notOwn
            exact unoccupied (other, owner) List.mem_cons_self notOwn same.symm
          simp [own]
        · by_cases own : owner = nodeId
          · simp [own, inductionHypothesis tailUnoccupied]
          · simp [own, inductionHypothesis tailUnoccupied]

theorem filter_insertAll {nodeId : String} {indices : List Nat} :
    ∀ {ring : VirtualNodes},
      (∀ i, i ∈ indices → ∀ entry, entry ∈ ring →
        entry.2 ≠ nodeId → entry.1 ≠ hash (vnodeKey nodeId i)) →
      (insertAll hash nodeId indices ring).filter
          (fun entry => entry.2 != nodeId) =
        ring.filter (fun entry => entry.2 != nodeId) := by
  induction indices with
  | nil =>
      intro ring _
      rfl
  | cons i rest inductionHypothesis =>
      intro ring unoccupied
      have here := filter_insertVnode (unoccupied i List.mem_cons_self)
      rw [← here]
      apply inductionHypothesis
      intro j member entry inserted notOwn
      rcases mem_insertVnode inserted with own | old
      · exact absurd (by rw [own]) notOwn
      · exact unoccupied j (List.mem_cons_of_mem _ member) entry old notOwn

/-- No virtual node of the ring is where the new node puts one of its own. -/
def Unoccupied (hash : String → UInt64) (self : ConsistentHashRing)
    (nodeId : String) : Prop :=
  ∀ i, i < self.virtualNodes →
    ∀ entry, entry ∈ self.ring → entry.1 ≠ hash (vnodeKey nodeId i)

instance (self : ConsistentHashRing) (nodeId : String) :
    Decidable (self.Unoccupied hash nodeId) :=
  inferInstanceAs (Decidable (∀ i, i < self.virtualNodes →
    ∀ entry, entry ∈ self.ring → entry.1 ≠ hash (vnodeKey nodeId i)))

theorem clockwise_addNode {self : ConsistentHashRing}
    (wellFormed : self.WellFormed) {nodeId : String}
    (isNew : nodeId ∉ self.nodes) (unoccupied : self.Unoccupied hash nodeId)
    (key : String) :
    self.clockwise hash key =
      ((self.addNode hash nodeId).clockwise hash key).filter
        (· != nodeId) := by
  apply clockwise_of_filter
  have added : (self.addNode hash nodeId).ring =
      insertAll hash nodeId (List.range self.virtualNodes) self.ring := by
    have absent : self.nodes.any (· == nodeId) = false := by
      apply List.any_eq_false.mpr
      intro other member same
      rw [beq_iff_eq] at same
      exact isNew (same ▸ member)
    simp [addNode, absent]
  rw [added, filter_insertAll]
  · apply List.filter_eq_self.mpr
    intro entry member
    rw [bne_iff_ne]
    intro own
    exact isNew (own ▸ wellFormed.listed entry member)
  · intro i member entry inRing _
    exact unoccupied i (List.mem_range.mp member) entry inRing

/-- `get_node` is the first of `get_nodes`. -/
theorem getNode_eq_head? {self : ConsistentHashRing}
    (wellFormed : self.WellFormed) (key : String) :
    self.getNode hash key = (self.getNodes hash key 1).head? := by
  rw [wellFormed.getNodes_eq]
  simp only [getNode, clockwise, List.head?_take]
  split
  · rename_i empty
    have noVnodes : self.ring = [] := List.isEmpty_iff.mp empty
    simp [range, noVnodes]
  · cases inRange : self.range (hash key) with
    | nil =>
        cases self.ring with
        | nil => rfl
        | cons head tail => simp [List.eraseDups_cons]
    | cons head tail => simp [List.eraseDups_cons]

/-- Redistribution is minimal on every ring that is built, for a count of nodes
that a vector has room for.  Removing a node gives each key the next node of its
order, and only keys that the node served lose a replica.  Adding a node, if its
positions are free, takes at most one replica from a key, and a key changes its
owner only to the new node. -/
theorem redistribution_minimal (hash : String → UInt64) (virtualNodes : Nat)
    (ops : List RingOp) (key : String) (count : Nat)
    (hasRoom : count < 2 ^ 59) :
    let routing := build hash virtualNodes ops
    ∃ previous,
      routing.getNodes? hash key count = some previous ∧
        (∀ nodeId, nodeId ∈ routing.nodes →
          (count + 1 < 2 ^ 59 →
            ∃ longer,
              routing.getNodes? hash key (count + 1) = some longer ∧
                (routing.removeNode nodeId).getNodes? hash key count =
                  some ((longer.erase nodeId).take count)) ∧
            (nodeId ∉ previous →
              (routing.removeNode nodeId).getNodes? hash key count =
                some previous)) ∧
        ∀ nodeId, nodeId ∉ routing.nodes →
          routing.Unoccupied hash nodeId →
          let grown := routing.addNode hash nodeId
          ∃ replicas,
            grown.getNodes? hash key count = some replicas ∧
              replicas.erase nodeId <+: previous ∧
              previous.length ≤ (replicas.erase nodeId).length + 1 ∧
              (grown.getNode hash key = routing.getNode hash key ∨
                grown.getNode hash key = some nodeId) := by
  intro routing
  have wellFormed : routing.WellFormed := WellFormed.build virtualNodes ops
  refine ⟨_, getNodes?_of_lt hasRoom, ?_, ?_⟩
  · intro nodeId _
    have removed := wellFormed.removeNode nodeId
    have nodup : (routing.clockwise hash key).Nodup := nodup_eraseDups _
    rw [getNodes?_of_lt hasRoom, removed.getNodes_eq, wellFormed.getNodes_eq,
      clockwise_removeNode]
    refine ⟨fun roomForOneMore => ⟨_, getNodes?_of_lt roomForOneMore, ?_⟩, ?_⟩
    · rw [wellFormed.getNodes_eq, take_filter_ne nodup nodeId count]
    · intro notServed
      rw [take_filter_ne_of_not_mem notServed]
  · intro nodeId isNew unoccupied grown
    have grownWellFormed : grown.WellFormed := wellFormed.addNode nodeId
    have nodup : (grown.clockwise hash key).Nodup := nodup_eraseDups _
    have order : routing.clockwise hash key =
        (grown.clockwise hash key).filter (· != nodeId) :=
      clockwise_addNode wellFormed isNew unoccupied key
    refine ⟨_, getNodes?_of_lt hasRoom, ?_, ?_, ?_⟩
    · rw [grownWellFormed.getNodes_eq, wellFormed.getNodes_eq, order]
      exact erase_take_prefix nodup nodeId count
    · rw [grownWellFormed.getNodes_eq, wellFormed.getNodes_eq, order]
      exact length_take_filter_ne_le nodup nodeId count
    · rw [getNode_eq_head? grownWellFormed, getNode_eq_head? wellFormed,
        grownWellFormed.getNodes_eq, wellFormed.getNodes_eq, order]
      cases owners : grown.clockwise hash key with
      | nil => exact Or.inl rfl
      | cons owner others =>
          by_cases own : owner = nodeId
          · subst own
            exact Or.inr rfl
          · refine Or.inl ?_
            simp [own]

/-- A ring on which the position of a text is its length. -/
def ringByLength (nodes : List String) : ConsistentHashRing :=
  build (fun text => UInt64.ofNat text.length) 1 (nodes.map .add)

/-- Of the nodes `a` and `bb`, the first is removed, or `ccc` is added. -/
theorem redistribution_minimal_two_nodes :
    (∃ longer,
      (ringByLength ["a", "bb"]).getNodes?
          (fun text => UInt64.ofNat text.length) "k" 2 = some longer ∧
        ((ringByLength ["a", "bb"]).removeNode "a").getNodes?
            (fun text => UInt64.ofNat text.length) "k" 1 =
          some ((longer.erase "a").take 1)) ∧
      ∃ previous replicas,
        (ringByLength ["a", "bb"]).getNodes?
            (fun text => UInt64.ofNat text.length) "k" 1 = some previous ∧
          ((ringByLength ["a", "bb"]).addNode
            (fun text => UInt64.ofNat text.length) "ccc").getNodes?
              (fun text => UInt64.ofNat text.length) "k" 1 = some replicas ∧
          replicas.erase "ccc" <+: previous := by
  obtain ⟨previous, given, removal, addition⟩ :=
    redistribution_minimal (fun text => UInt64.ofNat text.length) 1
      (["a", "bb"].map .add) "k" 1 (by decide)
  obtain ⟨replicas, givenLater, isPrefix, _⟩ :=
    addition "ccc" (by decide) (by decide)
  exact
    ⟨(removal "a" (by decide)).1 (by decide),
      previous, replicas, given, givenLater, isPrefix⟩

/-- One node, and a count that no vector has room for. -/
theorem redistribution_beyond_capacity :
    ¬ ∀ (hash : String → UInt64) (virtualNodes : Nat) (ops : List RingOp)
        (key nodeId : String) (count : Nat),
      nodeId ∈ (build hash virtualNodes ops).nodes →
      ∃ longer,
        (build hash virtualNodes ops).getNodes? hash key (count + 1) =
            some longer ∧
          ((build hash virtualNodes ops).removeNode nodeId).getNodes? hash key
              count =
            some ((longer.erase nodeId).take count) := by
  intro minimal
  obtain ⟨longer, given, _⟩ :=
    minimal (fun _ => 0) 1 [.add "a"] "k" "a" (2 ^ 59 - 1) (by decide)
  rw [getNodes?_eq, if_neg (by decide)] at given
  cases given

end ConsistentHashRing

end HautePerformance.KvDistributed
