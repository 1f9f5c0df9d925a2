import HautePerformance.Library.RoundReading
import HautePerformance.KvDistributed.RingRouting

/-!
# The preference list of a key

What `get_nodes` is for: the owners of the virtual nodes are read once round the
ring, from the first position at or after the hash of the key, and each is kept
where it is met first.  The loop visits the positions after the hash twice and
stops early, and gives the beginning of that list all the same.
-/

namespace HautePerformance.KvDistributed

open Library

namespace ConsistentHashRing

/-- The owners of the virtual nodes, once round the ring from the first position
at or after `h`. -/
def ownersFrom (self : ConsistentHashRing) (h : UInt64) : List String :=
  (self.ring.rotate
    (self.ring.findIdx fun entry => decide (h ≤ entry.1))).map Prod.snd

/-- The nodes that own a virtual node. -/
def owningNodes (self : ConsistentHashRing) : List String :=
  self.nodes.filter fun node => self.ring.any fun entry => entry.2 == node

theorem turnsTrue_of_increasing (self : ConsistentHashRing) (h : UInt64) :
    TurnsTrue (fun entry : UInt64 × String => decide (h ≤ entry.1))
      self.ring := by
  refine self.increasing.imp ?_
  intro left right before reached
  rw [decide_eq_true_eq] at reached ⊢
  exact UInt64.le_trans reached (UInt64.le_of_lt before)

/-- What the loop reads has the same first occurrences as one round. -/
theorem clockwise_eq (self : ConsistentHashRing) (hash : String → UInt64)
    (key : String) :
    self.clockwise hash key = (self.ownersFrom (hash key)).eraseDups :=
  eraseDups_round (self.turnsTrue_of_increasing (hash key)) Prod.snd

theorem mem_ownersFrom {self : ConsistentHashRing} {h : UInt64}
    {node : String} :
    node ∈ self.ownersFrom h ↔ ∃ entry, entry ∈ self.ring ∧ entry.2 = node := by
  simp only [ownersFrom, List.mem_map, List.mem_rotate]

/-- The owners are listed as often as there are nodes that own a position. -/
theorem WellFormed.length_preferences {self : ConsistentHashRing}
    (wellFormed : self.WellFormed) (h : UInt64) :
    (self.ownersFrom h).eraseDups.length = self.owningNodes.length := by
  have sameMembers (node : String) :
      node ∈ (self.ownersFrom h).eraseDups ↔ node ∈ self.owningNodes := by
    rw [List.mem_eraseDups, mem_ownersFrom, owningNodes, List.mem_filter,
      List.any_eq_true]
    constructor
    · rintro ⟨entry, inRing, rfl⟩
      exact ⟨wellFormed.listed entry inRing, entry, inRing,
        beq_self_eq_true _⟩
    · rintro ⟨_, entry, inRing, owns⟩
      exact ⟨entry, inRing, beq_iff_eq.mp owns⟩
  have nodup : self.owningNodes.Nodup := wellFormed.nodup.filter _
  exact ((List.perm_ext_iff_of_nodup (nodup_eraseDups _) nodup).mpr
    sameMembers).length_eq

/-- On every ring that is built `get_nodes` gives the first `count` nodes of the
preference list: distinct nodes, as many as there are up to `count`, and the node
of `get_node` first.  It panics when no vector has room for `count` nodes and the
ring is not empty. -/
theorem preferenceList (hash : String → UInt64) (virtualNodes : Nat)
    (ops : List RingOp) (key : String) (count : Nat) :
    let routing := build hash virtualNodes ops
    let replicas := (routing.ownersFrom (hash key)).eraseDups.take count
    routing.getNodes? hash key count =
        (if routing.ring = [] ∨ count < 2 ^ 59 then some replicas else none) ∧
      replicas.Nodup ∧
      replicas.length = min count routing.owningNodes.length ∧
      replicas ⊆ routing.nodes ∧
      replicas.head? =
        if count = 0 then none else routing.getNode hash key := by
  intro routing replicas
  have wellFormed : routing.WellFormed := WellFormed.build virtualNodes ops
  have isFirst : routing.getNodes hash key count = replicas := by
    rw [wellFormed.getNodes_eq, clockwise_eq]
  refine ⟨?_, ?_, ?_, ?_, ?_⟩
  · rw [getNodes?_eq, isFirst]
  · rw [← isFirst]
    exact nodup_getNodes hash routing key count
  · rw [List.length_take, wellFormed.length_preferences]
  · intro node member
    rw [← isFirst] at member
    obtain ⟨position, inRing⟩ := mem_getNodes member
    exact wellFormed.listed _ inRing
  · rw [List.head?_take, getNode_eq_head? wellFormed,
      wellFormed.getNodes_eq, clockwise_eq, List.head?_take]
    simp

/-- One node, and a count that no vector has room for. -/
theorem preferenceList_beyond_capacity :
    ¬ ∀ (hash : String → UInt64) (virtualNodes : Nat) (ops : List RingOp)
        (key : String) (count : Nat),
      (build hash virtualNodes ops).getNodes? hash key count =
        some
          (((build hash virtualNodes ops).ownersFrom
            (hash key)).eraseDups.take count) := by
  intro preferred
  have given := preferred (fun _ => 0) 1 [.add "a"] "k" (2 ^ 59)
  rw [getNodes?_eq, if_neg (by decide)] at given
  cases given

/-- Three nodes whose positions are the lengths of the texts they hash: the walk
from the end of the ring goes on at its start. -/
example :
    (ringByLength ["a", "bb", "ccc"]).getNodes
        (fun text => UInt64.ofNat text.length) "0123456789" 5 =
      ["bb", "ccc", "a"] := by
  decide

end ConsistentHashRing

end HautePerformance.KvDistributed
