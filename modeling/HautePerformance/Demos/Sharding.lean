import HautePerformance.KvDistributed.RingMembership
import HautePerformance.Library.EntryMerge

/-!
# Sharding by consistent hashing

The ring of `demo_3_3a_consistent_hashing.rs`, which places `virtual_nodes`
points a node and has no list of its members.  A key belongs to the point that is
nearest clockwise from its hash.  What a change of the ring moves is read off
that, whatever the hash is and whether or not points collide.
-/

namespace HautePerformance.Demos.Sharding

open Library
open KvDistributed (VirtualNodes Increasing insertVnode mem_insertVnode_iff)
open KvDistributed.ConsistentHashRing (eq_of_increasing)

structure ConsistentHash where
  ring : VirtualNodes
  virtualNodes : Nat
  increasing : Increasing ring

/-- `format!("{node}#{i}")`. -/
def vkey (node : String) (i : Nat) : String :=
  node ++ "#" ++ toString i

/-- The loop of `add_node`, over the positions of the points. -/
def insertPoints (node : String) : List UInt64 → VirtualNodes → VirtualNodes
  | [], ring => ring
  | position :: rest, ring =>
      insertPoints node rest (insertVnode position node ring)

theorem increasing_nil : Increasing ([] : VirtualNodes) :=
  List.Pairwise.nil

theorem increasing_insertPoints (node : String) (positions : List UInt64) :
    ∀ {ring : VirtualNodes},
      Increasing ring → Increasing (insertPoints node positions ring) := by
  induction positions with
  | nil =>
      intro ring increasing
      exact increasing
  | cons position rest inductionHypothesis =>
      intro ring increasing
      exact inductionHypothesis (increasing.insertVnode position node)

theorem mem_insertPoints_iff {node : String} {positions : List UInt64}
    {entry : UInt64 × String} :
    ∀ {ring : VirtualNodes},
      Increasing ring →
      (entry ∈ insertPoints node positions ring ↔
        entry.2 = node ∧ entry.1 ∈ positions ∨
          entry ∈ ring ∧ entry.1 ∉ positions) := by
  induction positions with
  | nil =>
      intro ring _
      simp [insertPoints]
  | cons position rest inductionHypothesis =>
      intro ring increasing
      rw [insertPoints, inductionHypothesis (increasing.insertVnode position node),
        mem_insertVnode_iff increasing, List.mem_cons, Prod.ext_iff]
      by_cases later : entry.1 ∈ rest
      · simp [later]
      · by_cases here : entry.1 = position
        · rw [here] at later ⊢
          simp [later]
        · simp [later, here]

namespace ConsistentHash

variable (hash : String → UInt64)

/-- `ConsistentHash::new`. -/
def new (virtualNodes : Nat) : ConsistentHash where
  ring := []
  virtualNodes := virtualNodes
  increasing := increasing_nil

/-- Where `add_node` puts the points of a node. -/
def positions (self : ConsistentHash) (node : String) : List UInt64 :=
  (List.range self.virtualNodes).map fun i => hash (vkey node i)

/-- `ConsistentHash::add_node`. -/
def addNode (self : ConsistentHash) (node : String) : ConsistentHash where
  ring := insertPoints node (self.positions hash node) self.ring
  virtualNodes := self.virtualNodes
  increasing := increasing_insertPoints node _ self.increasing

/-- `ConsistentHash::remove_node`. -/
def removeNode (self : ConsistentHash) (node : String) : ConsistentHash where
  ring := self.ring.filter fun entry => entry.2 != node
  virtualNodes := self.virtualNodes
  increasing := self.increasing.filter _

/-- The first point of `range(h..)`, else the first point of all. -/
def next (self : ConsistentHash) (h : UInt64) : Option (UInt64 × String) :=
  (self.ring.filter fun entry => decide (h ≤ entry.1)).head?.or self.ring.head?

/-- `ConsistentHash::get_node`. -/
def getNode (self : ConsistentHash) (key : String) : Option String :=
  if self.ring.isEmpty then
    none
  else
    (self.next (hash key)).map Prod.snd

/-- `distribution`: how many keys are routed to each node. -/
def distribution (self : ConsistentHash) (keys : List String) :
    AList fun _ : String => Nat :=
  keys.foldl
    (fun counts key =>
      match self.getNode hash key with
      | some node => counts.insert node (valueAt 0 counts node + 1)
      | none => counts)
    ∅

/-- `moved_ch` and `moved_rm` of `main`: the keys that are routed to another node
than before. -/
def moved (before after : ConsistentHash) (keys : List String) : Nat :=
  (keys.filter fun key => after.getNode hash key != before.getNode hash key).length

/-! ## The nearest point -/

/-- No point of the ring is nearer, going clockwise from `h`.  The subtraction
wraps around as the ring does. -/
def Nearest (h : UInt64) (ring : VirtualNodes) (entry : UInt64 × String) : Prop :=
  entry ∈ ring ∧ ∀ other, other ∈ ring → entry.1 - h ≤ other.1 - h

theorem clockwise_iff {h first second : UInt64} :
    first - h ≤ second - h ↔
      h ≤ first ∧ second < h ∨ (h ≤ first ↔ h ≤ second) ∧ first ≤ second := by
  have := first.toNat_lt
  have := second.toNat_lt
  have := h.toNat_lt
  simp only [UInt64.le_iff_toNat_le, UInt64.lt_iff_toNat_lt, UInt64.toNat_sub]
  omega

variable {hash}

/-- A position has one owner. -/
theorem eq_of_position {ring : VirtualNodes} (increasing : Increasing ring)
    {first second : UInt64 × String} (firstInside : first ∈ ring)
    (secondInside : second ∈ ring) (same : first.1 = second.1) :
    first = second := by
  induction ring with
  | nil => cases firstInside
  | cons head tail inductionHypothesis =>
      obtain ⟨headBelow, tailIncreasing⟩ := List.pairwise_cons.mp increasing
      rcases List.mem_cons.mp firstInside with rfl | firstLater
      · rcases List.mem_cons.mp secondInside with here | secondLater
        · exact here.symm
        · exact absurd same (UInt64.ne_of_lt (headBelow second secondLater))
      · rcases List.mem_cons.mp secondInside with rfl | secondLater
        · exact absurd same.symm (UInt64.ne_of_lt (headBelow first firstLater))
        · exact inductionHypothesis tailIncreasing firstLater secondLater

theorem Nearest.unique {h : UInt64} {ring : VirtualNodes}
    (increasing : Increasing ring) {first second : UInt64 × String}
    (left : Nearest h ring first) (right : Nearest h ring second) :
    first = second := by
  apply eq_of_position increasing left.1 right.1
  have sameDistance : first.1 - h = second.1 - h :=
    UInt64.le_antisymm (left.2 second right.1) (right.2 first left.1)
  simpa using congrArg (· + h) sameDistance

theorem nearest_of_next {self : ConsistentHash} {h : UInt64}
    {entry : UInt64 × String} (found : self.next h = some entry) :
    Nearest h self.ring entry := by
  unfold next at found
  cases above : self.ring.filter fun entry => decide (h ≤ entry.1) with
  | cons head tail =>
      -- Some point lies at or after `h`: the first of these comes first.
      rw [above, List.head?_cons, Option.some_or, Option.some.injEq] at found
      subst found
      have member : head ∈ self.ring.filter fun entry => decide (h ≤ entry.1) :=
        above ▸ List.mem_cons_self
      obtain ⟨inside, after⟩ := List.mem_filter.mp member
      refine ⟨inside, fun other otherInside => clockwise_iff.mpr ?_⟩
      by_cases otherAfter : h ≤ other.1
      · have inAbove : other ∈ head :: tail :=
          above ▸ List.mem_filter.mpr ⟨otherInside, decide_eq_true otherAfter⟩
        have sorted : Increasing (head :: tail) :=
          above ▸ self.increasing.filter _
        refine Or.inr ⟨iff_of_true (of_decide_eq_true after) otherAfter, ?_⟩
        rcases List.mem_cons.mp inAbove with here | later
        · rw [here]
          exact UInt64.le_refl _
        · exact UInt64.le_of_lt ((List.pairwise_cons.mp sorted).1 other later)
      · exact Or.inl ⟨of_decide_eq_true after, UInt64.not_le.mp otherAfter⟩
  | nil =>
      -- All points lie before `h`, so the first one of all comes first.
      rw [above, List.head?_nil, Option.none_or] at found
      obtain ⟨rest, shape⟩ := List.head?_eq_some_iff.mp found
      have before (other : UInt64 × String) (inside : other ∈ self.ring) :
          ¬h ≤ other.1 := by
        intro after
        have member : other ∈ self.ring.filter fun entry => decide (h ≤ entry.1) :=
          List.mem_filter.mpr ⟨inside, decide_eq_true after⟩
        rw [above] at member
        cases member
      have inside : entry ∈ self.ring := shape ▸ List.mem_cons_self
      refine ⟨inside, fun other otherInside => clockwise_iff.mpr (Or.inr ?_)⟩
      refine ⟨iff_of_false (before entry inside) (before other otherInside), ?_⟩
      have sorted : Increasing (entry :: rest) := shape ▸ self.increasing
      rw [shape] at otherInside
      rcases List.mem_cons.mp otherInside with here | later
      · rw [here]
        exact UInt64.le_refl _
      · exact UInt64.le_of_lt ((List.pairwise_cons.mp sorted).1 other later)

theorem next_isSome {self : ConsistentHash} {entry : UInt64 × String}
    (inside : entry ∈ self.ring) (h : UInt64) : (self.next h).isSome := by
  have first : self.ring.head?.isSome :=
    List.isSome_head?.mpr (List.ne_nil_of_mem inside)
  rw [next, Option.isSome_or, first, Bool.or_true]

/-- A key goes to the owner of the nearest point. -/
theorem getNode_eq_some_iff {self : ConsistentHash} {key node : String} :
    self.getNode hash key = some node ↔
      ∃ position, Nearest (hash key) self.ring (position, node) := by
  unfold getNode
  constructor
  · intro found
    split at found
    · cases found
    · obtain ⟨entry, first, rfl⟩ := Option.map_eq_some_iff.mp found
      exact ⟨entry.1, nearest_of_next first⟩
  · rintro ⟨position, nearest⟩
    obtain ⟨entry, found⟩ :=
      Option.isSome_iff_exists.mp (next_isSome nearest.1 (hash key))
    have same : entry = (position, node) :=
      (nearest_of_next found).unique self.increasing nearest
    have nonempty : self.ring.isEmpty = false :=
      List.isEmpty_eq_false_iff_exists_mem.mpr ⟨_, nearest.1⟩
    rw [nonempty, found, same]
    rfl

theorem getNode_eq_none_iff {self : ConsistentHash} {key : String} :
    self.getNode hash key = none ↔ self.ring = [] := by
  unfold getNode
  constructor
  · intro missing
    by_contra nonempty
    obtain ⟨entry, inside⟩ := List.exists_mem_of_ne_nil _ nonempty
    rw [if_neg (by simpa using nonempty), Option.map_eq_none_iff] at missing
    have found := next_isSome inside (hash key)
    rw [missing] at found
    cases found
  · intro empty
    simp [empty]

/-! ## The keys that move -/

/-- Some point of the node would be the nearest of the ring. -/
def Captures (hash : String → UInt64) (self : ConsistentHash)
    (node key : String) : Prop :=
  ∃ position, position ∈ self.positions hash node ∧
    ∀ entry, entry ∈ self.ring → position - hash key ≤ entry.1 - hash key

instance (self : ConsistentHash) (node key : String) :
    Decidable (self.Captures hash node key) :=
  inferInstanceAs (Decidable (∃ position, position ∈ self.positions hash node ∧
    ∀ entry, entry ∈ self.ring → position - hash key ≤ entry.1 - hash key))

theorem mem_addNode_iff {self : ConsistentHash} {node : String}
    {entry : UInt64 × String} :
    entry ∈ (self.addNode hash node).ring ↔
      entry.2 = node ∧ entry.1 ∈ self.positions hash node ∨
        entry ∈ self.ring ∧ entry.1 ∉ self.positions hash node :=
  mem_insertPoints_iff self.increasing

/-- The nearest of finitely many positions. -/
theorem exists_nearest_position (h : UInt64) :
    ∀ {positions : List UInt64}, positions ≠ [] →
      ∃ best, best ∈ positions ∧
        ∀ other, other ∈ positions → best - h ≤ other - h
  | [], nonempty => absurd rfl nonempty
  | [only], _ => ⟨only, List.mem_cons_self, fun other member => by
      rw [List.mem_singleton.mp member]
      exact UInt64.le_refl _⟩
  | first :: second :: rest, _ => by
      obtain ⟨best, inside, least⟩ :=
        exists_nearest_position h (List.cons_ne_nil second rest)
      rcases UInt64.le_total (first - h) (best - h) with below | above
      · refine ⟨first, List.mem_cons_self, fun other member => ?_⟩
        rcases List.mem_cons.mp member with here | later
        · rw [here]
          exact UInt64.le_refl _
        · exact UInt64.le_trans below (least other later)
      · refine ⟨best, List.mem_cons_of_mem _ inside, fun other member => ?_⟩
        rcases List.mem_cons.mp member with here | later
        · rw [here]
          exact above
        · exact least other later

/-- A key that the node captures goes to it. -/
theorem getNode_addNode_of_captures {self : ConsistentHash} {node key : String}
    (captures : self.Captures hash node key) :
    (self.addNode hash node).getNode hash key = some node := by
  obtain ⟨position, inPositions, nearer⟩ := captures
  obtain ⟨best, bestInside, least⟩ := exists_nearest_position (hash key)
    (List.ne_nil_of_mem inPositions)
  refine getNode_eq_some_iff.mpr ⟨best, ?_, ?_⟩
  · exact mem_addNode_iff.mpr (Or.inl ⟨rfl, bestInside⟩)
  · intro other member
    rcases mem_addNode_iff.mp member with ⟨_, own⟩ | ⟨old, _⟩
    · exact least other.1 own
    · exact UInt64.le_trans (least position inPositions) (nearer other old)

/-- Any other key stays, as its nearest point is nearer than those of the node
and hence none of them. -/
theorem getNode_addNode_of_not_captures {self : ConsistentHash}
    {node key : String} (spared : ¬self.Captures hash node key) :
    (self.addNode hash node).getNode hash key = self.getNode hash key := by
  have nearer {entry : UInt64 × String}
      (nearest : Nearest (hash key) self.ring entry) (position : UInt64)
      (member : position ∈ self.positions hash node) :
      entry.1 - hash key < position - hash key := by
    refine UInt64.not_le.mp fun below => spared ⟨position, member, ?_⟩
    exact fun other inside => UInt64.le_trans below (nearest.2 other inside)
  cases before : self.getNode hash key with
  | none =>
      have empty : self.ring = [] := getNode_eq_none_iff.mp before
      rw [getNode_eq_none_iff, List.eq_nil_iff_forall_not_mem]
      intro entry member
      rcases mem_addNode_iff.mp member with ⟨_, own⟩ | ⟨old, _⟩
      · refine spared ⟨entry.1, own, fun other inside => ?_⟩
        rw [empty] at inside
        cases inside
      · rw [empty] at old
        cases old
  | some owner =>
      obtain ⟨position, nearest⟩ := getNode_eq_some_iff.mp before
      have notOwn : position ∉ self.positions hash node := fun own =>
        UInt64.lt_irrefl _ (nearer nearest position own)
      refine getNode_eq_some_iff.mpr ⟨position, ?_, ?_⟩
      · exact mem_addNode_iff.mpr (Or.inr ⟨nearest.1, notOwn⟩)
      · intro other member
        rcases mem_addNode_iff.mp member with ⟨_, own⟩ | ⟨old, _⟩
        · exact UInt64.le_of_lt (nearer nearest other.1 own)
        · exact nearest.2 other old

/-- The keys of the other nodes keep their nearest point. -/
theorem getNode_removeNode {self : ConsistentHash} {node key : String}
    (elsewhere : self.getNode hash key ≠ some node) :
    (self.removeNode node).getNode hash key = self.getNode hash key := by
  cases before : self.getNode hash key with
  | none =>
      have empty : self.ring = [] := getNode_eq_none_iff.mp before
      refine getNode_eq_none_iff.mpr (List.eq_nil_iff_forall_not_mem.mpr ?_)
      intro entry member
      have inside : entry ∈ self.ring := (List.mem_filter.mp member).1
      rw [empty] at inside
      cases inside
  | some owner =>
      obtain ⟨position, nearest⟩ := getNode_eq_some_iff.mp before
      have different : owner ≠ node := fun same =>
        elsewhere (before.trans (congrArg some same))
      refine getNode_eq_some_iff.mpr ⟨position, ?_, ?_⟩
      · exact List.mem_filter.mpr ⟨nearest.1, by simpa using different⟩
      · intro other member
        exact nearest.2 other (List.mem_filter.mp member).1

theorem getNode_removeNode_ne {self : ConsistentHash} {node key : String} :
    (self.removeNode node).getNode hash key ≠ some node := by
  intro found
  obtain ⟨position, nearest⟩ := getNode_eq_some_iff.mp found
  simpa using (List.mem_filter.mp nearest.1).2

/-! ## The distribution -/

theorem distribution_append (self : ConsistentHash) (front : List String)
    (key : String) :
    self.distribution hash (front ++ [key]) =
      match self.getNode hash key with
      | some node =>
          (self.distribution hash front).insert node
            (valueAt 0 (self.distribution hash front) node + 1)
      | none => self.distribution hash front := by
  rw [distribution, List.foldl_append]
  rfl

theorem valueAt_distribution (self : ConsistentHash) (keys : List String)
    (node : String) :
    valueAt 0 (self.distribution hash keys) node =
      keys.countP fun key => self.getNode hash key == some node := by
  induction keys using List.reverseRecOn with
  | nil => rfl
  | append_singleton front key inductionHypothesis =>
      rw [distribution_append, List.countP_append, ← inductionHypothesis]
      cases routed : self.getNode hash key with
      | none => simp [routed]
      | some owner =>
          by_cases same : owner = node
          · subst same
            simp [routed]
          · simp [routed, same, valueAt_insert_ne (Ne.symm same)]

theorem countP_eq_add {Item : Type} {all first second : Item → Bool}
    {items : List Item}
    (split : ∀ item, (all item).toNat = (first item).toNat + (second item).toNat) :
    items.countP all = items.countP first + items.countP second := by
  induction items with
  | nil => rfl
  | cons item rest inductionHypothesis =>
      have counted (test : Item → Bool) :
          (item :: rest).countP test = (test item).toNat + rest.countP test := by
        rw [List.countP_cons, Nat.add_comm]
        cases test item <;> rfl
      rw [counted, counted, counted, split item, inductionHypothesis]
      omega

/-- What a joining node gets is what moves, and the others get nothing: a key
moves only to the new node, and it does exactly when one of the points of that
node is nearer than all others, whatever the hash is. -/
theorem keys_moved_by_add (hash : String → UInt64) (self : ConsistentHash)
    (node : String) (keys : List String) :
    (∀ key, (self.addNode hash node).getNode hash key =
      if self.Captures hash node key then some node
      else self.getNode hash key) ∧
    valueAt 0 ((self.addNode hash node).distribution hash keys) node =
      valueAt 0 (self.distribution hash keys) node +
        moved hash self (self.addNode hash node) keys ∧
    ∀ other, other ≠ node →
      valueAt 0 ((self.addNode hash node).distribution hash keys) other ≤
        valueAt 0 (self.distribution hash keys) other := by
  have routed (key : String) : (self.addNode hash node).getNode hash key =
      if self.Captures hash node key then some node
      else self.getNode hash key := by
    split
    · rename_i captures
      exact getNode_addNode_of_captures captures
    · rename_i spared
      exact getNode_addNode_of_not_captures spared
  refine ⟨routed, ?_, ?_⟩
  · rw [valueAt_distribution, valueAt_distribution, moved,
      ← List.countP_eq_length_filter]
    apply countP_eq_add
    intro key
    rw [routed]
    split
    · by_cases already : self.getNode hash key = some node
      · simp [already]
      · have moves : (some node != self.getNode hash key) = true :=
          bne_iff_ne.mpr (Ne.symm already)
        rw [beq_self_eq_true, beq_eq_false_iff_ne.mpr already, moves]
        rfl
    · simp
  · intro other different
    rw [valueAt_distribution, valueAt_distribution]
    apply List.countP_mono_left
    intro key _ toOther
    rw [routed] at toOther
    split at toOther
    · exact absurd (Option.some.inj (eq_of_beq toOther)).symm different
    · exact toOther

/-- Only the keys of a leaving node move, all of them, and the nodes that stay
lose none. -/
theorem keys_moved_by_remove (hash : String → UInt64) (self : ConsistentHash)
    (node : String) (keys : List String) :
    (∀ key, (self.removeNode node).getNode hash key = self.getNode hash key ↔
      self.getNode hash key ≠ some node) ∧
    moved hash self (self.removeNode node) keys =
      valueAt 0 (self.distribution hash keys) node ∧
    ∀ other, other ≠ node →
      valueAt 0 (self.distribution hash keys) other ≤
        valueAt 0 ((self.removeNode node).distribution hash keys) other := by
  have stays (key : String) :
      (self.removeNode node).getNode hash key = self.getNode hash key ↔
        self.getNode hash key ≠ some node :=
    ⟨fun same => same ▸ getNode_removeNode_ne, getNode_removeNode⟩
  refine ⟨stays, ?_, ?_⟩
  · rw [valueAt_distribution, moved, ← List.countP_eq_length_filter]
    apply List.countP_congr
    intro key _
    rw [bne_iff_ne, Ne, stays, beq_iff_eq, not_not]
  · intro other different
    rw [valueAt_distribution, valueAt_distribution]
    apply List.countP_mono_left
    intro key _ toOther
    have before : self.getNode hash key = some other := eq_of_beq toOther
    have notLeaving : self.getNode hash key ≠ some node := by
      rw [before]
      exact fun same => different (Option.some.inj same)
    rw [getNode_removeNode notLeaving]
    exact toOther

/-- Removing what was just added gives the ring back if and only if the node was
not on it and took no point over. -/
theorem removeNode_addNode_iff {self : ConsistentHash} {node : String} :
    ((self.addNode hash node).removeNode node).ring = self.ring ↔
      ∀ entry, entry ∈ self.ring →
        entry.2 ≠ node ∧ entry.1 ∉ self.positions hash node := by
  have kept (entry : UInt64 × String) :
      entry ∈ ((self.addNode hash node).removeNode node).ring ↔
        entry ∈ self.ring ∧ entry.2 ≠ node ∧
          entry.1 ∉ self.positions hash node := by
    have inside : entry ∈ ((self.addNode hash node).removeNode node).ring ↔
        entry ∈ (self.addNode hash node).ring ∧ entry.2 ≠ node := by
      rw [removeNode, List.mem_filter, bne_iff_ne]
    rw [inside, mem_addNode_iff]
    tauto
  constructor
  · intro restored entry member
    rw [← restored] at member
    exact ((kept entry).mp member).2
  · intro free
    apply eq_of_increasing (ConsistentHash.increasing _) self.increasing
    intro entry
    exact (kept entry).trans ⟨And.left, fun member => ⟨member, free entry member⟩⟩

end ConsistentHash

end HautePerformance.Demos.Sharding
