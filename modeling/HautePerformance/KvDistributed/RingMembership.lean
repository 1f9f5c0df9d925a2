import HautePerformance.KvDistributed.RingRouting

/-!
# The ring as a function of its nodes

The texts that are hashed for the virtual nodes tell the nodes and the indices
apart.  When the hash keeps them apart too, no insertion overwrites a virtual
node, so the ring consists of the virtual nodes of its members, in whatever order
they have come and gone.
-/

namespace HautePerformance.KvDistributed

open Library

/-! ## The text of a virtual node -/

/-- Two lists that are cut at their first separator agree part by part. -/
theorem eq_of_cut {α : Type} {separator : α} :
    ∀ {first second : List α} {rest other : List α},
      separator ∉ first →
      separator ∉ second →
      first ++ separator :: rest = second ++ separator :: other →
      first = second ∧ rest = other
  | [], [], rest, other, _, _, same => by
      exact ⟨rfl, List.tail_eq_of_cons_eq same⟩
  | [], head :: tail, rest, other, _, noSeparator, same => by
      have isHead : separator = head := List.head_eq_of_cons_eq same
      exact absurd (isHead ▸ List.mem_cons_self) noSeparator
  | head :: tail, [], rest, other, noSeparator, _, same => by
      have isHead : head = separator := List.head_eq_of_cons_eq same
      exact absurd (isHead ▸ List.mem_cons_self) noSeparator
  | head :: tail, head' :: tail', rest, other, noFirst, noSecond, same => by
      have sameHead : head = head' := List.head_eq_of_cons_eq same
      have sameTail : tail ++ separator :: rest = tail' ++ separator :: other :=
        List.tail_eq_of_cons_eq same
      obtain ⟨tails, rests⟩ :=
        eq_of_cut (fun member => noFirst (List.mem_cons_of_mem _ member))
          (fun member => noSecond (List.mem_cons_of_mem _ member)) sameTail
      exact ⟨by rw [sameHead, tails], rests⟩

theorem dash_not_mem_digits (i : Nat) : '-' ∉ (Nat.toDigits 10 i).reverse := by
  intro member
  have isDigit : '-'.isDigit = true :=
    Nat.isDigit_of_mem_toDigits (by decide) (by decide)
      (List.mem_reverse.mp member)
  revert isDigit
  decide

/-- Whatever the names of the nodes, a text belongs to one virtual node only: the
digits of the index are what follows the last dash. -/
theorem vnodeKey_injective {first second : String} {i j : Nat}
    (same : vnodeKey first i = vnodeKey second j) : first = second ∧ i = j := by
  have texts (nodeId : String) (index : Nat) :
      (vnodeKey nodeId index).toList.reverse =
        (Nat.toDigits 10 index).reverse ++
          '-' :: ((nodeId ++ "#vnode").toList).reverse := by
    have split : vnodeKey nodeId index =
        nodeId ++ "#vnode" ++ "-" ++ Nat.repr index := by
      simp only [vnodeKey, String.append_assoc]
      rfl
    rw [split, String.toList_append, String.toList_append, Nat.toList_repr,
      List.reverse_append, List.reverse_append]
    rfl
  have reversed := congrArg (fun text : String => text.toList.reverse) same
  simp only [texts] at reversed
  obtain ⟨digits, names⟩ :=
    eq_of_cut (dash_not_mem_digits i) (dash_not_mem_digits j) reversed
  have sameDigits : Nat.toDigits 10 i = Nat.toDigits 10 j :=
    List.reverse_injective digits
  have read (index : Nat) :
      Nat.ofDigitChars 10 (Nat.toDigits 10 index) 0 = index :=
    Nat.ofDigitChars_ten_toDigits
  have sameIndex : i = j := by
    rw [← read i, sameDigits, read j]
  have sameText : first ++ "#vnode" = second ++ "#vnode" :=
    String.toList_injective (List.reverse_injective names)
  have sameName : first.toList = second.toList := by
    have lists := congrArg String.toList sameText
    simp only [String.toList_append] at lists
    exact List.append_cancel_right lists
  exact ⟨String.toList_injective sameName, sameIndex⟩

/-! ## The entries after an insertion -/

theorem mem_insertVnode_iff {ring : VirtualNodes} (increasing : Increasing ring)
    {position : UInt64} {owner : String} {entry : UInt64 × String} :
    entry ∈ insertVnode position owner ring ↔
      entry = (position, owner) ∨ entry ∈ ring ∧ entry.1 ≠ position := by
  induction ring with
  | nil => simp [insertVnode]
  | cons head tail inductionHypothesis =>
      obtain ⟨other, otherOwner⟩ := head
      obtain ⟨headBelow, tailIncreasing⟩ := List.pairwise_cons.mp increasing
      simp only [insertVnode]
      split
      · rename_i before
        have allAbove (later : UInt64 × String)
            (member : later ∈ (other, otherOwner) :: tail) :
            later.1 ≠ position := by
          intro same
          rcases List.mem_cons.mp member with here | inTail
          · rw [here] at same
            exact UInt64.lt_irrefl _ (same ▸ before)
          · have above := UInt64.lt_trans before (headBelow later inTail)
            exact UInt64.lt_irrefl _ (same ▸ above)
        constructor
        · intro member
          rcases List.mem_cons.mp member with here | old
          · exact Or.inl here
          · exact Or.inr ⟨old, allAbove entry old⟩
        · intro given
          rcases given with here | ⟨old, _⟩
          · exact here ▸ List.mem_cons_self
          · exact List.mem_cons_of_mem _ old
      · split
        · rename_i same
          have tailAbove (later : UInt64 × String) (member : later ∈ tail) :
              later.1 ≠ position := by
            intro samePosition
            have above := headBelow later member
            rw [samePosition, same] at above
            exact UInt64.lt_irrefl _ above
          constructor
          · intro member
            rcases List.mem_cons.mp member with here | old
            · exact Or.inl here
            · exact Or.inr
                ⟨List.mem_cons_of_mem _ old, tailAbove entry old⟩
          · intro given
            rcases given with here | ⟨old, different⟩
            · exact here ▸ List.mem_cons_self
            · rcases List.mem_cons.mp old with replaced | inTail
              · rw [replaced] at different
                exact absurd same.symm different
              · exact List.mem_cons_of_mem _ inTail
        · rename_i different
          rw [List.mem_cons, inductionHypothesis tailIncreasing, List.mem_cons]
          constructor
          · intro given
            rcases given with here | inserted | ⟨old, notThere⟩
            · refine Or.inr ⟨Or.inl here, ?_⟩
              rw [here]
              exact Ne.symm different
            · exact Or.inl inserted
            · exact Or.inr ⟨Or.inr old, notThere⟩
          · intro given
            rcases given with inserted | ⟨here | old, notThere⟩
            · exact Or.inr (Or.inl inserted)
            · exact Or.inl here
            · exact Or.inr (Or.inr ⟨old, notThere⟩)

namespace ConsistentHashRing

variable {hash : String → UInt64}

theorem mem_insertAll_iff {nodeId : String} {indices : List Nat}
    {entry : UInt64 × String} :
    ∀ {ring : VirtualNodes},
      Increasing ring →
      (entry ∈ insertAll hash nodeId indices ring ↔
        (entry.2 = nodeId ∧
            ∃ i, i ∈ indices ∧ entry.1 = hash (vnodeKey nodeId i)) ∨
          entry ∈ ring ∧
            ∀ i, i ∈ indices → entry.1 ≠ hash (vnodeKey nodeId i)) := by
  induction indices with
  | nil =>
      intro ring _
      simp [insertAll]
  | cons i rest inductionHypothesis =>
      intro ring increasing
      rw [insertAll, inductionHypothesis (increasing.insertVnode _ _),
        mem_insertVnode_iff increasing]
      constructor
      · intro given
        rcases given with ⟨own, j, inRest, place⟩ | ⟨inserted | ⟨old, free⟩, later⟩
        · exact Or.inl ⟨own, j, List.mem_cons_of_mem _ inRest, place⟩
        · refine Or.inl ⟨?_, i, List.mem_cons_self, ?_⟩
          · rw [inserted]
          · rw [inserted]
        · refine Or.inr ⟨old, ?_⟩
          intro j member
          rcases List.mem_cons.mp member with here | inRest
          · rw [here]
            exact free
          · exact later j inRest
      · intro given
        rcases given with ⟨own, j, member, place⟩ | ⟨old, free⟩
        · by_cases again : ∃ k, k ∈ rest ∧ entry.1 = hash (vnodeKey nodeId k)
          · exact Or.inl ⟨own, again⟩
          · have later (k : Nat) (inRest : k ∈ rest) :
                entry.1 ≠ hash (vnodeKey nodeId k) := by
              intro samePlace
              exact again ⟨k, inRest, samePlace⟩
            have isHead : j = i := by
              rcases List.mem_cons.mp member with here | inRest
              · exact here
              · exact absurd place (later j inRest)
            refine Or.inr ⟨Or.inl ?_, later⟩
            exact Prod.ext (isHead ▸ place) own
        · refine Or.inr ⟨Or.inr ⟨old, free i List.mem_cons_self⟩, ?_⟩
          intro j inRest
          exact free j (List.mem_cons_of_mem _ inRest)

/-! ## The virtual nodes of the members -/

/-- The nodes that a sequence of changes adds. -/
def added : List RingOp → List String
  | [] => []
  | .add nodeId :: rest => nodeId :: added rest
  | .remove _ :: rest => added rest

/-- The hash tells the virtual nodes of the given nodes apart. -/
def CollisionFree (hash : String → UInt64) (virtualNodes : Nat)
    (nodes : List String) : Prop :=
  ∀ first, first ∈ nodes → ∀ second, second ∈ nodes →
    ∀ i, i < virtualNodes → ∀ j, j < virtualNodes →
      vnodeKey first i ≠ vnodeKey second j →
      hash (vnodeKey first i) ≠ hash (vnodeKey second j)

instance (virtualNodes : Nat) (nodes : List String) :
    Decidable (CollisionFree hash virtualNodes nodes) :=
  inferInstanceAs (Decidable
    (∀ first, first ∈ nodes → ∀ second, second ∈ nodes →
      ∀ i, i < virtualNodes → ∀ j, j < virtualNodes →
        vnodeKey first i ≠ vnodeKey second j →
        hash (vnodeKey first i) ≠ hash (vnodeKey second j)))

/-- The ring holds the virtual nodes of its members and no others. -/
structure Placed (hash : String → UInt64) (virtualNodes : Nat)
    (everAdded : List String) (routing : ConsistentHashRing) : Prop where
  size : routing.virtualNodes = virtualNodes
  known : ∀ node, node ∈ routing.nodes → node ∈ everAdded
  placed : ∀ entry, entry ∈ routing.ring ↔
    entry.2 ∈ routing.nodes ∧
      ∃ i, i < virtualNodes ∧ entry.1 = hash (vnodeKey entry.2 i)

namespace Placed

variable {virtualNodes : Nat} {everAdded : List String}
  {self : ConsistentHashRing}

theorem new : Placed hash virtualNodes everAdded (new virtualNodes) where
  size := rfl
  known := by
    intro node member
    cases member
  placed := by
    intro entry
    constructor
    · intro member
      cases member
    · intro given
      cases given.1

theorem removeNode (placed : Placed hash virtualNodes everAdded self)
    (nodeId : String) :
    Placed hash virtualNodes everAdded (self.removeNode nodeId) where
  size := placed.size
  known := by
    intro node member
    exact placed.known node (List.mem_filter.mp member).1
  placed := by
    intro entry
    simp only [ConsistentHashRing.removeNode, List.mem_filter,
      placed.placed entry]
    constructor
    · intro given
      exact ⟨⟨given.1.1, given.2⟩, given.1.2⟩
    · intro given
      exact ⟨⟨given.1.1, given.2⟩, given.1.2⟩

/-- A new node overwrites no virtual node, since no other node has one where it
puts its own. -/
theorem addNode (placed : Placed hash virtualNodes everAdded self)
    (apart : CollisionFree hash virtualNodes everAdded) {nodeId : String}
    (inEver : nodeId ∈ everAdded) :
    Placed hash virtualNodes everAdded (self.addNode hash nodeId) := by
  simp only [ConsistentHashRing.addNode]
  split
  · exact placed
  · rename_i isNew
    have absent : nodeId ∉ self.nodes := by
      intro member
      exact isNew (List.any_eq_true.mpr ⟨nodeId, member, beq_self_eq_true _⟩)
    refine ⟨placed.size, ?_, ?_⟩
    · intro node member
      rcases List.mem_append.mp member with old | last
      · exact placed.known node old
      · rw [List.mem_singleton.mp last]
        exact inEver
    · intro entry
      simp only [mem_insertAll_iff self.increasing, List.mem_range,
        List.mem_append, List.mem_singleton, placed.size, placed.placed entry]
      constructor
      · intro given
        rcases given with ⟨own, inserted⟩ | ⟨⟨member, old⟩, _⟩
        · rw [own]
          exact ⟨Or.inr rfl, inserted⟩
        · exact ⟨Or.inl member, old⟩
      · intro given
        obtain ⟨member | own, i, bound, place⟩ := given
        · refine Or.inr ⟨⟨member, i, bound, place⟩, ?_⟩
          intro j boundOther samePlace
          have different : vnodeKey entry.2 i ≠ vnodeKey nodeId j := by
            intro sameKey
            exact absent ((vnodeKey_injective sameKey).1 ▸ member)
          exact apart entry.2 (placed.known _ member) nodeId inEver i bound j
            boundOther different (place ▸ samePlace)
        · refine Or.inl ⟨own, i, bound, ?_⟩
          rw [← own]
          exact place

theorem apply (placed : Placed hash virtualNodes everAdded self)
    (apart : CollisionFree hash virtualNodes everAdded) {op : RingOp}
    (inEver : ∀ node, node ∈ added [op] → node ∈ everAdded) :
    Placed hash virtualNodes everAdded (self.apply hash op) := by
  cases op with
  | add nodeId => exact placed.addNode apart (inEver nodeId List.mem_cons_self)
  | remove nodeId => exact placed.removeNode nodeId

theorem foldl (apart : CollisionFree hash virtualNodes everAdded) :
    ∀ (ops : List RingOp) {self : ConsistentHashRing},
      Placed hash virtualNodes everAdded self →
      (∀ node, node ∈ added ops → node ∈ everAdded) →
      Placed hash virtualNodes everAdded
        (ops.foldl (ConsistentHashRing.apply hash) self)
  | [], self, placed, _ => placed
  | op :: rest, self, placed, inEver => by
      refine foldl apart rest (placed.apply apart ?_) ?_
      · intro node member
        apply inEver
        cases op with
        | add nodeId =>
            rw [List.mem_singleton.mp member]
            exact List.mem_cons_self
        | remove nodeId => cases member
      · intro node member
        apply inEver
        cases op with
        | add nodeId => exact List.mem_cons_of_mem _ member
        | remove nodeId => exact member

end Placed

/-! ## Equal members, equal routing -/

/-- A ring is determined by its entries. -/
theorem eq_of_increasing {first second : VirtualNodes}
    (firstIncreasing : Increasing first)
    (secondIncreasing : Increasing second)
    (same : ∀ entry, entry ∈ first ↔ entry ∈ second) : first = second := by
  have nodup {ring : VirtualNodes} (increasing : Increasing ring) :
      ring.Nodup := by
    refine increasing.imp ?_
    intro left right below equal
    exact UInt64.lt_irrefl _ (equal ▸ below)
  have perm : first.Perm second :=
    (List.perm_ext_iff_of_nodup (nodup firstIncreasing)
      (nodup secondIncreasing)).mpr same
  refine perm.eq_of_pairwise ?_ firstIncreasing secondIncreasing
  intro left right _ _ below above
  exact absurd (UInt64.lt_trans below above) (UInt64.lt_irrefl _)

theorem Placed.ring_eq {virtualNodes : Nat} {everAdded : List String}
    {left right : ConsistentHashRing}
    (leftPlaced : Placed hash virtualNodes everAdded left)
    (rightPlaced : Placed hash virtualNodes everAdded right)
    (sameNodes : ∀ node, node ∈ left.nodes ↔ node ∈ right.nodes) :
    left.ring = right.ring := by
  apply eq_of_increasing left.increasing right.increasing
  intro entry
  rw [leftPlaced.placed, rightPlaced.placed, sameNodes]

/-- Routing depends on the members only.  Texts of virtual nodes are distinct for
distinct nodes or indices, and when the hash separates those of the nodes that
were ever added, two rings with the same members send each key to the same
nodes, whatever the changes that led to them. -/
theorem routing_of_membership (hash : String → UInt64) (virtualNodes : Nat) :
    (∀ first second : String, ∀ i j : Nat,
      (first, i) ≠ (second, j) → vnodeKey first i ≠ vnodeKey second j) ∧
    ∀ left right : List RingOp,
      CollisionFree hash virtualNodes (added left ++ added right) →
      (∀ node, node ∈ (build hash virtualNodes left).nodes ↔
        node ∈ (build hash virtualNodes right).nodes) →
      ∀ key,
        (build hash virtualNodes left).getNode hash key =
          (build hash virtualNodes right).getNode hash key ∧
        ∀ count,
          (build hash virtualNodes left).getNodes hash key count =
            (build hash virtualNodes right).getNodes hash key count := by
  constructor
  · intro first second i j different sameKey
    obtain ⟨sameNode, sameIndex⟩ := vnodeKey_injective sameKey
    exact different (by rw [sameNode, sameIndex])
  · intro left right apart sameNodes key
    have leftPlaced := Placed.foldl apart left Placed.new
      (fun node member => List.mem_append_left _ member)
    have rightPlaced := Placed.foldl apart right Placed.new
      (fun node member => List.mem_append_right _ member)
    have sameRing := leftPlaced.ring_eq rightPlaced sameNodes
    have sameOrder (key : String) :
        (build hash virtualNodes left).clockwise hash key =
          (build hash virtualNodes right).clockwise hash key := by
      simp only [clockwise, range]
      exact congrArg _ (congrArg _ (by rw [build, build, sameRing]))
    have leftWellFormed : (build hash virtualNodes left).WellFormed :=
      WellFormed.build virtualNodes left
    have rightWellFormed : (build hash virtualNodes right).WellFormed :=
      WellFormed.build virtualNodes right
    have sameReplicas (count : Nat) :
        (build hash virtualNodes left).getNodes hash key count =
          (build hash virtualNodes right).getNodes hash key count := by
      rw [leftWellFormed.getNodes_eq, rightWellFormed.getNodes_eq, sameOrder]
    refine ⟨?_, sameReplicas⟩
    rw [getNode_eq_head? leftWellFormed, getNode_eq_head? rightWellFormed,
      sameReplicas]

/-- The nodes `a` and `bb`, in two orders, one with a removal and a return. -/
theorem routing_of_membership_two_orders :
    (build (fun text => UInt64.ofNat text.length) 1
        [.add "a", .add "bb"]).getNodes
          (fun text => UInt64.ofNat text.length) "k" 2 =
      (build (fun text => UInt64.ofNat text.length) 1
        [.add "bb", .add "a", .remove "bb", .add "bb"]).getNodes
          (fun text => UInt64.ofNat text.length) "k" 2 := by
  have agreement :=
    (routing_of_membership (fun text => UInt64.ofNat text.length) 1).2
      [.add "a", .add "bb"]
      [.add "bb", .add "a", .remove "bb", .add "bb"] (by decide)
      (by
        intro node
        have leftNodes :
            (build (fun text => UInt64.ofNat text.length) 1
              [.add "a", .add "bb"]).nodes = ["a", "bb"] := by decide
        have rightNodes :
            (build (fun text => UInt64.ofNat text.length) 1
              [.add "bb", .add "a", .remove "bb", .add "bb"]).nodes =
                ["a", "bb"] := by decide
        rw [leftNodes, rightNodes])
      "k"
  exact agreement.2 2

end ConsistentHashRing

end HautePerformance.KvDistributed
