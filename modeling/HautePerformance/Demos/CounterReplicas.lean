import HautePerformance.Demos.Crdt

/-!
# What a replicated counter has counted

The case of a node is the number of operations of that node in the causal past.
Two versions have seen nested parts of what a node has done, so the greater of two
cases is the count of what they have seen together, and a merge neither loses an
operation nor counts it twice.
-/

namespace HautePerformance.Demos.Crdt

open Library

/-! ## Cases -/

namespace GCounter

variable {counter after : GCounter} {node : String}

theorem increment_eq_some (incremented : counter.increment = some after) :
    after.nodeId = counter.nodeId ∧
      ∀ node,
        after.count node =
          counter.count node + if node = counter.nodeId then 1 else 0 := by
  simp only [increment, Option.map_eq_some_iff] at incremented
  obtain ⟨count, added, rfl⟩ := incremented
  obtain ⟨_, rfl⟩ := checkedAdd_eq_some.mp added
  refine ⟨rfl, ?_⟩
  intro node
  by_cases own : node = counter.nodeId
  · subst own
    simp [GCounter.count]
  · simp [GCounter.count, valueAt_insert_ne own, own]

theorem increment_of_fits (fits : counter.count counter.nodeId + 1 < u64Bound) :
    ∃ after, counter.increment = some after := by
  have added :
      checkedAdd (counter.count counter.nodeId) 1 =
        some (counter.count counter.nodeId + 1) :=
    checkedAdd_eq_some.mpr ⟨fits, rfl⟩
  exact ⟨_, by rw [increment, added, Option.map_some]⟩

theorem count_merge (counter other : GCounter) (node : String) :
    (counter.merge other).count node =
      max (counter.count node) (other.count node) :=
  valueAt_mergeEntries (fun count => max_eq_left (Nat.zero_le count))
    counter.counters other.counters

/-- The nodes that have a case. -/
def nodes (counter : GCounter) : Finset String :=
  counter.counters.keys.toFinset

theorem mem_nodes_of_count (counted : counter.count node ≠ 0) :
    node ∈ counter.nodes := by
  rw [nodes, List.mem_toFinset, ← AList.mem_keys]
  by_contra absent
  rw [← AList.lookup_eq_none] at absent
  exact counted (by simp [count, valueAt, absent])

/-- The sum of the values is the sum of the cases. -/
theorem sum_values (counter : GCounter) :
    (counter.counters.entries.map fun entry => entry.2).sum =
      ∑ node ∈ counter.nodes, counter.count node := by
  have byKey :
      (counter.counters.entries.map fun entry => entry.2) =
        counter.counters.keys.map counter.count := by
    rw [AList.keys, List.keys, List.map_map]
    apply List.map_congr_left
    intro entry member
    have found : counter.counters.lookup entry.1 = some entry.2 :=
      AList.mem_lookup_iff.mpr member
    simp [count, valueAt, found]
  rw [byKey, nodes, List.sum_toFinset counter.count counter.counters.keys_nodup]

end GCounter

/-! ## Operations in the past -/

/-- The operation of an event. -/
def isOp (op : PNOp) (event : Event String PNOp) : Bool :=
  decide (event.op = op)

/-- The cases of both counters are the operations of the nodes in the past. -/
structure Counts (events : List (Event String PNOp)) (replica : String)
    (version : Version PNCounter) : Prop where
  pNode : version.state.p.nodeId = replica
  nNode : version.state.n.nodeId = replica
  pCount : ∀ node,
    version.state.p.count node =
      countSeen events version.past (ofReplica (isOp .increment) node)
  nCount : ∀ node,
    version.state.n.count node =
      countSeen events version.past (ofReplica (isOp .decrement) node)

/-- The event of an operation is of that kind and of its replica. -/
theorem ofReplica_event (net : Replicas String PNOp PNCounter)
    (replica node : String) (op tested : PNOp) :
    (ofReplica (isOp tested) node (ReplicatedType.event net replica op) =
      true) ↔ op = tested ∧ node = replica := by
  rw [ofReplica, isOp, Bool.and_eq_true, decide_eq_true_iff,
    decide_eq_true_iff]
  exact and_congr_right fun _ => eq_comm

theorem counts_kept
    (allowed : Replicas String PNOp PNCounter →
      ReplicaLabel String PNOp → Prop) :
    KeptByReplicas pnCounter allowed Counts where
  start := by
    intro replica
    exact ⟨rfl, rfl, fun _ => rfl, fun _ => rfl⟩
  frame := by
    intro net replica version last causal isVersion counts
    have known := causal.known replica version isVersion
    refine ⟨counts.pNode, counts.nNode, ?_, ?_⟩
    · intro node
      rw [countSeen_append last known]
      exact counts.pCount node
    · intro node
      rw [countSeen_append last known]
      exact counts.nCount node
  update := by
    intro net replica op state _ causal counts applied
    have known := causal.known replica _ (net.current_mem replica)
    cases op with
    | increment =>
        simp only [pnCounter, PNCounter.increment, Option.map_eq_some_iff]
          at applied
        obtain ⟨p, incremented, rfl⟩ := applied
        obtain ⟨sameNode, cases⟩ := GCounter.increment_eq_some incremented
        refine ⟨sameNode.trans counts.pNode, counts.nNode, ?_, ?_⟩
        · intro node
          rw [cases node, counts.pNode, counts.pCount,
            countSeen_insert _ known]
          simp [ofReplica_event]
        · intro node
          rw [countSeen_insert _ known]
          simpa [ofReplica_event] using counts.nCount node
    | decrement =>
        simp only [pnCounter, PNCounter.decrement, Option.map_eq_some_iff]
          at applied
        obtain ⟨n, decremented, rfl⟩ := applied
        obtain ⟨sameNode, cases⟩ := GCounter.increment_eq_some decremented
        refine ⟨counts.pNode, sameNode.trans counts.nNode, ?_, ?_⟩
        · intro node
          rw [countSeen_insert _ known]
          simpa [ofReplica_event] using counts.pCount node
        · intro node
          rw [cases node, counts.nNode, counts.nCount,
            countSeen_insert _ known]
          simp [ofReplica_event]
  merge := by
    intro net replica source age other _ causal atAge counts otherCounts
    have isVersion := net.current_mem replica
    have isOther := List.mem_of_getElem? atAge
    have ofNode : ∀ op node (event : Event String PNOp),
        ofReplica (isOp op) node event = true → event.replica = node := by
      intro op node event passes
      simp only [ofReplica, Bool.and_eq_true, decide_eq_true_eq] at passes
      exact passes.2
    refine ⟨counts.pNode, counts.nNode, ?_, ?_⟩
    · intro node
      rw [causal.countSeen_union isVersion isOther (ofNode .increment node),
        ← counts.pCount, ← otherCounts.pCount]
      exact GCounter.count_merge _ _ node
    · intro node
      rw [causal.countSeen_union isVersion isOther (ofNode .decrement node),
        ← counts.nCount, ← otherCounts.nCount]
      exact GCounter.count_merge _ _ node

/-! ## Values -/

section Values

variable {events : List (Event String PNOp)} {past : Finset Nat}

theorem countSeen_le_length (known : ∀ e, e ∈ past → e < events.length)
    (test : Event String PNOp → Bool) :
    countSeen events past test ≤ events.length := by
  have bounded : past ⊆ Finset.range events.length := fun e seen =>
    Finset.mem_range.mpr (known e seen)
  have card := Finset.card_le_card bounded
  rw [Finset.card_range] at card
  exact (countSeen_le events past test).trans card

/-- The value of a counter whose cases count the operations of their nodes. -/
theorem GCounter.value_eq {counter : GCounter} {test : Event String PNOp → Bool}
    (counted : ∀ node,
      counter.count node = countSeen events past (ofReplica test node))
    (known : ∀ e, e ∈ past → e < events.length)
    (few : events.length < u64Bound) :
    counter.value = some (countSeen events past test) := by
  have complete : ∀ (e : Nat) (event : Event String PNOp),
      e ∈ past → events[e]? = some event → test event = true →
      event.replica ∈ counter.nodes := by
    intro e event seen isEvent passes
    refine GCounter.mem_nodes_of_count ?_
    have member :
        e ∈ past.filter fun e =>
          (events[e]?.any (ofReplica test event.replica)) = true :=
      mem_filter_any.mpr ⟨seen, event, isEvent, by simp [ofReplica, passes]⟩
    rw [counted, countSeen]
    exact Finset.card_ne_zero_of_mem member
  have total :
      (counter.counters.entries.map fun entry => entry.2).sum =
        countSeen events past test := by
    rw [counter.sum_values, countSeen_eq_sum counter.nodes complete]
    exact Finset.sum_congr rfl fun node _ => counted node
  rw [GCounter.value, checkedSum_of_fits, total]
  rw [total]
  exact lt_of_le_of_lt (countSeen_le_length known test) few

/-- The increments of a past minus its decrements. -/
def balance (events : List (Event String PNOp)) (past : Finset Nat) : Int :=
  (countSeen events past (isOp .increment) : Int) -
    countSeen events past (isOp .decrement)

theorem Counts.value_eq {replica : String} {version : Version PNCounter}
    (counts : Counts events replica version)
    (known : ∀ e, e ∈ version.past → e < events.length)
    (few : events.length < 2 ^ 63) :
    version.state.value = some (balance events version.past) := by
  have small : events.length < u64Bound := by
    rw [u64Bound]
    omega
  have increments :=
    lt_of_le_of_lt (countSeen_le_length known (isOp .increment)) few
  have decrements :=
    lt_of_le_of_lt (countSeen_le_length known (isOp .decrement)) few
  rw [PNCounter.value, GCounter.value_eq counts.pCount known small,
    GCounter.value_eq counts.nCount known small, Option.bind_some,
    Option.bind_some, asI64_of_fits increments, asI64_of_fits decrements,
    checkedSub_of_fits increments decrements, balance]

end Values

/-- The runs of counters: increments, decrements and merges of any versions. -/
def CounterRun (world : ReplicaWorld String PNOp PNCounter) : Prop :=
  pnCounter.system.Reachable (fun _ _ => True) world

/-- Every replica counts its causal past, replicas with the same past agree, and
replicas that have received everything have the total of all operations.  None of
them overflows at its next operation. -/
structure CountsExactly (net : Replicas String PNOp PNCounter) : Prop where
  exact : ∀ replica,
    (net.current replica).state.value =
      some (balance net.events (net.current replica).past)
  agree : ∀ replica other,
    (net.current replica).past = (net.current other).past →
    (net.current replica).state.value = (net.current other).state.value
  total : ∀ replica,
    (∀ e, e < net.events.length → e ∈ (net.current replica).past) →
    (net.current replica).state.value =
      some
        ((net.events.countP (isOp .increment) : Int) -
          net.events.countP (isOp .decrement))
  applies : ∀ replica op,
    ∃ state, pnCounter.apply op (net.current replica).state = some state

/-- Counters count their causal past exactly. -/
theorem counters_count_exactly {world : ReplicaWorld String PNOp PNCounter}
    (run : CounterRun world) (few : world.state.events.length < 2 ^ 63) :
    CountsExactly world.state := by
  obtain ⟨causal, counts⟩ := (counts_kept fun _ _ => True).reachable run
  have known := fun replica =>
    causal.known replica _ (world.state.current_mem replica)
  have current := fun replica =>
    counts replica _ (world.state.current_mem replica)
  have exact := fun replica => (current replica).value_eq (known replica) few
  refine ⟨exact, ?_, ?_, ?_⟩
  · intro replica other samePast
    rw [exact replica, exact other, samePast]
  · intro replica everything
    have whole :
        (world.state.current replica).past =
          Finset.range world.state.events.length := by
      ext e
      rw [Finset.mem_range]
      exact ⟨known replica e, everything e⟩
    rw [exact replica, whole, balance, countSeen_range, countSeen_range]
  · intro replica op
    have room : ∀ test,
        countSeen world.state.events (world.state.current replica).past test +
          1 < u64Bound := by
      intro test
      have bounded := countSeen_le_length (known replica) test
      rw [u64Bound]
      omega
    cases op with
    | increment =>
        have fits :
            (world.state.current replica).state.p.count
              (world.state.current replica).state.p.nodeId + 1 < u64Bound := by
          rw [(current replica).pCount]
          exact room _
        obtain ⟨after, incremented⟩ := GCounter.increment_of_fits fits
        exact ⟨{ (world.state.current replica).state with p := after }, by
          simp [pnCounter, PNCounter.increment, incremented]⟩
    | decrement =>
        have fits :
            (world.state.current replica).state.n.count
              (world.state.current replica).state.n.nodeId + 1 < u64Bound := by
          rw [(current replica).nCount]
          exact room _
        obtain ⟨after, decremented⟩ := GCounter.increment_of_fits fits
        exact ⟨{ (world.state.current replica).state with n := after }, by
          simp [pnCounter, PNCounter.decrement, decremented]⟩

/-- Two warehouses, one of them with a stale version of the other. -/
theorem counters_count_exactly_two_warehouses :
    ∃ world : ReplicaWorld String PNOp PNCounter,
      (world.state.current "entrepot-1").state.value = some 1 ∧
        CountsExactly world.state := by
  obtain ⟨world, reachable, checked⟩ :=
    System.exists_reachable_of_replay pnCounter.system (fun _ _ => True)
      pnCounter.start
      [.update "entrepot-1" .increment, .update "entrepot-1" .increment,
        .update "entrepot-2" .decrement, .merge "entrepot-2" "entrepot-1" 1,
        .merge "entrepot-1" "entrepot-2" 0, .merge "entrepot-1" "entrepot-2" 0]
      (fun _ _ => true)
      (fun world =>
        decide ((world.state.current "entrepot-1").state.value = some 1 ∧
          world.state.events.length = 3))
      rfl (fun _ _ _ => trivial) (by decide +kernel)
  obtain ⟨value, length⟩ := of_decide_eq_true checked
  exact ⟨world, value, counters_count_exactly reachable (by omega)⟩

end HautePerformance.Demos.Crdt
