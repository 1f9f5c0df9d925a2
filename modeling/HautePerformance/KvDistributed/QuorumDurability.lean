import HautePerformance.Library.RpcLogic
import HautePerformance.KvDistributed.ClusterSteps

/-!
# Durability of acknowledged writes

What an `Ack` of a client `Put` says about the replicas.  Three things go wrong in
general: a replica acknowledges a `Replicate` that it has refused because it holds
another value of the same version, a node that forwards a `Put` counts the ack of
the first replica twice, and a node counts the ack of an earlier write that it had
given up.  In the runs without the first and the last, and with quorums that make
the second harmless, each ack stands for a quorum of distinct holders.
-/

namespace HautePerformance.KvDistributed

open Library
open Library.Rpc

namespace Cluster

variable (cluster : Cluster)

/-- At some moment up to now the replica has stored exactly the value under the
version, or an entry of a later version. -/
def HeldBy (world : ClusterWorld) (key : String) (value : Bytes)
    (version : UInt64) (replica : String) : Prop :=
  ∃ network,
    world.Visited network ∧ Absorbed network key value version replica

/-- At least `quorum` distinct replicas have held the write. -/
def Durable (world : ClusterWorld) (key : String) (value : Bytes)
    (version : UInt64) (quorum : Nat) : Prop :=
  ∃ holders : List String,
    holders.Nodup ∧
      (∀ holder, holder ∈ holders → holder ∈ cluster.replicas key) ∧
      quorum ≤ holders.length ∧
      ∀ holder, holder ∈ holders → HeldBy world key value version holder

/-- Every client `Put` that is answered with an `Ack` is durable under the quorum
of the node that answers. -/
def AcksAreDurable (world : ClusterWorld) : Prop :=
  ∀ (index : Nat) (execution : ClusterExecution) (key : String)
    (value : Bytes) (ttlMs : Option UInt64) (version : UInt64)
    (nodeId : UInt32),
    world.state.executions[index]? = some execution →
    execution.caller = none →
    execution.request = .put key value ttlMs →
    execution.phase = .finished (.ack version nodeId) →
    cluster.Durable world key value version
      (cluster.replicator execution.node).writeQuorum

/-- A node that forwards the writes of a key asks for no larger quorum than the
first replica does, or for more acks than it can ever count. -/
def forwardsSoundly (name key : String) : Bool :=
  match cluster.replicas key with
  | [] => true
  | target :: _ =>
      decide (name ∈ cluster.replicas key) ||
        decide ((cluster.replicator name).writeQuorum ≤
          max 1 (cluster.replicator target).writeQuorum) ||
        decide ((cluster.replicas key).length + 1 <
          (cluster.replicator name).writeQuorum)

/-- A write takes an `Ack` for its own. -/
def mistakesAck (misreading : ClusterMisreading) : Bool :=
  misreading.request.writes && misreading.response.isAck

/-- The steps under which acknowledged writes are durable. -/
def countsDistinctHolders (network : ClusterNetwork) (label : ClusterLabel) :
    Bool :=
  noVersionClash network label && noMisread mistakesAck network label &&
    match label with
    | .issue name (.put key _ _) => cluster.forwardsSoundly name key
    | _ => true

/-! ## The contract -/

/-- An `Ack` of a `Replicate` comes from a holder; an `Ack` of a `Put` stands for a
quorum of holders, and for one at least. -/
def durabilityContract :
    Contract String NodeState Request Response CallError NodeEvent where
  Inv _ := True
  Pre _ name request _ :=
    ∀ key value ttlMs,
      request = .put key value ttlMs → cluster.forwardsSoundly name key = true
  Post _ name request response world :=
    (∀ key value version ttlMs sourceNodeId acked nodeId,
      request = .replicate key value version ttlMs sourceNodeId →
      response = .ack acked nodeId →
      HeldBy world key value version name) ∧
    ∀ key value ttlMs version nodeId,
      request = .put key value ttlMs →
      response = .ack version nodeId →
      cluster.Durable world key value version
        (max 1 (cluster.replicator name).writeQuorum)

abbrev durabilitySetting :
    Setting String NodeState Request Response CallError NodeEvent :=
  ⟨cluster.service,
    fun network label => cluster.countsDistinctHolders network label = true⟩

variable {cluster}

theorem quorum_of_forwardsSoundly {name key target : String}
    {rest : List String}
    (forwards : cluster.forwardsSoundly name key = true)
    (replicasAre : cluster.replicas key = target :: rest)
    (notReplica : name ∉ cluster.replicas key) :
    (cluster.replicator name).writeQuorum ≤
        max 1 (cluster.replicator target).writeQuorum ∨
      (cluster.replicas key).length + 1 <
        (cluster.replicator name).writeQuorum := by
  unfold forwardsSoundly at forwards
  rw [replicasAre] at forwards notReplica ⊢
  simpa [notReplica] using forwards

theorem HeldBy.push {world : ClusterWorld} {key : String} {value : Bytes}
    {version : UInt64} {replica : String}
    (held : HeldBy world key value version replica) (label : ClusterLabel)
    (target : ClusterNetwork) :
    HeldBy (world.push label target) key value version replica := by
  obtain ⟨network, visited, absorbed⟩ := held
  exact ⟨network, visited.push label target, absorbed⟩

theorem heldBy_current {world : ClusterWorld} {key : String} {value : Bytes}
    {version : UInt64} {replica : String}
    (absorbed : Absorbed world.state key value version replica) :
    HeldBy world key value version replica :=
  ⟨world.state, world.visited_current, absorbed⟩

theorem Durable.push {world : ClusterWorld} {key : String} {value : Bytes}
    {version : UInt64} {quorum : Nat}
    (durable : cluster.Durable world key value version quorum)
    (label : ClusterLabel) (target : ClusterNetwork) :
    cluster.Durable (world.push label target) key value version quorum := by
  obtain ⟨holders, nodup, replicas, enough, held⟩ := durable
  exact ⟨holders, nodup, replicas, enough,
    fun holder member => (held holder member).push label target⟩

theorem Durable.mono {world : ClusterWorld} {key : String} {value : Bytes}
    {version : UInt64} {quorum smaller : Nat}
    (durable : cluster.Durable world key value version quorum)
    (order : smaller ≤ quorum) :
    cluster.Durable world key value version smaller := by
  obtain ⟨holders, nodup, replicas, enough, held⟩ := durable
  exact ⟨holders, nodup, replicas, order.trans enough, held⟩

variable {setting :
  Setting String NodeState Request Response CallError NodeEvent}
variable {contract :
  Contract String NodeState Request Response CallError NodeEvent}

theorem heldBy_stable (key : String) (value : Bytes) (version : UInt64)
    (replica : String) :
    contract.Stable setting
      fun world => HeldBy world key value version replica := by
  intro label source target onward held
  rw [onward.step.2.2]
  exact held.push label target.state

theorem durable_stable (key : String) (value : Bytes) (version : UInt64)
    (quorum : Nat) :
    contract.Stable setting
      fun world => cluster.Durable world key value version quorum := by
  intro label source target onward durable
  rw [onward.step.2.2]
  exact durable.push label target.state

/-! ## The handlers keep the contract -/

/-- The last phase of a `Put` is safe when the ackers, with the ack that was
there before, make the write durable. -/
theorem safe_sendReplicates {index root : Nat} {name key : String}
    {value : Bytes} {ttlMs : Option UInt64} {version : UInt64}
    {world : ClusterWorld}
    (decides : ∀ later (ackers : List String),
      cluster.durabilityContract.Future cluster.durabilitySetting world later →
      ackers.Nodup →
      (∀ acker, acker ∈ ackers →
        acker ∈ cluster.replicas key ∧ acker ≠ name ∧
          HeldBy later key value version acker) →
      (cluster.replicator name).writeQuorum ≤ 1 + ackers.length →
      cluster.Durable later key value version
        (max 1 (cluster.replicator name).writeQuorum)) :
    cluster.durabilityContract.Safe cluster.durabilitySetting index root name
      (.put key value ttlMs) []
      (((cluster.replicator name).sendReplicates key value ttlMs
        (cluster.replicas key) version).map (cluster.server name).putResponse)
      world := by
  refine ⟨?_, ?_⟩
  · intro target called member otherKey otherValue otherTtl isPut
    rw [(Replicator.mem_replicateRequests.mp member).2.2.2] at isPut
    cases isPut
  · intro later outcomes future answered
    refine ⟨nofun, ?_⟩
    intro otherKey otherValue otherTtl acked nodeId isPut isAck
    cases isPut
    -- An ack means that the quorum was met, with the version of the write.
    obtain ⟨enough, sameVersion⟩ := KvServer.of_putResponse_decideQuorum isAck
    subst sameVersion
    obtain ⟨ackers, sublist, length, held⟩ :=
      Replicator.exists_ackers
        (fun target =>
          (∃ called, (target, called) ∈
            (cluster.replicator name).replicateRequests key value acked ttlMs
              (cluster.replicas key)) ∧
            HeldBy later key value acked target)
        answered.length
        (by
          intro slot target request version nodeId asked okAt
          have member := List.mem_of_getElem? asked
          refine ⟨⟨request, member⟩, ?_⟩
          exact
            (answered.post slot target request _ asked okAt).1 _ _ _ _ _ _ _
              (Replicator.mem_replicateRequests.mp member).2.2.2 rfl)
    refine decides later ackers future ?_ ?_ ?_
    · exact
        (sublist.trans
          (Replicator.replicateRequests_sublist _ _ _ _ _ _)).nodup
            (cluster.nodup_replicas key)
    · intro acker member
      obtain ⟨⟨called, asked⟩, heldHere⟩ := held acker member
      obtain ⟨isReplica, notLocal, _⟩ :=
        Replicator.mem_replicateRequests.mp asked
      rw [cluster.named] at notLocal
      exact ⟨isReplica, notLocal, heldHere⟩
    · rwa [Replicator.countAcks_eq, ← length] at enough

/-- A `Put` received by a replica: the replica itself is one more holder. -/
theorem durable_of_local {world : ClusterWorld} {name key : String}
    {value : Bytes} {version : UInt64} {quorum : Nat} {ackers : List String}
    (isReplica : name ∈ cluster.replicas key)
    (heldHere : HeldBy world key value version name)
    (nodup : ackers.Nodup)
    (held : ∀ acker, acker ∈ ackers →
      acker ∈ cluster.replicas key ∧ acker ≠ name ∧
        HeldBy world key value version acker)
    (enough : quorum ≤ 1 + ackers.length) :
    cluster.Durable world key value version (max 1 quorum) := by
  refine ⟨name :: ackers, ?_, ?_, ?_, ?_⟩
  · exact List.nodup_cons.mpr
      ⟨fun member => (held name member).2.1 rfl, nodup⟩
  · intro holder member
    rcases List.mem_cons.mp member with here | later
    · exact here ▸ isReplica
    · exact (held holder later).1
  · simp only [List.length_cons]
    omega
  · intro holder member
    rcases List.mem_cons.mp member with here | later
    · exact here ▸ heldHere
    · exact (held holder later).2.2

theorem safe_put {index root : Nat} {name key : String} {value : Bytes}
    {ttlMs : Option UInt64} {world : ClusterWorld}
    (forwards : cluster.forwardsSoundly name key = true) :
    cluster.durabilityContract.Safe cluster.durabilitySetting index root name
      (.put key value ttlMs) []
      (cluster.service.handler name (.put key value ttlMs)) world := by
  have failed (cause : ReplicationError) (later : ClusterWorld) :
      cluster.durabilityContract.Post root name (.put key value ttlMs)
        ((cluster.server name).putResponse (.error cause)) later :=
    ⟨nofun, nofun⟩
  simp only [service, KvServer.handleRequest, Replicator.putReplicated,
    cluster.agreement, cluster.named]
  split
  · exact failed _ world
  · rename_i target rest replicasAre
    split
    · rename_i isReplica
      intro later execution future reachable inv found sameNode sameRequest
        sameRoot phase allowed
      refine ⟨trivial, safe_sendReplicates ?_⟩
      intro last ackers futureLast nodup held enough
      refine durable_of_local isReplica ?_ nodup held enough
      refine (heldBy_stable key value _ name).future futureLast ?_
      subst sameNode
      refine heldBy_current ?_
      rw [World.push_state]
      apply absorbed_of_put
    · rename_i notReplica
      split
      · refine ⟨?_, ?_⟩
        · intro other called member otherKey otherValue otherTtl isPut
          simp only [List.mem_singleton, Prod.mk.injEq] at member
          obtain ⟨rfl, rfl⟩ := member
          cases isPut
          simp [forwardsSoundly, replicasAre]
        · intro later outcomes future answered
          dsimp only
          split
          · rename_i version succeeded
            obtain ⟨nodeId, isOk⟩ := KvClient.putWithTtl_eq_ok succeeded
            have first := first_of_headD_ok isOk
            have durable :=
              (answered.post 0 target (.put key value ttlMs) _ rfl first).2
                key value ttlMs version nodeId rfl rfl
            refine safe_sendReplicates ?_
            intro last ackers futureLast nodup held enough
            have atMost : ackers.length ≤ (cluster.replicas key).length :=
              (nodup.subperm fun acker member =>
                (held acker member).1).length_le
            have enoughAtFirst :
                max 1 (cluster.replicator name).writeQuorum ≤
                  max 1 (cluster.replicator target).writeQuorum := by
              rcases quorum_of_forwardsSoundly forwards replicasAre notReplica with
                smaller | never
              · omega
              · omega
            exact
              ((durable_stable key value version _).future futureLast
                durable).mono enoughAtFirst
          · exact failed _ later
      · exact failed _ world

/-- The contract is sound for the cluster. -/
theorem durability_sound (cluster : Cluster) :
    cluster.durabilityContract.Sound cluster.durabilitySetting where
  inv_boot := trivial
  pre_stable _ _ _ := fun _ _ _ _ pre => pre
  post_stable root name request response := by
    intro label source target onward post
    refine ⟨?_, ?_⟩
    · intro key value version ttlMs sourceNodeId acked nodeId isReplicate isAck
      exact heldBy_stable key value version name label source target onward
        (post.1 key value version ttlMs sourceNodeId acked nodeId isReplicate
          isAck)
    · intro key value ttlMs version nodeId isPut isAck
      exact durable_stable key value version _ label source target onward
        (post.2 key value ttlMs version nodeId isPut isAck)
  issue_pre name request source target onward := by
    rintro key value ttlMs rfl
    have allowed := onward.step.1
    simp only [countsDistinctHolders, Bool.and_eq_true] at allowed
    exact allowed.2
  inv_quiet _ _ _ _ _ := trivial
  misread_post call position source target misreading onward finds := by
    have allowed := onward.step.1
    simp only [countsDistinctHolders, Bool.and_eq_true] at allowed
    have sound := not_wrong_of_noMisread allowed.1.2 finds
    refine ⟨?_, ?_⟩
    · intro key value version ttlMs sourceNodeId acked nodeId isReplicate isAck
      simp [mistakesAck, isReplicate, isAck, Request.writes, Response.isAck]
        at sound
    · intro key value ttlMs version nodeId isPut isAck
      simp [mistakesAck, isPut, isAck, Request.writes, Response.isAck] at sound
  inv_env _ _ _ _ _ := trivial
  handler_safe index root name request world _ pre := by
    have harmless
        (notPut : ∀ key value ttlMs, request ≠ .put key value ttlMs)
        (notReplicate : ∀ key value version ttlMs sourceNodeId,
          request ≠ .replicate key value version ttlMs sourceNodeId) :
        cluster.durabilityContract.Safe cluster.durabilitySetting index root
          name request [] (cluster.service.handler name request) world := by
      refine Contract.Safe.of_within (within_handler name request)
        (fun _ _ _ _ _ _ _ _ _ => trivial) ?_ ?_ [] world
      · intro target called calls _ key value ttlMs isPut
        subst isPut
        cases calls with
        | forward value ttlMs notReplica replicasAre =>
            exact (notPut _ _ _ rfl).elim
      · intro response later
        exact
          ⟨fun _ _ _ _ _ _ _ isReplicate _ =>
              (notReplicate _ _ _ _ _ isReplicate).elim,
            fun _ _ _ _ _ isPut => (notPut _ _ _ isPut).elim⟩
    cases request with
    | put key value ttlMs => exact safe_put (pre key value ttlMs rfl)
    | replicate key value version ttlMs sourceNodeId =>
        intro later execution future reachable inv found sameNode sameRequest
          sameRoot phase allowed
        subst sameNode
        refine ⟨trivial, ?_, nofun⟩
        intro otherKey otherValue otherVersion otherTtl otherSource _ _ same _
        cases same
        simp only [countsDistinctHolders, Bool.and_eq_true] at allowed
        exact heldBy_current
          (absorbed_of_replicate allowed.1.1 found sameRequest phase)
    | get key =>
        exact harmless nofun nofun
    | delete key =>
        exact harmless nofun nofun
    | scan keyPrefix limit =>
        exact harmless nofun nofun
    | heartbeat nodeId timestampMs =>
        exact harmless nofun nofun

/-- In every run in which no replica acknowledges a `Replicate` that clashes with
an entry of the same version, no write takes the `Ack` of an earlier one for its own,
and no forwarding node asks for more than the first replica vouches for, each `Ack`
of a client `Put` is durable. -/
theorem acks_are_durable {world : ClusterWorld}
    (reachable :
      cluster.service.system.Reachable
        (fun network label => cluster.countsDistinctHolders network label = true)
        world) :
    cluster.AcksAreDurable world := by
  intro index execution key value ttlMs version nodeId found _ request ended
  have post :=
    (durability_sound cluster).post reachable found ended
  exact
    (post.2 key value ttlMs version nodeId request rfl).mono
      (Nat.le_max_right _ _)

/-! ## Runs on two nodes -/

/-- Two overlapping `Put`s on one node; the `Replicate` of the first one arrives
after that of the second one, and is refused. -/
theorem acks_are_durable_two_puts :
    ∃ world,
      (small ["node-1", "node-2"]).service.system.Reachable
          (fun network label =>
            (small ["node-1", "node-2"]).countsDistinctHolders network label =
              true)
          world ∧
        ((world.state.executions[0]?).any
              (fun execution => acksPut execution "node-1" "k" [1] 1) &&
            (world.state.executions[1]?).any
              (fun execution => acksPut execution "node-1" "k" [2] 2)) = true ∧
        (small ["node-1", "node-2"]).AcksAreDurable world := by
  obtain ⟨world, reachable, checked⟩ :=
    System.exists_reachable_of_replay
      (small ["node-1", "node-2"]).service.system
      (fun network label =>
        (small ["node-1", "node-2"]).countsDistinctHolders network label = true)
      (small ["node-1", "node-2"]).service.initial
      [.issue "node-1" (.put "k" [1] none),
        .issue "node-1" (.put "k" [2] none), .step 0, .step 1, .step 0, .step 1,
        .deliver 1, .step 2, .step 2, .deliver 0, .step 3, .step 3, .step 0,
        .step 0, .step 1, .step 1]
      (small ["node-1", "node-2"]).countsDistinctHolders
      (fun world =>
        (world.state.executions[0]?).any
            (fun execution => acksPut execution "node-1" "k" [1] 1) &&
          (world.state.executions[1]?).any
            fun execution => acksPut execution "node-1" "k" [2] 2)
      rfl (fun _ _ admitted => admitted) (by decide +kernel)
  exact ⟨world, reachable, checked, acks_are_durable reachable⟩

/-- A quorum of two among two replicas takes in the second one. -/
theorem heldBy_second {world : ClusterWorld} {value : Bytes} {version : UInt64}
    (durable :
      (small ["node-1", "node-2"]).Durable world "k" value version 2) :
    HeldBy world "k" value version "node-2" := by
  obtain ⟨holders, nodup, replicas, enough, held⟩ := durable
  have replicasAre :
      (small ["node-1", "node-2"]).replicas "k" = ["node-1", "node-2"] := by
    decide
  refine held "node-2" ?_
  by_contra absent
  have onlyFirst : ∀ holder, holder ∈ holders → holder ∈ ["node-1"] := by
    intro holder member
    have either := replicas holder member
    rw [replicasAre] at either
    rcases List.mem_cons.mp either with first | other
    · exact first ▸ List.mem_cons_self
    · rw [List.mem_singleton] at other
      exact (absent (other ▸ member)).elim
  have atMost : holders.length ≤ 1 :=
    (nodup.subperm onlyFirst).length_le
  omega

/-- At no moment has the node had anything under the key but these data in the
version 1. -/
def heldOnly (name key : String) (data : Bytes) (world : ClusterWorld) : Bool :=
  world.visitedStates.all fun network =>
    ((network.stores name).storage.lookup key).all
      fun entry => entry.version == 1 && entry.data == data

theorem not_heldBy_of_heldOnly {world : ClusterWorld} {name key : String}
    {data value : Bytes} {version : UInt64}
    (only : heldOnly name key data world = true)
    (higher : 1 ≤ version) (different : data ≠ value) :
    ¬ HeldBy world key value version name := by
  rintro ⟨network, visited, entry, stored, covers⟩
  rw [World.visited_iff_mem] at visited
  simp only [heldOnly, List.all_eq_true, Option.all_eq_true, Bool.and_eq_true,
    beq_iff_eq] at only
  obtain ⟨isOne, isData⟩ := only network visited entry stored
  rcases covers with ⟨_, same⟩ | later
  · exact different (isData.symm.trans same)
  · rw [isOne] at later
    exact absurd (UInt64.lt_of_lt_of_le later higher) (UInt64.lt_irrefl _)

/-- Two nodes coordinate a `Put` each and draw the same version: each refuses the
other's `Replicate` and acknowledges it, and one replica alone holds the write. -/
theorem not_acks_are_durable :
    ¬ ∀ (cluster : Cluster) (world : ClusterWorld),
      cluster.service.system.Reachable (fun _ _ => True) world →
      cluster.AcksAreDurable world := by
  intro durable
  obtain ⟨world, reachable, checked⟩ :=
    System.exists_reachable_of_replay
      (small ["node-1", "node-2"]).service.system (fun _ _ => True)
      (small ["node-1", "node-2"]).service.initial
      [.issue "node-1" (.put "k" [1] none),
        .issue "node-2" (.put "k" [2] none), .step 0, .step 1, .step 0,
        .deliver 0, .step 2, .step 2, .step 0, .step 0]
      (fun _ _ => true)
      (fun world =>
        (world.state.executions[0]?).any
            (fun execution => acksPut execution "node-1" "k" [1] 1) &&
          heldOnly "node-2" "k" [2] world)
      rfl (fun _ _ _ => trivial) (by decide +kernel)
  simp only [Bool.and_eq_true, Option.any_eq_true] at checked
  obtain ⟨⟨execution, found, acks⟩, only⟩ := checked
  obtain ⟨noCaller, node, request, ended⟩ := of_acksPut acks
  exact
    not_heldBy_of_heldOnly only (by decide) (by decide)
      (heldBy_second
        (durable _ world reachable 0 execution "k" [1] none 1 1 found noCaller
          request ended))

/-- A node gives up a `Replicate` that the other replica carries out, and takes the
`Ack` for the one of its next `Put`, which that replica has not got yet. -/
theorem not_acks_are_durable_of_stale_ack :
    ¬ ∀ (cluster : Cluster) (world : ClusterWorld),
      cluster.service.system.Reachable
        (fun network label => noVersionClash network label = true) world →
      (∀ name key, cluster.forwardsSoundly name key = true) →
      cluster.AcksAreDurable world := by
  intro durable
  obtain ⟨world, reachable, checked⟩ :=
    System.exists_reachable_of_replay
      (small ["node-1", "node-2"]).service.system
      (fun network label => noVersionClash network label = true)
      (small ["node-1", "node-2"]).service.initial
      [.issue "node-1" (.put "k" [1] none), .step 0, .step 0, .deliver 0,
        .fail ⟨0, 0, 0⟩ .elapsed, .step 1, .step 1, .step 0, .step 0,
        .issue "node-1" (.put "k" [2] none), .step 2, .step 2,
        .misread ⟨2, 0, 0⟩ 0, .step 2, .step 2]
      noVersionClash
      (fun world =>
        (world.state.executions[2]?).any
            (fun execution => acksPut execution "node-1" "k" [2] 2) &&
          heldOnly "node-2" "k" [1] world)
      rfl (fun _ _ admitted => admitted) (by decide +kernel)
  simp only [Bool.and_eq_true, Option.any_eq_true] at checked
  obtain ⟨⟨execution, found, acks⟩, only⟩ := checked
  obtain ⟨noCaller, node, request, ended⟩ := of_acksPut acks
  have sameQuorums (name key : String) :
      (small ["node-1", "node-2"]).forwardsSoundly name key = true := by
    unfold forwardsSoundly
    split
    · rfl
    · simp [small, sharing]
  exact
    not_heldBy_of_heldOnly only (by decide) (by decide)
      (heldBy_second
        (durable _ world reachable sameQuorums 2 execution "k" [2] none 2 1 found
          noCaller request ended))

end Cluster

end HautePerformance.KvDistributed
