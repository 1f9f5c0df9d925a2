import Mathlib.Data.List.Perm.Subperm
import HautePerformance.Library.RpcFaults
import HautePerformance.KvDistributed.RequestTermination

/-!
# When a write gets through

A replica that receives a `Put` needs any `W - 1` other replicas.  A node that is
no replica forwards it to the first replica in ring order and to no other one: the
write gets through when that one is among the live replicas, however many of the
others are.
-/

namespace HautePerformance.KvDistributed

open Library
open Library.Rpc

namespace Replicator

variable {self : Replicator} {key : String} {value : Bytes}
variable {version : UInt64} {ttlMs : Option UInt64}

/-- The sender and the live replicas in its pool make at least as many acks as there
are live replicas. -/
theorem le_countAcks {replicas live : List String}
    {outcome : String × Request → Except CallError Response}
    (distinct : live.Nodup)
    (areReplicas : ∀ replica, replica ∈ live → replica ∈ replicas)
    (inPool : ∀ replica, replica ∈ live → replica ≠ self.localNodeName →
      replica ∈ self.peers)
    (acked : ∀ replica, replica ∈ live →
      isAck (outcome
        (replica, .replicate key value version ttlMs self.nodeId)) = true) :
    live.length ≤
      countAcks 1
        ((self.replicateRequests key value version ttlMs replicas).map
          outcome) := by
  let recipients : List (String × Request) :=
    (live.erase self.localNodeName).map fun replica =>
      (replica, .replicate key value version ttlMs self.nodeId)
  have recipientsDistinct : recipients.Nodup := by
    refine (distinct.erase _).map ?_
    intro first second same
    exact (Prod.mk.inj same).1
  have included :
      recipients ⊆
        (self.replicateRequests key value version ttlMs replicas).filter
          (isAck ∘ outcome) := by
    intro call member
    obtain ⟨replica, isOther, rfl⟩ := List.mem_map.mp member
    obtain ⟨notLocal, isLive⟩ := distinct.mem_erase_iff.mp isOther
    exact List.mem_filter.mpr
      ⟨mem_replicateRequests.mpr
        ⟨areReplicas replica isLive, notLocal, inPool replica isLive notLocal,
          rfl⟩,
        acked replica isLive⟩
  have atMost := (recipientsDistinct.subperm included).length_le
  have allButOne : live.length ≤ recipients.length + 1 := by
    simp only [recipients, List.length_map, List.length_erase]
    split
    · omega
    · omega
  rw [countAcks_eq, List.countP_map, List.countP_eq_length_filter]
  omega

/-- With enough acks the last round of a write gives its version. -/
theorem serveAmid_sendReplicates {replicas : List String} {name : String}
    {attempting : Attempting String NodeState Request Response CallError}
    (outcome : String × Request → Except CallError Response)
    (settled : ∀ target request,
      (target, request) ∈
        self.replicateRequests key value version ttlMs replicas →
      ∀ stores, ∃ later,
        attempting stores target request =
          some (outcome (target, request), later))
    (enough : self.writeQuorum ≤
      countAcks 1
        ((self.replicateRequests key value version ttlMs replicas).map
          outcome))
    (stores : String → NodeState) :
    ∃ later,
      (self.sendReplicates key value ttlMs replicas version).serveAmid
          attempting name [] stores =
        some (.ok version, later) := by
  obtain ⟨later, round⟩ :=
    attemptAll_eq_map (fun call => settled call.1 call.2) stores
  refine ⟨later, ?_⟩
  simp only [sendReplicates, Prog.serveAmid, List.nil_append, round,
    decideQuorum, if_pos enough]

end Replicator

namespace Cluster

variable (cluster : Cluster)

/-- These replicas of the key are enough for the quorum, and they answer the
receiving node and each other in time. -/
structure EnoughLive (fates : Fates String Request CallError)
    (name key : String) (writeQuorum : Nat) (live : List String) : Prop where
  distinct : live.Nodup
  areReplicas : ∀ replica, replica ∈ live → replica ∈ cluster.replicas key
  enough : writeQuorum ≤ live.length
  inPool : ∀ caller replica,
    caller = name ∨ caller ∈ live →
    replica ∈ live →
    replica ≠ caller →
    replica ∈ (cluster.replicator caller).peers
  inTime : ∀ caller replica request,
    caller = name ∨ caller ∈ live →
    replica ∈ live →
    fates caller replica request = .answered

/-- The `Put` comes to its end on the receiving node, with an `Ack`. -/
def PutSucceeds (fates : Fates String Request CallError)
    (stores : String → NodeState) (name key : String) (value : Bytes)
    (ttlMs : Option UInt64) : Prop :=
  ∃ fuel version later,
    cluster.service.serveAmid fates mutexHeld fuel [] stores name
        (.put key value ttlMs) =
      some (.ack version (cluster.server name).nodeId, later)

variable {cluster} {fates : Fates String Request CallError}
variable {name key : String} {writeQuorum : Nat} {live : List String}
variable {value : Bytes} {ttlMs : Option UInt64}

/-- How a node makes its calls; those in `chain` are waiting meanwhile. -/
abbrev attempting (cluster : Cluster) (fates : Fates String Request CallError)
    (fuel : Nat) (chain : List (String × String)) (caller : String) :
    Attempting String NodeState Request Response CallError :=
  fun stores target called =>
    (fates caller target called).meet stores
      (if mutexHeld chain (caller, target) then none
      else
        cluster.service.serveAmid fates mutexHeld fuel
          ((caller, target) :: chain) stores target called)

/-- What a `Put` returns when it is served on a node. -/
theorem serveAmid_put {fuel : Nat} {chain : List (String × String)}
    {stores later : String → NodeState} {caller : String} {version : UInt64}
    (returned :
      ((cluster.replicator caller).putReplicated cluster.hash key value
        ttlMs).serveAmid (cluster.attempting fates fuel chain caller) caller []
          stores =
        some (.ok version, later)) :
    cluster.service.serveAmid fates mutexHeld (fuel + 1) chain stores caller
        (.put key value ttlMs) =
      some (.ack version (cluster.server caller).nodeId, later) := by
  simp only [Service.serveAmid, service, KvServer.handleRequest,
    Prog.serveAmid_map]
  exact congrArg
    (Option.map fun served =>
      ((cluster.server caller).putResponse served.1, served.2)) returned

/-- The last round of a write meets the quorum. -/
theorem lastRound_succeeds
    (uniform : ∀ node, (cluster.replicator node).writeQuorum = writeQuorum)
    (enoughLive : cluster.EnoughLive fates name key writeQuorum live)
    {caller : String} (knows : caller = name ∨ caller ∈ live)
    {chain : List (String × String)}
    (free : ∀ replica, (caller, replica) ∉ chain) (fuel : Nat)
    (value : Bytes) (ttlMs : Option UInt64) (version : UInt64)
    (stores : String → NodeState) :
    ∃ later,
      ((cluster.replicator caller).sendReplicates key value ttlMs
        (cluster.replicas key) version).serveAmid
          (cluster.attempting fates (fuel + 1) chain caller) caller [] stores =
        some (.ok version, later) := by
  refine Replicator.serveAmid_sendReplicates
    (fun call =>
      (fates caller call.1 call.2).outcome
        (.ack version (cluster.server call.1).nodeId)) ?_ ?_ stores
  · intro target request member before
    have isReplicate := (Replicator.mem_replicateRequests.mp member).2.2.2
    have notHeld : mutexHeld chain (caller, target) = false := by
      simp [mutexHeld, free target]
    subst isReplicate
    simp only [attempting, notHeld]
    exact Fate.meet_some _ _ _ _
  · rw [uniform caller]
    refine enoughLive.enough.trans
      (Replicator.le_countAcks enoughLive.distinct enoughLive.areReplicas ?_ ?_)
    · intro replica isLive notLocal
      rw [cluster.named] at notLocal
      exact enoughLive.inPool caller replica knows isLive notLocal
    · intro replica isLive
      rw [enoughLive.inTime caller replica _ knows isLive]
      rfl

/-- A replica writes the data itself and then needs the quorum only. -/
theorem serveAmid_put_of_replica
    (uniform : ∀ node, (cluster.replicator node).writeQuorum = writeQuorum)
    (enoughLive : cluster.EnoughLive fates name key writeQuorum live)
    {caller : String} (knows : caller = name ∨ caller ∈ live)
    (isReplica : caller ∈ cluster.replicas key)
    (chain : List (String × String))
    (free : ∀ replica, (caller, replica) ∉ chain) (fuel : Nat)
    (stores : String → NodeState) :
    ∃ version later,
      cluster.service.serveAmid fates mutexHeld (fuel + 2) chain stores caller
          (.put key value ttlMs) =
        some (.ack version (cluster.server caller).nodeId, later) := by
  let written : String → NodeState :=
    Function.update stores caller ((stores caller).put key value ttlMs)
  obtain ⟨later, round⟩ :=
    lastRound_succeeds uniform enoughLive knows free fuel value ttlMs
      ((stores caller).storage.put key value (ttlMs.map durationFromMillis)
        (stores caller).now).1
      written
  refine
    ⟨((stores caller).storage.put key value (ttlMs.map durationFromMillis)
        (stores caller).now).1, later, serveAmid_put ?_⟩
  rw [Replicator.putReplicated_of_mem value ttlMs
    (cluster.agreement caller key) (by rwa [cluster.named])]
  exact round

/-- A write gets through on a replica, and on any other node when the first
replica is among the live ones.  Each call is heard with the response to its own
request: no earlier call on its connection has left one behind. -/
theorem put_succeeds
    (uniform : ∀ node, (cluster.replicator node).writeQuorum = writeQuorum)
    (enoughLive : cluster.EnoughLive fates name key writeQuorum live)
    (inReach : name ∈ cluster.replicas key ∨
      ∃ first, (cluster.replicas key).head? = some first ∧ first ∈ live)
    (stores : String → NodeState) (value : Bytes) (ttlMs : Option UInt64) :
    cluster.PutSucceeds fates stores name key value ttlMs := by
  by_cases isReplica : name ∈ cluster.replicas key
  · obtain ⟨version, later, served⟩ :=
      serveAmid_put_of_replica uniform enoughLive (Or.inl rfl) isReplica
        [] (fun _ => List.not_mem_nil) 0 stores
    exact ⟨2, version, later, served⟩
  · obtain ⟨first, isFirst, firstLive⟩ := inReach.resolve_left isReplica
    have firstReplica : first ∈ cluster.replicas key :=
      List.mem_of_mem_head? isFirst
    have notLocal : first ≠ name := fun same => isReplica (same ▸ firstReplica)
    have inPool :=
      enoughLive.inPool name first (Or.inl rfl) firstLive notLocal
    have free (replica : String) : (first, replica) ∉ [(name, first)] := by
      simp [notLocal]
    obtain ⟨version, middle, forwarded⟩ :=
      serveAmid_put_of_replica uniform enoughLive (Or.inr firstLive)
        firstReplica [(name, first)] free 0 stores
    have noneHeld (replica : String) : (name, replica) ∉ [] :=
      List.not_mem_nil
    obtain ⟨later, round⟩ :=
      lastRound_succeeds uniform enoughLive (Or.inl rfl) noneHeld 1 value ttlMs
        version middle
    refine ⟨3, version, later, serveAmid_put ?_⟩
    rw [Replicator.putReplicated_of_head value ttlMs
      (cluster.agreement name key) (by rwa [cluster.named]) isFirst inPool]
    have answered : fates name first (.put key value ttlMs) = .answered :=
      enoughLive.inTime name first _ (Or.inl rfl) firstLive
    have call :
        cluster.attempting fates 2 [] name stores first
            (.put key value ttlMs) =
          some (.ok (.ack version (cluster.server first).nodeId), middle) := by
      simp only [attempting, answered, Fate.meet, mutexHeld, List.not_mem_nil,
        decide_false, Bool.false_eq_true, if_false]
      exact congrArg (Option.map _) forwarded
    rw [Replicator.ask, Prog.serveAmid_call, call]
    exact round

/-! ## Three nodes, two replicas and a quorum of one -/

def singleQuorum : Cluster :=
  sharing smallHash (smallRing ["node-1", "node-2", "node-3"])
    ["node-1", "node-2", "node-3"] 2 1 smallNodeId

/-- Nobody can connect to the crashed node. -/
def crashed (node : String) : Fates String Request CallError :=
  fun _ target _ =>
    if target = node then .refused (.io "connection refused") else .answered

theorem replicas_singleQuorum :
    singleQuorum.replicas "k" = ["node-1", "node-2"] := by
  decide

/-- One live replica is enough for a quorum of one. -/
theorem enoughLive_singleQuorum {replica dead : String}
    (isReplica : replica ∈ ["node-1", "node-2"]) (other : replica ≠ dead) :
    singleQuorum.EnoughLive (crashed dead) "node-3" "k" 1 [replica] where
  distinct := List.nodup_singleton replica
  areReplicas := by
    intro live member
    rw [List.mem_singleton.mp member, replicas_singleQuorum]
    exact isReplica
  enough := Nat.le_refl 1
  inPool := by
    intro caller live _ member _
    rw [List.mem_singleton.mp member]
    exact List.mem_append_left ["node-3"] isReplica
  inTime := by
    intro caller live request _ member
    rw [List.mem_singleton.mp member]
    exact if_neg other

/-- With its second replica crashed the key can be written from the third node. -/
theorem put_succeeds_second_crashed :
    singleQuorum.PutSucceeds (crashed "node-2") singleQuorum.service.boot
      "node-3" "k" [1] none := by
  have firstLive :
      singleQuorum.EnoughLive (crashed "node-2") "node-3" "k" 1 ["node-1"] :=
    enoughLive_singleQuorum (by decide) (by decide)
  exact put_succeeds (fun _ => rfl) firstLive
    (Or.inr ⟨"node-1", by decide, by decide⟩) singleQuorum.service.boot [1] none

/-- With its first replica crashed it cannot: the write is forwarded to that one
only. -/
theorem first_replica_decides :
    ¬ ∀ (cluster : Cluster) (writeQuorum : Nat)
        (fates : Fates String Request CallError) (stores : String → NodeState)
        (name key : String) (value : Bytes) (ttlMs : Option UInt64)
        (live : List String),
      (∀ node, (cluster.replicator node).writeQuorum = writeQuorum) →
      cluster.EnoughLive fates name key writeQuorum live →
      cluster.PutSucceeds fates stores name key value ttlMs := by
  intro available
  obtain ⟨fuel, version, later, served⟩ :=
    available singleQuorum 1 (crashed "node-1") singleQuorum.service.boot
      "node-3" "k" [1] none ["node-2"] (fun _ => rfl)
      (enoughLive_singleQuorum (by decide) (by decide))
  cases fuel with
  | zero => cases served
  | succ fuel =>
      have refused :
          singleQuorum.service.serveAmid (crashed "node-1") mutexHeld
              (fuel + 1) [] singleQuorum.service.boot "node-3"
              (.put "k" [1] none) =
            some (.error "erreur réseau : connection refused",
              singleQuorum.service.boot) :=
        rfl
      rw [refused] at served
      cases served

end Cluster

end HautePerformance.KvDistributed
