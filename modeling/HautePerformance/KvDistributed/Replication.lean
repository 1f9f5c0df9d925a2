import HautePerformance.Library.Rpc
import HautePerformance.KvDistributed.ConsistentHash
import HautePerformance.KvDistributed.Protocol

/-!
# The replicator

The three replicated operations of `replication.rs` as handler programs: local
storage operations are atomic actions, `tokio::spawn` of a call spawns it, and
awaiting the tasks joins them.  The pool of peers is the list of their names.

The several steps of a storage operation are those of `StorageCall.step`.  Here they
are one, that of the insertion or removal; a result on the cluster that rests on the
order of versions asks for writes that do not overlap at a node
(`Cluster.writesAlone`).
-/

namespace HautePerformance.KvDistributed

open Library.Rpc

namespace NodeState

def get (node : NodeState) (key : String) : NodeState :=
  { node with storage := (node.storage.get key node.now).2 }

def put (node : NodeState) (key : String) (value : Bytes)
    (ttlMs : Option UInt64) : NodeState :=
  { node with
    storage :=
      (node.storage.put key value (ttlMs.map durationFromMillis) node.now).2 }

def putWithVersion (node : NodeState) (key : String) (value : Bytes)
    (version : UInt64) (ttlMs : Option UInt64) : NodeState :=
  { node with
    storage :=
      (node.storage.putWithVersion key value version
        (ttlMs.map durationFromMillis) node.now).2 }

def delete (node : NodeState) (key : String) : NodeState :=
  { node with storage := (node.storage.delete key).2 }

end NodeState

inductive ReplicationError where
  | quorumNotMet (acks required : Nat)
  | noReplicaAvailable
  | network (cause : String)
  deriving DecidableEq, Repr

/-- The `thiserror` texts. -/
def ReplicationError.text : ReplicationError → String
  | .quorumNotMet acks required =>
      "quorum non atteint : " ++ toString acks ++ "/" ++ toString required ++
        " acks reçus"
  | .noReplicaAvailable => "aucun réplica disponible pour la clé"
  | .network cause => "erreur réseau : " ++ cause

/-- A program that runs on a node. -/
abbrev NodeProg (Result : Type) :=
  Prog String NodeState Request Response CallError Result

structure Replicator where
  nodeId : UInt32
  localNodeName : String
  ring : ConsistentHashRing
  peers : List String
  replicationFactor : Nat := 2
  writeQuorum : Nat := 2

namespace Replicator

variable (hash : String → UInt64)

/-- The replicas of a key, as each operation begins by computing them.  A
replication factor from `2 ^ 59` on, with which `getNodes?` panics at the first
request, is left out: the nodes of the ring are the replicas then too. -/
def replicas (self : Replicator) (key : String) : List String :=
  self.ring.getNodes hash key self.replicationFactor

/-- One call and what the client method makes of its outcome. -/
def ask {Result Read : Type} (target : String) (request : Request)
    (read : Except CallError Response → Except CallError Read)
    (next : Except CallError Read → NodeProg Result) : NodeProg Result :=
  Prog.call target request (.error .elapsed) fun outcome => next (read outcome)

/-- The `Replicate` requests of the sending loop: the local node and the nodes
that are not in the pool are skipped. -/
def replicateRequests (self : Replicator) (key : String) (value : Bytes)
    (version : UInt64) (ttlMs : Option UInt64) :
    List String → List (String × Request)
  | [] => []
  | replica :: rest =>
      if replica = self.localNodeName then
        replicateRequests self key value version ttlMs rest
      else if replica ∈ self.peers then
        (replica, .replicate key value version ttlMs self.nodeId) ::
          replicateRequests self key value version ttlMs rest
      else
        replicateRequests self key value version ttlMs rest

/-- The loop over the finished tasks: each success is one more ack. -/
def countAcks (acks : Nat) : List (Except CallError Response) → Nat
  | [] => acks
  | outcome :: rest =>
      match KvClient.replicate outcome with
      | .ok () => countAcks (acks + 1) rest
      | .error _ => countAcks acks rest

/-- The decision on the number of acks. -/
def decideQuorum (self : Replicator) (version : UInt64) (acks : Nat) :
    Except ReplicationError UInt64 :=
  if self.writeQuorum ≤ acks then .ok version
  else .error (.quorumNotMet acks self.writeQuorum)

/-- Step 3 of `put_replicated`: `Replicate` to the other replicas, one ack being
already there. -/
def sendReplicates (self : Replicator) (key : String) (value : Bytes)
    (ttlMs : Option UInt64) (replicas : List String) (version : UInt64) :
    NodeProg (Except ReplicationError UInt64) :=
  .spawn (self.replicateRequests key value version ttlMs replicas)
    (.join fun outcomes =>
      .done (self.decideQuorum version (countAcks 1 outcomes)))

/-- `Replicator::put_replicated`.  When the local node is no replica, the write is
forwarded to the first one, which is then also sent a `Replicate`. -/
def putReplicated (self : Replicator) (key : String) (value : Bytes)
    (ttlMs : Option UInt64) : NodeProg (Except ReplicationError UInt64) :=
  let replicas := self.replicas hash key
  match replicas with
  | [] => .done (.error .noReplicaAvailable)
  | target :: _ =>
      if self.localNodeName ∈ replicas then
        .atomic (·.put key value ttlMs) fun node =>
          self.sendReplicates key value ttlMs replicas
            (node.storage.put key value (ttlMs.map durationFromMillis)
              node.now).1
      else if target ∈ self.peers then
        ask target (.put key value ttlMs) KvClient.putWithTtl fun
          | .ok version =>
              self.sendReplicates key value ttlMs replicas version
          | .error cause => .done (.error (.network cause.text))
      else
        .done (.error .noReplicaAvailable)

/-- The loop of `get_replicated`: the first replica that has a value decides. -/
def getLoop (self : Replicator) (key : String) :
    List String → NodeProg (Except ReplicationError (Option Bytes))
  | [] => .done (.ok none)
  | replica :: rest =>
      if replica = self.localNodeName then
        .atomic (·.get key) fun node =>
          match (node.storage.get key node.now).1 with
          | some entry => .done (.ok (some entry.data))
          | none => getLoop self key rest
      else if replica ∈ self.peers then
        ask replica (.get key) KvClient.get fun
          | .ok (some value) => .done (.ok (some value))
          | .ok none => getLoop self key rest
          | .error _ => getLoop self key rest
      else
        getLoop self key rest

/-- `Replicator::get_replicated`. -/
def getReplicated (self : Replicator) (key : String) :
    NodeProg (Except ReplicationError (Option Bytes)) :=
  let replicas := self.replicas hash key
  if replicas.isEmpty then
    .done (.error .noReplicaAvailable)
  else
    self.getLoop key replicas

/-- The loop over the finished deletions. -/
def existedAnywhere (existed : Bool) :
    List (Except CallError Response) → Bool
  | [] => existed
  | outcome :: rest =>
      match KvClient.delete outcome with
      | .ok true => existedAnywhere true rest
      | _ => existedAnywhere existed rest

/-- The loop of `delete_replicated`, then the wait for its tasks. -/
def deleteLoop (self : Replicator) (key : String) :
    Bool → List String → NodeProg (Except ReplicationError Bool)
  | existed, [] =>
      .join fun outcomes => .done (.ok (existedAnywhere existed outcomes))
  | existed, replica :: rest =>
      if replica = self.localNodeName then
        .atomic (·.delete key) fun node =>
          if (node.storage.delete key).1 then deleteLoop self key true rest
          else deleteLoop self key existed rest
      else if replica ∈ self.peers then
        .spawn [(replica, .delete key)] (deleteLoop self key existed rest)
      else
        deleteLoop self key existed rest

/-- `Replicator::delete_replicated`. -/
def deleteReplicated (self : Replicator) (key : String) :
    NodeProg (Except ReplicationError Bool) :=
  self.deleteLoop key false (self.replicas hash key)

/-! ## The three ways of a write -/

section Ways

variable {hash} {self : Replicator} {key : String} {replicas : List String}

/-- A replica writes first, and then replicates. -/
theorem putReplicated_of_mem (value : Bytes) (ttlMs : Option UInt64)
    (computed : self.replicas hash key = replicas)
    (isReplica : self.localNodeName ∈ replicas) :
    self.putReplicated hash key value ttlMs =
      .atomic (·.put key value ttlMs) fun node =>
        self.sendReplicates key value ttlMs replicas
          (node.storage.put key value (ttlMs.map durationFromMillis)
            node.now).1 := by
  simp only [putReplicated, computed]
  cases replicas with
  | nil => cases isReplica
  | cons target rest => exact if_pos isReplica

/-- Another node forwards the write to the first replica, and then replicates. -/
theorem putReplicated_of_head {target : String} (value : Bytes)
    (ttlMs : Option UInt64) (computed : self.replicas hash key = replicas)
    (notReplica : self.localNodeName ∉ replicas)
    (isFirst : replicas.head? = some target) (inPool : target ∈ self.peers) :
    self.putReplicated hash key value ttlMs =
      ask target (.put key value ttlMs) KvClient.putWithTtl fun
        | .ok version =>
            self.sendReplicates key value ttlMs replicas version
        | .error cause => .done (.error (.network cause.text)) := by
  simp only [putReplicated, computed]
  cases replicas with
  | nil => cases isFirst
  | cons first rest =>
      cases isFirst
      exact (if_neg notReplica).trans (if_pos inPool)

/-- Without a replica in reach there is nothing to do. -/
theorem putReplicated_unavailable (value : Bytes) (ttlMs : Option UInt64)
    (computed : self.replicas hash key = replicas)
    (notReplica : self.localNodeName ∉ replicas)
    (outOfReach : ∀ target,
      replicas.head? = some target → target ∉ self.peers) :
    self.putReplicated hash key value ttlMs =
      .done (.error .noReplicaAvailable) := by
  simp only [putReplicated, computed]
  cases replicas with
  | nil => rfl
  | cons first rest =>
      exact (if_neg notReplica).trans (if_neg (outOfReach first rfl))

end Ways

/-! ## The recipients and the acks of a write -/

theorem mem_replicateRequests {self : Replicator} {key : String}
    {value : Bytes} {version : UInt64} {ttlMs : Option UInt64}
    {replicas : List String} {target : String} {request : Request} :
    (target, request) ∈
        self.replicateRequests key value version ttlMs replicas ↔
      target ∈ replicas ∧ target ≠ self.localNodeName ∧
        target ∈ self.peers ∧
        request = .replicate key value version ttlMs self.nodeId := by
  induction replicas with
  | nil => simp [replicateRequests]
  | cons replica rest inductionHypothesis =>
      simp only [replicateRequests]
      split
      · rename_i isLocal
        rw [inductionHypothesis]
        constructor
        · intro given
          obtain ⟨member, others⟩ := given
          exact ⟨List.mem_cons_of_mem _ member, others⟩
        · intro given
          obtain ⟨member, notLocal, others⟩ := given
          rcases List.mem_cons.mp member with here | later
          · exact (notLocal (here.trans isLocal)).elim
          · exact ⟨later, notLocal, others⟩
      · rename_i notLocal
        split
        · rename_i inPool
          simp only [List.mem_cons, Prod.mk.injEq, inductionHypothesis]
          constructor
          · rintro (⟨rfl, rfl⟩ | ⟨member, others⟩)
            · exact ⟨Or.inl rfl, notLocal, inPool, rfl⟩
            · exact ⟨Or.inr member, others⟩
          · rintro ⟨rfl | member, others⟩
            · exact Or.inl ⟨rfl, others.2.2⟩
            · exact Or.inr ⟨member, others⟩
        · rename_i absent
          rw [inductionHypothesis]
          constructor
          · intro given
            obtain ⟨member, others⟩ := given
            exact ⟨List.mem_cons_of_mem _ member, others⟩
          · intro given
            obtain ⟨member, notLocal, inPool, others⟩ := given
            rcases List.mem_cons.mp member with here | later
            · exact (absent (here ▸ inPool)).elim
            · exact ⟨later, notLocal, inPool, others⟩

/-- The recipients are replicas, each taken once. -/
theorem replicateRequests_sublist (self : Replicator) (key : String)
    (value : Bytes) (version : UInt64) (ttlMs : Option UInt64)
    (replicas : List String) :
    ((self.replicateRequests key value version ttlMs replicas).map
      Prod.fst).Sublist replicas := by
  induction replicas with
  | nil => simp [replicateRequests]
  | cons replica rest inductionHypothesis =>
      simp only [replicateRequests]
      split
      · exact inductionHypothesis.cons replica
      · split
        · exact inductionHypothesis.cons_cons replica
        · exact inductionHypothesis.cons replica

/-- The outcome is an acknowledgement. -/
def isAck (outcome : Except CallError Response) : Bool :=
  match KvClient.replicate outcome with
  | .ok () => true
  | .error _ => false

theorem countAcks_eq (outcomes : List (Except CallError Response)) :
    ∀ acks, countAcks acks outcomes = acks + outcomes.countP isAck := by
  induction outcomes with
  | nil => simp [countAcks]
  | cons outcome rest inductionHypothesis =>
      intro acks
      simp only [countAcks, List.countP_cons]
      split
      · rename_i acked
        rw [inductionHypothesis]
        simp [isAck, acked]
        omega
      · rename_i failed
        rw [inductionHypothesis]
        simp [isAck, failed]

theorem exists_ok_of_isAck {outcome : Except CallError Response}
    (acked : isAck outcome = true) :
    ∃ version nodeId, outcome = .ok (.ack version nodeId) := by
  unfold isAck at acked
  split at acked
  · rename_i succeeded
    exact KvClient.replicate_eq_ok succeeded
  · cases acked

/-- As many recipients as acknowledgements, each taken once. -/
theorem exists_ackers (property : String → Prop)
    {asked : List (String × Request)} :
    ∀ {outcomes : List (Except CallError Response)},
      outcomes.length = asked.length →
      (∀ (slot : Nat) (target : String) (request : Request)
        (version : UInt64) (nodeId : UInt32),
        asked[slot]? = some (target, request) →
        outcomes[slot]? = some (Except.ok (.ack version nodeId)) →
        property target) →
      ∃ ackers : List String,
        ackers.Sublist (asked.map Prod.fst) ∧
          ackers.length = outcomes.countP isAck ∧
          ∀ acker, acker ∈ ackers → property acker := by
  induction asked with
  | nil =>
      intro outcomes same _
      have noOutcome : outcomes = [] := List.eq_nil_of_length_eq_zero same
      exact ⟨[], by simp, by simp [noOutcome], by simp⟩
  | cons entry rest inductionHypothesis =>
      intro outcomes same answered
      cases outcomes with
      | nil => simp at same
      | cons outcome further =>
          obtain ⟨ackers, sublist, length, all⟩ :=
            inductionHypothesis (by simpa using same)
              fun slot target request version nodeId askedAt answeredAt =>
                answered (slot + 1) target request version nodeId
                  (by simpa using askedAt) (by simpa using answeredAt)
          cases acked : isAck outcome with
          | false =>
              exact ⟨ackers, sublist.cons entry.1,
                by simp [length, acked], all⟩
          | true =>
              obtain ⟨version, nodeId, isOk⟩ := exists_ok_of_isAck acked
              refine ⟨entry.1 :: ackers, sublist.cons_cons entry.1,
                by simp [length, acked], ?_⟩
              intro acker member
              rcases List.mem_cons.mp member with here | later
              · rw [here]
                exact answered 0 entry.1 entry.2 version nodeId rfl
                  (by simp [isOk])
              · exact all acker later

theorem decideQuorum_eq_ok {self : Replicator} {version result : UInt64}
    {acks : Nat} (decided : self.decideQuorum version acks = .ok result) :
    self.writeQuorum ≤ acks ∧ result = version := by
  unfold decideQuorum at decided
  split at decided
  · rename_i enough
    cases decided
    exact ⟨enough, rfl⟩
  · cases decided

end Replicator

end HautePerformance.KvDistributed
