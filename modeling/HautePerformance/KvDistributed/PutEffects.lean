import Mathlib.Data.List.Count
import HautePerformance.Library.RpcLogic
import HautePerformance.Library.RpcTally
import HautePerformance.KvDistributed.Server

/-!
# What one client `Put` causes

A node that is no replica forwards a `Put`, and replicates once more when it comes
back.  All the same one client `Put` draws one version: it causes at most one
local write, one forwarded `Put` and `2 R - 1` `Replicate` messages, where `R` is
the number of replicas, and every `Replicate` carries the client's data and the
version of that write, unless the node takes the `Ack` of an earlier call for the one
of the forwarded `Put`.

The counts come from a price for each request, the version from a contract.  The
nodes need to agree on the replicas of the key of the `Put` only.
-/

namespace HautePerformance.KvDistributed

open Library
open Library.Rpc

/-- Servers on their nodes, whatever they believe about each other's rings. -/
def KvServer.serviceOf (hash : String → UInt64) (server : String → KvServer) :
    Service String NodeState Request Response CallError NodeEvent where
  handler name := (server name).handleRequest hash
  environment := NodeEvent.apply
  boot name :=
    { storage := StorageEngine.new
      now := (server name).startedAt }

/-- Every node answers to its name and computes these replicas for the key. -/
structure KvServer.AgreeOn (hash : String → UInt64) (server : String → KvServer)
    (key : String) (replicas : List String) : Prop where
  named : ∀ name, (server name).replicator.localNodeName = name
  agreement : ∀ name, (server name).replicator.replicas hash key = replicas

namespace Request

/-- The `Put` itself or a `Replicate` with its data. -/
def Carries (key : String) (value : Bytes) (ttlMs : Option UInt64)
    (request : Request) : Prop :=
  request = .put key value ttlMs ∨
    ∃ version sourceNodeId,
      request = .replicate key value version ttlMs sourceNodeId

end Request

/-- Some step of the run made on behalf of the client request is the local write of
the data, which draws the version. -/
def Drawn (root : Nat) (key : String) (value : Bytes) (ttlMs : Option UInt64)
    (version : UInt64) (world : ClusterWorld) : Prop :=
  ∃ (network : ClusterNetwork) (index : Nat) (execution : ClusterExecution)
    (next : NodeState → NodeProg Response),
    (network, .step index) ∈ world.trace ∧
      network.executions[index]? = some execution ∧
      execution.root = root ∧
      execution.request = .put key value ttlMs ∧
      execution.phase = .running (.atomic (·.put key value ttlMs) next) ∧
      version =
        ((network.stores execution.node).storage.put key value
          (ttlMs.map durationFromMillis)
          (network.stores execution.node).now).1

/-- The recipients of one sending loop are replicas other than the sender. -/
theorem Replicator.length_replicateRequests_le (self : Replicator) (key : String)
    (value : Bytes) (version : UInt64) (ttlMs : Option UInt64)
    (replicas : List String) :
    (self.replicateRequests key value version ttlMs replicas).length ≤
      replicas.countP (· ≠ self.localNodeName) := by
  induction replicas with
  | nil => simp [replicateRequests]
  | cons replica rest inductionHypothesis =>
      simp only [replicateRequests]
      by_cases isLocal : replica = self.localNodeName
      · simpa [isLocal] using inductionHypothesis
      · by_cases inPool : replica ∈ self.peers
        · simpa [isLocal, inPool] using inductionHypothesis
        · simp only [isLocal, inPool, if_false, List.countP_cons]
          omega

/-- A replica has fewer other replicas than there are replicas. -/
theorem countP_ne_lt {name : String} {replicas : List String}
    (isReplica : name ∈ replicas) :
    replicas.countP (· ≠ name) ≤ replicas.length - 1 := by
  have fewer : replicas.countP (· ≠ name) < replicas.length :=
    List.countP_lt_length_iff.mpr ⟨name, isReplica, by simp⟩
  omega

namespace KvServer.AgreeOn

variable {hash : String → UInt64} {server : String → KvServer} {key : String}
variable {replicas : List String} {value : Bytes} {ttlMs : Option UInt64}
variable {tally : Tally Request} {write forward replicate : Nat}

/-- The price of a request when a local write of the data costs `write`,
forwarding the `Put` costs `forward` and each `Replicate` costs `replicate`. -/
def price (replicas : List String) (write forward replicate : Nat)
    (name : String) : Request → Nat
  | .put _ _ _ =>
      if name ∈ replicas then write + (replicas.length - 1) * replicate
      else
        forward + (write + (replicas.length - 1) * replicate) +
          replicas.length * replicate
  | _ => 0

/-- The tally charges no more than that for serving the `Put`, and nothing for
serving a `Replicate`. -/
structure Charges (tally : Tally Request) (key : String) (value : Bytes)
    (ttlMs : Option UInt64) (write forward replicate : Nat) : Prop where
  write : tally.act (.put key value ttlMs) ≤ write
  forward : tally.send (.put key value ttlMs) (.put key value ttlMs) ≤ forward
  replicate : ∀ version sourceNodeId,
    tally.send (.put key value ttlMs)
      (.replicate key value version ttlMs sourceNodeId) ≤ replicate
  replicated : ∀ version sourceNodeId,
    tally.act (.replicate key value version ttlMs sourceNodeId) = 0

/-- One round of `Replicate` messages. -/
theorem affords_sendReplicates
    (charges : Charges tally key value ttlMs write forward replicate)
    (self : Replicator) {recipients : Nat}
    (atMost : replicas.countP (· ≠ self.localNodeName) ≤ recipients)
    (version : UInt64) :
    (self.sendReplicates key value ttlMs replicas version).Affords tally
      (fun _ request => request.Carries key value ttlMs)
      (price replicas write forward replicate) (.put key value ttlMs)
      (recipients * replicate) := by
  have isReplicate {sent : String × Request}
      (member : sent ∈
        self.replicateRequests key value version ttlMs replicas) :
      sent.2 = .replicate key value version ttlMs self.nodeId :=
    (Replicator.mem_replicateRequests.mp member).2.2.2
  have length :=
    self.length_replicateRequests_le key value version ttlMs replicas
  refine ⟨0, ?_, ?_, fun outcomes => trivial⟩
  · have sending :
        ((self.replicateRequests key value version ttlMs replicas).map
          fun sent => tally.send (.put key value ttlMs) sent.2).sum ≤
        (self.replicateRequests key value version ttlMs replicas).length *
          replicate := by
      refine (List.sum_le_card_nsmul _ replicate ?_).trans (by simp)
      intro cost member
      obtain ⟨sent, sentMember, rfl⟩ := List.mem_map.mp member
      rw [isReplicate sentMember]
      exact charges.replicate version self.nodeId
    have free :
        ((self.replicateRequests key value version ttlMs replicas).map
          fun sent =>
            price replicas write forward replicate sent.1 sent.2).sum = 0 := by
      refine List.sum_eq_zero fun cost member => ?_
      obtain ⟨sent, sentMember, rfl⟩ := List.mem_map.mp member
      rw [isReplicate sentMember]
      rfl
    have bound :=
      Nat.mul_le_mul_right replicate (length.trans atMost)
    omega
  · intro target called member
    exact Or.inr ⟨version, self.nodeId, isReplicate member⟩

/-- The price of the `Put` covers its handler, on whichever node it arrives. -/
theorem affords_putReplicated (agree : AgreeOn hash server key replicas)
    (charges : Charges tally key value ttlMs write forward replicate)
    (name : String) :
    ((server name).replicator.putReplicated hash key value ttlMs).Affords tally
      (fun _ request => request.Carries key value ttlMs)
      (price replicas write forward replicate) (.put key value ttlMs)
      (price replicas write forward replicate name (.put key value ttlMs)) := by
  have named := agree.named name
  have computed := agree.agreement name
  by_cases isReplica : name ∈ replicas
  · rw [Replicator.putReplicated_of_mem value ttlMs computed (by rwa [named])]
    refine ⟨(replicas.length - 1) * replicate, ?_, fun node => ?_⟩
    · rw [price, if_pos isReplica]
      exact Nat.add_le_add_right charges.write _
    · refine affords_sendReplicates charges _ ?_ _
      rw [named]
      exact countP_ne_lt isReplica
  · by_cases inReach :
        ∃ target,
          replicas.head? = some target ∧
            target ∈ (server name).replicator.peers
    · obtain ⟨target, isFirst, inPool⟩ := inReach
      have targetReplica : target ∈ replicas := List.mem_of_mem_head? isFirst
      rw [Replicator.putReplicated_of_head value ttlMs computed
        (by rwa [named]) isFirst inPool]
      refine ⟨replicas.length * replicate, ?_, ?_, fun outcomes => ?_⟩
      · have forwarding := charges.forward
        simp only [List.map_cons, List.map_nil, List.sum_cons, List.sum_nil,
          price, if_pos targetReplica, if_neg isReplica]
        omega
      · intro other called member
        simp only [List.mem_singleton, Prod.mk.injEq] at member
        exact Or.inl member.2
      · dsimp only
        split
        · exact affords_sendReplicates charges _ List.countP_le_length _
        · trivial
    · rw [Replicator.putReplicated_unavailable value ttlMs computed
        (by rwa [named]) fun target isFirst inPool =>
          inReach ⟨target, isFirst, inPool⟩]
      trivial

/-- The prices hold on every node. -/
theorem prices (agree : AgreeOn hash server key replicas)
    (charges : Charges tally key value ttlMs write forward replicate) :
    tally.Prices (KvServer.serviceOf hash server)
      (fun _ request => request.Carries key value ttlMs)
      (price replicas write forward replicate) := by
  intro name request carries
  rcases carries with rfl | ⟨version, sourceNodeId, rfl⟩
  · exact (agree.affords_putReplicated charges name).map _
  · refine ⟨0, ?_, fun node => trivial⟩
    rw [charges.replicated]
    exact Nat.zero_le _

/-- Only the data of the client request travels, and each `Replicate`, as each
`Ack` of the `Put`, has the version of the local write. -/
def versionContract (root : Nat) (key : String) (value : Bytes)
    (ttlMs : Option UInt64) :
    Contract String NodeState Request Response CallError NodeEvent where
  Inv _ := True
  Pre serving _ request world :=
    serving = root →
      request = .put key value ttlMs ∨
        ∃ version sourceNodeId,
          request = .replicate key value version ttlMs sourceNodeId ∧
            Drawn root key value ttlMs version world
  Post serving _ request response world :=
    serving = root →
      ∀ version nodeId,
        request = .put key value ttlMs →
        response = .ack version nodeId →
        Drawn root key value ttlMs version world

/-- The forwarded `Put` of the client request takes the `Ack` that an earlier call
has left unread for its own. -/
def mistakesVersion (root : Nat) (misreading : ClusterMisreading) : Bool :=
  misreading.caller.root == root && misreading.request.isPut &&
    misreading.response.isAck

/-- The runs in which the client request is this `Put`, issued at this node, and
does not take the `Ack` of another call for its own. -/
abbrev versionSetting (hash : String → UInt64) (server : String → KvServer)
    (root : Nat) (name key : String) (value : Bytes) (ttlMs : Option UInt64) :
    Setting String NodeState Request Response CallError NodeEvent where
  service := KvServer.serviceOf hash server
  allowed network label :=
    Cluster.noMisread (mistakesVersion root) network label = true ∧
      Opens root name (.put key value ttlMs) network label

theorem drawn_stable
    {contract : Contract String NodeState Request Response CallError NodeEvent}
    {setting : Setting String NodeState Request Response CallError NodeEvent}
    (root : Nat) (key : String) (value : Bytes) (ttlMs : Option UInt64)
    (version : UInt64) :
    contract.Stable setting (Drawn root key value ttlMs version) := by
  rintro label source target onward
    ⟨network, index, execution, next, member, drawn⟩
  refine ⟨network, index, execution, next, ?_, drawn⟩
  rw [onward.step.2.2]
  exact List.mem_cons_of_mem _ member

variable {root index : Nat} {name origin : String}

/-- Once the version is drawn, the last round of a `Put` is safe. -/
theorem safe_sendReplicates {self : KvServer} {version : UInt64}
    {world : ClusterWorld} (drawn : Drawn root key value ttlMs version world) :
    (versionContract root key value ttlMs).Safe
      (versionSetting hash server root origin key value ttlMs) index root name
      (.put key value ttlMs) []
      ((self.replicator.sendReplicates key value ttlMs replicas version).map
        self.putResponse)
      world := by
  refine ⟨?_, ?_⟩
  · intro target called member _
    have isReplicate := (Replicator.mem_replicateRequests.mp member).2.2.2
    exact Or.inr ⟨version, self.replicator.nodeId, isReplicate, drawn⟩
  · intro later outcomes future answered _ acked nodeId _ isAck
    have decided := KvServer.of_putResponse_decideQuorum isAck
    rw [decided.2]
    exact (drawn_stable root key value ttlMs version).future future drawn

/-- Serving the `Put` keeps the contract. -/
theorem safe_put (agree : AgreeOn hash server key replicas)
    (world : ClusterWorld) :
    (versionContract root key value ttlMs).Safe
      (versionSetting hash server root origin key value ttlMs) index root name
      (.put key value ttlMs) []
      ((KvServer.serviceOf hash server).handler name (.put key value ttlMs))
      world := by
  have failed (cause : ReplicationError) (later : ClusterWorld) :
      (versionContract root key value ttlMs).Post root name
        (.put key value ttlMs) ((server name).putResponse (.error cause))
        later := by
    intro _ version nodeId _ isAck
    cases isAck
  have named := agree.named name
  have computed := agree.agreement name
  simp only [KvServer.serviceOf, KvServer.handleRequest]
  by_cases isReplica : name ∈ replicas
  · rw [Replicator.putReplicated_of_mem value ttlMs computed (by rwa [named])]
    intro later execution future reachable inv found sameNode sameRequest
      sameRoot phase allowed
    refine ⟨trivial, safe_sendReplicates ?_⟩
    refine ⟨later.state, index, execution, _, List.mem_cons_self, found,
      sameRoot, sameRequest, phase, ?_⟩
    rw [sameNode]
  · by_cases inReach :
        ∃ target,
          replicas.head? = some target ∧
            target ∈ (server name).replicator.peers
    · obtain ⟨target, isFirst, inPool⟩ := inReach
      rw [Replicator.putReplicated_of_head value ttlMs computed
        (by rwa [named]) isFirst inPool]
      refine ⟨?_, ?_⟩
      · intro other called member _
        simp only [List.mem_singleton, Prod.mk.injEq] at member
        exact Or.inl member.2
      · intro later outcomes future answered
        dsimp only
        split
        · rename_i version succeeded
          obtain ⟨nodeId, isOk⟩ := KvClient.putWithTtl_eq_ok succeeded
          have first := first_of_headD_ok isOk
          exact safe_sendReplicates
            (answered.post 0 target (.put key value ttlMs) _ rfl first rfl
              version nodeId rfl rfl)
        · exact failed _ later
    · rw [Replicator.putReplicated_unavailable value ttlMs computed
        (by rwa [named]) fun target isFirst inPool =>
          inReach ⟨target, isFirst, inPool⟩]
      exact failed _ world

end KvServer.AgreeOn

end HautePerformance.KvDistributed
