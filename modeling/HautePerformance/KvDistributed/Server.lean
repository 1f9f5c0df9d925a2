import HautePerformance.Library.RpcTyping
import HautePerformance.KvDistributed.Replication

/-!
# The server and the cluster

`handle_request` of `server.rs`, and the cluster as a service of the network
library: every name is a node, and all nodes compute the same replicas for each
key.  The metrics counters are left out: no response depends on them.
-/

namespace HautePerformance.KvDistributed

open Library
open Library.Rpc

structure KvServer where
  nodeId : UInt32
  replicator : Replicator
  startedAt : Nat

namespace KvServer

variable (hash : String → UInt64)

/-- The response to a client `Get`. -/
def getResponse : Except ReplicationError (Option Bytes) → Response
  | .ok (some data) => .value (some data) 0
  | .ok none => .value none 0
  | .error cause => .error cause.text

/-- The response to a `Put`. -/
def putResponse (self : KvServer) :
    Except ReplicationError UInt64 → Response
  | .ok version => .ack version self.nodeId
  | .error cause => .error cause.text

/-- The response to a `Delete`. -/
def deleteResponse : Except ReplicationError Bool → Response
  | .ok existed => .deleted existed
  | .error cause => .error cause.text

/-- The whole seconds of `started_at.elapsed()`. -/
def uptimeS (self : KvServer) (now : Nat) : UInt64 :=
  UInt64.ofNat ((now - self.startedAt) / 1000000000)

/-- `KvServer::handle_request`.  `Replicate` answers with an ack whatever
`put_with_version` returns. -/
def handleRequest (self : KvServer) : Request → NodeProg Response
  | .get key =>
      (self.replicator.getReplicated hash key).map getResponse
  | .put key value ttlMs =>
      (self.replicator.putReplicated hash key value ttlMs).map
        self.putResponse
  | .delete key =>
      (self.replicator.deleteReplicated hash key).map deleteResponse
  | .scan keyPrefix limit =>
      .atomic id fun node =>
        .done
          (.scanResult
            ((node.storage.scan keyPrefix limit.toNat node.now).map
              fun item => (item.1, item.2.data)))
  | .replicate key value version ttlMs _ =>
      .atomic (·.putWithVersion key value version ttlMs) fun _ =>
        .done (.ack version self.nodeId)
  | .heartbeat _ _ =>
      .atomic id fun node =>
        .done
          (.pong self.nodeId (UInt64.ofNat node.storage.len)
            (self.uptimeS node.now))

/-- An `Ack` means that the quorum was met, and carries the version of the write. -/
theorem of_putResponse_decideQuorum {self : KvServer}
    {replicator : Replicator} {version acked : UInt64} {acks : Nat}
    {nodeId : UInt32}
    (isAck :
      self.putResponse (replicator.decideQuorum version acks) =
        .ack acked nodeId) :
    replicator.writeQuorum ≤ acks ∧ acked = version := by
  cases decided : replicator.decideQuorum version acks with
  | ok result =>
      obtain ⟨enough, same⟩ := Replicator.decideQuorum_eq_ok decided
      simp only [decided, putResponse, Response.ack.injEq] at isAck
      exact ⟨enough, isAck.1.symm.trans same⟩
  | error cause =>
      simp [decided, putResponse] at isAck

end KvServer

/-- What happens on a node besides the requests: its clock advances, and the
background task purges the expired entries. -/
inductive NodeEvent where
  | tick (elapsed : Nat)
  | purge
  deriving DecidableEq, Repr

def NodeEvent.apply : NodeEvent → NodeState → NodeState
  | .tick elapsed, node => { node with now := node.now + elapsed }
  | .purge, node =>
      { node with storage := (node.storage.purgeExpired node.now).2 }

/-- Nodes that agree on the replicas of every key.  Their replication factors and
quorums may differ. -/
structure Cluster where
  hash : String → UInt64
  server : String → KvServer
  replicas : String → List String
  named : ∀ name, (server name).replicator.localNodeName = name
  agreement : ∀ name key,
    (server name).replicator.replicas hash key = replicas key

abbrev ClusterNetwork :=
  Network String NodeState Request Response CallError

abbrev ClusterLabel := Label String Request CallError NodeEvent

abbrev ClusterExecution :=
  Execution String NodeState Request Response CallError

abbrev ClusterMisreading :=
  Misreading String NodeState Request Response CallError

abbrev ClusterWorld :=
  NetworkWorld String NodeState Request Response CallError NodeEvent

namespace Cluster

variable (cluster : Cluster)

abbrev replicator (name : String) : Replicator :=
  (cluster.server name).replicator

/-- Every node boots with an empty engine. -/
def service :
    Service String NodeState Request Response CallError NodeEvent where
  handler name := (cluster.server name).handleRequest cluster.hash
  environment := NodeEvent.apply
  boot name :=
    { storage := StorageEngine.new
      now := (cluster.server name).startedAt }

/-- A cluster whose nodes share one ring, one pool of peers and one configuration,
as the integration tests boot it. -/
def sharing (hash : String → UInt64) (ring : ConsistentHashRing)
    (peers : List String) (replicationFactor writeQuorum : Nat)
    (nodeId : String → UInt32) : Cluster where
  hash := hash
  server name :=
    { nodeId := nodeId name
      replicator :=
        { nodeId := nodeId name
          localNodeName := name
          ring := ring
          peers := peers
          replicationFactor := replicationFactor
          writeQuorum := writeQuorum }
      startedAt := 0 }
  replicas key := ring.getNodes hash key replicationFactor
  named _ := rfl
  agreement _ _ := rfl

theorem nodup_replicas (key : String) : (cluster.replicas key).Nodup := by
  rw [← cluster.agreement "" key]
  exact ConsistentHashRing.nodup_getNodes _ _ _ _

theorem length_replicas_le (name key : String) :
    (cluster.replicas key).length ≤
      (cluster.replicator name).replicationFactor := by
  rw [← cluster.agreement name key]
  exact ConsistentHashRing.length_getNodes_le _ _ _ _

end Cluster

/-! ## A small cluster

The runs that show what can go wrong take place on two or three nodes with one
virtual node each, under the default replication factor and quorum. -/

namespace Cluster

/-- The virtual node of `node-i` is at position `i`, and every key before it. -/
def smallHash (text : String) : UInt64 :=
  if text = "node-1#vnode-0" then 1
  else if text = "node-2#vnode-0" then 2
  else if text = "node-3#vnode-0" then 3
  else 0

def smallNodeId (name : String) : UInt32 :=
  if name = "node-1" then 1 else if name = "node-2" then 2 else 3

/-- The ring of the given nodes. -/
def smallRing (names : List String) : ConsistentHashRing :=
  names.foldl (ConsistentHashRing.addNode smallHash) (.new 1)

def small (names : List String) : Cluster :=
  sharing smallHash (smallRing names) names 2 2 smallNodeId

/-- The execution answers a client `Put` of the key at the node. -/
def acksPut (execution : ClusterExecution) (name key : String) (value : Bytes)
    (version : UInt64) : Bool :=
  execution.caller.isNone && execution.node == name &&
    execution.request == .put key value none &&
    execution.response? == some (.ack version (smallNodeId name))

theorem of_acksPut {execution : ClusterExecution} {name key : String}
    {value : Bytes} {version : UInt64}
    (acks : acksPut execution name key value version = true) :
    execution.caller = none ∧ execution.node = name ∧
      execution.request = .put key value none ∧
      execution.phase = .finished (.ack version (smallNodeId name)) := by
  simp only [acksPut, Bool.and_eq_true, Option.isNone_iff_eq_none,
    beq_iff_eq] at acks
  obtain ⟨⟨⟨noCaller, node⟩, request⟩, response⟩ := acks
  exact ⟨noCaller, node, request, Execution.phase_of_response? response⟩

example : (small ["node-1", "node-2", "node-3"]).replicas "k" =
    ["node-1", "node-2"] := by
  decide

end Cluster

/-! ## The storage operation of a request -/

namespace Request

/-- The one operation on the local storage that serving a request may perform. -/
def action : Request → NodeState → NodeState
  | .get key => (·.get key)
  | .put key value ttlMs => (·.put key value ttlMs)
  | .delete key => (·.delete key)
  | .scan _ _ => id
  | .replicate key value version ttlMs _ =>
      (·.putWithVersion key value version ttlMs)
  | .heartbeat _ _ => id

/-- The requests whose operation stores an entry under the key. -/
def stores (key : String) : Request → Bool
  | .put other _ _ => other == key
  | .replicate other _ _ _ _ => other == key
  | _ => false

/-- The requests that ask for a write. -/
def writes : Request → Bool
  | .put _ _ _ => true
  | .replicate _ _ _ _ _ => true
  | _ => false

/-- The `Put`s. -/
def isPut : Request → Bool
  | .put _ _ _ => true
  | _ => false

/-- The requests about one key. -/
def key? : Request → Option String
  | .get key => some key
  | .put key _ _ => some key
  | .delete key => some key
  | .scan _ _ => none
  | .replicate key _ _ _ _ => some key
  | .heartbeat _ _ => none

end Request

namespace Response

/-- The response acknowledges a write. -/
def isAck : Response → Bool
  | .ack _ _ => true
  | _ => false

/-- The response returns the data of an entry. -/
def hasData : Response → Bool
  | .value (some _) _ => true
  | _ => false

end Response

/-! ## Responses of other calls -/

namespace Cluster

/-- No call takes a response that an earlier call on its connection has left, when
that would be wrong. -/
def noMisread (wrong : ClusterMisreading → Bool) (network : ClusterNetwork)
    (label : ClusterLabel) : Bool :=
  (network.misreads? label).all fun misreading => !wrong misreading

theorem not_wrong_of_noMisread {wrong : ClusterMisreading → Bool}
    {network : ClusterNetwork} {call : CallId} {position : Nat}
    {misreading : ClusterMisreading}
    (guarded : noMisread wrong network (.misread call position) = true)
    (finds : network.misreading? call position = some misreading) :
    wrong misreading = false := by
  simpa [noMisread, Network.misreads?, finds] using guarded

end Cluster

end HautePerformance.KvDistributed
