import HautePerformance.KvDistributed.AcknowledgedReads
import HautePerformance.KvDistributed.ScanAgreement
import HautePerformance.KvDistributed.ScanResults

/-!
# Where values come from

Requests may be delayed, delivered after their sender has given up, or lost, and
replicas may disagree.  But no node makes anything up: what a node stores, what it
returns for a key and what it lists was sent to the cluster by a client, under that
key, and a `Delete` that has found something has found such a value.  The responses
are at fault only where a call takes the answer to an earlier one for its own.
-/

namespace HautePerformance.KvDistributed

open Library
open Library.Rpc

/-! ## Puts of clients -/

namespace Cluster

/-- A client has sent a `Put` of the value, with this time to live. -/
def ClientPut (network : ClusterNetwork) (key : String) (value : Bytes)
    (ttlMs : Option UInt64) : Prop :=
  ∃ (index : Nat) (writer : ClusterExecution),
    network.executions[index]? = some writer ∧
      writer.caller = none ∧
      writer.request = .put key value ttlMs

/-- The entry holds what a client has put there. -/
def IsPut (network : ClusterNetwork) (key : String) (entry : ValueEntry) : Prop :=
  ∃ ttlMs,
    ClientPut network key entry.data ttlMs ∧
      entry.ttl = ttlMs.map durationFromMillis

/-- What the response of a node says about values is true of what clients have
put. -/
def Backed (cluster : Cluster) (network : ClusterNetwork) (name : String) :
    Request → Response → Prop
  | .get key, .value (some data) _ => ∃ ttlMs, ClientPut network key data ttlMs
  | .delete key, .deleted true => ∃ data ttlMs, ClientPut network key data ttlMs
  | .scan keyPrefix _, .scanResult items =>
      ∀ key data, (key, data) ∈ items →
        StorageEngine.startsWith key keyPrefix = true ∧
          name ∈ cluster.replicas key ∧
          ∃ ttlMs, ClientPut network key data ttlMs
  | _, _ => True

variable {cluster : Cluster} {network target : ClusterNetwork} {key name : String}

theorem ClientPut.persists {value : Bytes} {ttlMs : Option UInt64}
    (isPut : ClientPut network key value ttlMs)
    (persists : network.Persists target) : ClientPut target key value ttlMs := by
  obtain ⟨index, writer, found, isClient, request⟩ := isPut
  obtain ⟨later, foundLater, evolves⟩ := persists index writer found
  exact ⟨index, later, foundLater, evolves.caller.trans isClient,
    evolves.request.trans request⟩

theorem IsPut.persists {entry : ValueEntry} (isPut : IsPut network key entry)
    (persists : network.Persists target) : IsPut target key entry := by
  obtain ⟨ttlMs, writer, sameTtl⟩ := isPut
  exact ⟨ttlMs, writer.persists persists, sameTtl⟩

theorem Backed.persists {request : Request} {response : Response}
    (backed : cluster.Backed network name request response)
    (persists : network.Persists target) :
    cluster.Backed target name request response := by
  revert backed
  unfold Backed
  split
  · rintro ⟨ttlMs, isPut⟩
    exact ⟨ttlMs, isPut.persists persists⟩
  · rintro ⟨data, ttlMs, isPut⟩
    exact ⟨data, ttlMs, isPut.persists persists⟩
  · intro backed key data listed
    obtain ⟨starts, isReplica, ttlMs, isPut⟩ := backed key data listed
    exact ⟨starts, isReplica, ttlMs, isPut.persists persists⟩
  · exact id

/-! ## What the nodes store -/

variable (cluster)

variable {cluster}

end Cluster

end HautePerformance.KvDistributed
