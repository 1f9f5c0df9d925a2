import HautePerformance.Library.RpcEffects
import HautePerformance.KvDistributed.PutEffects
import HautePerformance.KvDistributed.ClusterSteps

/-!
# What a failed `Put` leaves behind

Nothing of a `Put` is ever taken back.  A `Put` that finds no replica has done
nothing; one that fails later has written its value where its executions got to,
and its value only, under its key only.
-/

namespace HautePerformance.KvDistributed

open Library
open Library.Rpc

/-! ## Effects on the entries of a node -/

/-- Each entry stays as it is, or it is the one of the key and becomes one with the
data and the time to live of the `Put`. -/
def OwnDataOnly (key : String) (value : Bytes) (ttlMs : Option UInt64)
    (before after : NodeState) : Prop :=
  ∀ other,
    after.storage.lookup other = before.storage.lookup other ∨
      other = key ∧
        ∃ entry,
          after.storage.lookup other = some entry ∧
            entry.data = value ∧
            entry.ttl = ttlMs.map durationFromMillis

namespace OwnDataOnly

variable {key : String} {value : Bytes} {ttlMs : Option UInt64}

theorem refl (node : NodeState) : OwnDataOnly key value ttlMs node node :=
  fun _ => Or.inl rfl

theorem trans {first second third : NodeState}
    (earlier : OwnDataOnly key value ttlMs first second)
    (later : OwnDataOnly key value ttlMs second third) :
    OwnDataOnly key value ttlMs first third := by
  intro other
  rcases later other with kept | written
  · rw [kept]
    exact earlier other
  · exact Or.inr written

end OwnDataOnly

namespace Cluster

variable {cluster : Cluster} {world : ClusterWorld} {root : Nat}
variable {origin : ClusterExecution} {key : String} {value : Bytes}
variable {ttlMs : Option UInt64}

variable {name : String}

end Cluster

end HautePerformance.KvDistributed
