import Mathlib.Data.Nat.Digits.Defs
import HautePerformance.KvDistributed.Wire
import HautePerformance.KvDistributed.ClusterSteps
import HautePerformance.Library.RpcEval

/-!
# Derived frames and the frame limit

A node that has accepted a request sends messages because of it.  A `Replicate` is
twelve bytes longer than the `Put` that it comes from, a scan collects as many
values as it finds, and an error repeats a text from outside, so such a message
may exceed the limit that the request met.
-/

namespace HautePerformance.KvDistributed

open Library
open Library.Rpc

/-! ## Sizes -/

namespace Request

theorem size_codec (request : Request) :
    codec.size request =
      4 + (RequestVariant.fields request.toFields.1).size
        request.toFields.2 := by
  rw [codec, Codec.size_through, Codec.size_sigma, RequestVariant.codec,
    Codec.size_enumeration]

theorem size_put (key : String) (value : Bytes) (ttlMs : Option UInt64) :
    codec.size (.put key value ttlMs) =
      20 + key.utf8ByteSize + value.length + Codec.u64.option.size ttlMs := by
  simp only [size_codec, toFields, RequestVariant.fields, Codec.size_pair,
    Codec.size_string, Codec.size_bytes]
  omega

/-- A `Replicate` carries a version and a source besides what the `Put` carries. -/
theorem size_replicate (key : String) (value : Bytes) (version : UInt64)
    (ttlMs : Option UInt64) (sourceNodeId : UInt32) :
    codec.size (.replicate key value version ttlMs sourceNodeId) =
      codec.size (.put key value ttlMs) + 12 := by
  rw [size_put]
  simp only [size_codec, toFields, RequestVariant.fields, Codec.size_pair,
    Codec.size_string, Codec.size_bytes, Codec.size_u64, Codec.size_u32]
  omega

end Request

namespace Response

theorem size_codec (response : Response) :
    codec.size response =
      4 + (ResponseVariant.fields response.toFields.1).size
        response.toFields.2 := by
  rw [codec, Codec.size_through, Codec.size_sigma, ResponseVariant.codec,
    Codec.size_enumeration]

theorem size_value_some (data : Bytes) (version : UInt64) :
    codec.size (.value (some data) version) = 21 + data.length := by
  simp only [size_codec, toFields, ResponseVariant.fields, Codec.size_pair,
    Codec.size_option_some, Codec.size_bytes, Codec.size_u64]
  omega

theorem size_value_none (version : UInt64) :
    codec.size (.value none version) = 13 := by
  simp only [size_codec, toFields, ResponseVariant.fields, Codec.size_pair,
    Codec.size_option_none, Codec.size_u64]

theorem size_ack (version : UInt64) (nodeId : UInt32) :
    codec.size (.ack version nodeId) = 16 := by
  simp only [size_codec, toFields, ResponseVariant.fields, Codec.size_pair,
    Codec.size_u64, Codec.size_u32]

theorem size_deleted (existed : Bool) :
    codec.size (.deleted existed) = 5 := by
  cases existed <;> rfl

theorem size_scanResult (items : List (String × Bytes)) :
    codec.size (.scanResult items) =
      12 +
        (items.map fun item =>
          16 + item.1.utf8ByteSize + item.2.length).sum := by
  have each : items.map ResponseVariant.item.size =
      items.map fun item => 16 + item.1.utf8ByteSize + item.2.length := by
    apply List.map_congr_left
    intro item _
    rw [ResponseVariant.item, Codec.size_pair, Codec.size_string,
      Codec.size_bytes]
    omega
  simp only [size_codec, toFields, ResponseVariant.fields, Codec.size_list,
    each]
  omega

theorem size_pong (nodeId : UInt32) (keysCount uptimeS : UInt64) :
    codec.size (.pong nodeId keysCount uptimeS) = 24 := by
  simp only [size_codec, toFields, ResponseVariant.fields, Codec.size_pair,
    Codec.size_u64, Codec.size_u32]

theorem size_error (message : String) :
    codec.size (.error message) = 12 + message.utf8ByteSize := by
  simp only [size_codec, toFields, ResponseVariant.fields, Codec.size_string]
  omega

end Response

/-! ## The texts of the errors -/

theorem utf8ByteSize_ofList_le :
    ∀ characters : List Char,
      (String.ofList characters).utf8ByteSize ≤ 4 * characters.length
  | [] => by
      simp
  | first :: rest => by
      have inductionHypothesis := utf8ByteSize_ofList_le rest
      have head := first.utf8Size_le_four
      rw [← List.singleton_append, String.ofList_append,
        String.utf8ByteSize_append, List.length_append, List.length_singleton]
      have single : (String.ofList [first]).utf8ByteSize = first.utf8Size := by
        simp
      omega

theorem utf8ByteSize_le (text : String) :
    text.utf8ByteSize ≤ 4 * text.length := by
  have bound := utf8ByteSize_ofList_le text.toList
  rwa [String.ofList_toList, String.length_toList] at bound

theorem utf8ByteSize_toString_le {n : Nat} (small : n ≤ 2 ^ 64) :
    (toString n).utf8ByteSize ≤ 80 := by
  have digits : (Nat.repr n).length ≤ 20 :=
    Nat.repr_length n 20 (by decide) (by omega)
  have bound := utf8ByteSize_le (Nat.repr n)
  have same : toString n = Nat.repr n := rfl
  rw [same]
  omega

/-- A message is written exactly when its payload is within the limit. -/
theorem exists_frame_iff {Message : Type} {codec : Codec Message}
    {message : Message} :
    (∃ frame, writeMessage codec message = .ok frame) ↔
      codec.size message ≤ maxFrameSize := by
  constructor
  · intro given
    obtain ⟨frame, written⟩ := given
    exact (writeMessage_eq_ok_iff.mp written).1
  · intro small
    exact ⟨_, writeMessage_eq_ok_iff.mpr ⟨small, rfl⟩⟩

/-- What is read fits in a frame: its encoding is a prefix of the payload. -/
theorem size_le_of_readMessage {Message : Type} {codec : Codec Message}
    {stream left : Bytes} {message : Message}
    (isRead : readMessage codec stream = .ok (message, left)) :
    codec.size message ≤ maxFrameSize := by
  unfold readMessage at isRead
  split at isRead
  · cases isRead
  · rename_i header rest _
    dsimp only at isRead
    split at isRead
    · cases isRead
    · rename_i small
      split at isRead
      · cases isRead
      · rename_i payload after taken
        split at isRead
        · rename_i found trailing decoded
          cases isRead
          obtain ⟨length, _⟩ := Codec.of_readExact taken
          rw [codec.encode_of_decode payload message trailing decoded,
            List.length_append] at length
          have size : (codec.encode message).length = codec.size message := rfl
          omega
        · cases isRead

/-! ## What a node emits -/

/-- The outcomes of the calls that a node makes, round by round. -/
abbrev Outside :=
  Nat → List (String × Request) → List (Except CallError Response)

/-- There is one outcome for each call, and a response among them has been read
from a frame. -/
structure Outside.Received (outside : Outside) : Prop where
  length : ∀ round asked, (outside round asked).length = asked.length
  fits : ∀ round asked response,
    Except.ok response ∈ outside round asked →
      Response.codec.size response ≤ maxFrameSize

/-- The outcome of a single call. -/
def Outside.single (outside : Outside) (round : Nat) (target : String)
    (request : Request) : Except CallError Response :=
  (outside round [(target, request)]).headD (.error .elapsed)

theorem Outside.Received.single_fits {outside : Outside}
    (received : outside.Received) {round : Nat} {target : String}
    {request : Request} {response : Response}
    (isOk : outside.single round target request = .ok response) :
    Response.codec.size response ≤ maxFrameSize :=
  received.fits round [(target, request)] response
    (List.mem_of_getElem? (first_of_headD_ok isOk))

namespace Cluster

variable (cluster : Cluster) (name : String)

/-- Every request that the node sends and its response are written. -/
def EmissionsWritten (node : NodeState) (outside : Outside)
    (request : Request) : Prop :=
  (∀ target sent,
    (target, sent) ∈
        (cluster.service.handler name request).spawned outside 0 [] node →
      ∃ frame, writeMessage Request.codec sent = .ok frame) ∧
    ∃ frame,
      writeMessage Response.codec
          ((cluster.service.handler name request).runWith outside 0 []
            node).1 = .ok frame

/-- The replicas before the local one give no value. -/
def ReachesLocal (outside : Outside) (key : String) :
    Nat → List String → Prop
  | _, [] => False
  | round, replica :: rest =>
      if replica = name then True
      else if replica ∈ (cluster.replicator name).peers then
        (∀ data,
          KvClient.get (outside.single round replica (.get key)) ≠
            .ok (some data)) ∧
          ReachesLocal outside key (round + 1) rest
      else ReachesLocal outside key round rest

/-- The node forwards a `Put` to this node. -/
def ForwardsTo (key target : String) : Prop :=
  name ∉ cluster.replicas key ∧
    (cluster.replicas key).head? = some target ∧
    target ∈ (cluster.replicator name).peers

/-- The node sends a `Replicate` to serve the `Put`: it is a replica and has another
one in its pool, or it has forwarded the `Put` and got a version. -/
def SendsReplicate (outside : Outside) (key : String) (value : Bytes)
    (ttlMs : Option UInt64) : Prop :=
  (name ∈ cluster.replicas key ∧
      ∃ replica, replica ∈ cluster.replicas key ∧ replica ≠ name ∧
        replica ∈ (cluster.replicator name).peers) ∨
    ∃ target version,
      cluster.ForwardsTo name key target ∧
        KvClient.putWithTtl
            (outside.single 0 target (.put key value ttlMs)) = .ok version

/-- What is derived from the request fits in a frame: the local entry that a `Get`
comes to, twelve bytes more than a `Put` that is replicated, the error of a `Put`
forwarded in vain, the entries that a `Scan` selects. -/
def DerivedFits (node : NodeState) (outside : Outside) : Request → Prop
  | .get key =>
      cluster.ReachesLocal name outside key 0 (cluster.replicas key) →
        ∀ entry,
          node.storage.lookup key = some entry →
          entry.isExpired node.now = false →
          21 + entry.data.length ≤ maxFrameSize
  | .put key value ttlMs =>
      (cluster.SendsReplicate name outside key value ttlMs →
        Request.codec.size (.put key value ttlMs) + 12 ≤ maxFrameSize) ∧
        ∀ target cause,
          cluster.ForwardsTo name key target →
          KvClient.putWithTtl
              (outside.single 0 target (.put key value ttlMs)) =
            .error cause →
          12 + (ReplicationError.network cause.text).text.utf8ByteSize ≤
            maxFrameSize
  | .scan keyPrefix limit =>
      12 +
        (((node.storage.iter.filter
            (StorageEngine.selects keyPrefix node.now)).take
              limit.toNat).map fun item =>
          16 + item.1.utf8ByteSize + item.2.data.length).sum ≤ maxFrameSize
  | _ => True

/-- The fields of the replicator are machine integers. -/
structure Sized : Prop where
  replicationFactor : (cluster.replicator name).replicationFactor < 2 ^ 64
  writeQuorum : (cluster.replicator name).writeQuorum < 2 ^ 64

variable {cluster name}

/-! ## Reads -/

/-- A read that asks peers only passes a value of theirs on. -/
theorem size_getLoop_remote {outside : Outside} (received : outside.Received)
    {key : String} :
    ∀ (replicas : List String) (round : Nat) (node : NodeState),
      name ∉ replicas →
      Response.codec.size
          (KvServer.getResponse
            (((cluster.replicator name).getLoop key replicas).runWith outside
              round [] node).1) ≤ maxFrameSize
  | [], round, node, _ => by
      have small : Response.codec.size (.value none 0) = 13 :=
        Response.size_value_none 0
      unfold maxFrameSize
      show Response.codec.size (.value none 0) ≤ _
      omega
  | replica :: rest, round, node, notLocal => by
      have restNotLocal : name ∉ rest := by
        intro member
        exact notLocal (List.mem_cons_of_mem _ member)
      have isRemote : replica ≠ name := by
        intro same
        exact notLocal (same ▸ List.mem_cons_self)
      simp only [Replicator.getLoop, cluster.named, if_neg isRemote]
      split
      · simp only [Replicator.ask, Prog.call, Prog.runWith, List.nil_append]
        split
        · rename_i data isValue
          obtain ⟨version, isOk⟩ := KvClient.get_eq_ok isValue
          have bound := received.single_fits isOk
          simp only [Prog.runWith, KvServer.getResponse]
          rw [Response.size_value_some] at bound ⊢
          exact bound
        · exact size_getLoop_remote received rest _ node restNotLocal
        · exact size_getLoop_remote received rest _ node restNotLocal
      · exact size_getLoop_remote received rest round node restNotLocal

/-- A read that begins at the node itself returns the live entry there, or goes on
to ask peers. -/
theorem size_getLoop_local {outside : Outside} (received : outside.Received)
    {key : String} {rest : List String} (fresh : name ∉ rest) (round : Nat)
    (node : NodeState) :
    Response.codec.size
        (KvServer.getResponse
          (((cluster.replicator name).getLoop key (name :: rest)).runWith
            outside round [] node).1) ≤ maxFrameSize ↔
      ∀ entry,
        node.storage.lookup key = some entry →
        entry.isExpired node.now = false →
        21 + entry.data.length ≤ maxFrameSize := by
  simp only [Replicator.getLoop, cluster.named, if_true, Prog.runWith]
  split
  · rename_i entry got
    obtain ⟨stored, live⟩ := StorageEngine.get_eq_some got
    simp only [Prog.runWith, KvServer.getResponse, Response.size_value_some]
    constructor
    · intro fits other otherStored _
      rw [stored] at otherStored
      cases otherStored
      exact fits
    · intro condition
      exact condition entry stored live
  · rename_i gotNone
    have small :
        Response.codec.size
            (KvServer.getResponse
              (((cluster.replicator name).getLoop key rest).runWith outside
                round [] (node.get key)).1) ≤ maxFrameSize :=
      size_getLoop_remote received rest round (node.get key) fresh
    refine ⟨?_, fun _ => small⟩
    intro _ entry stored live
    rw [(StorageEngine.get_of_live stored live).1] at gotNone
    cases gotNone

theorem size_getLoop_iff {outside : Outside} (received : outside.Received)
    {key : String} :
    ∀ (replicas : List String) (round : Nat) (node : NodeState),
      replicas.Nodup →
      (Response.codec.size
          (KvServer.getResponse
            (((cluster.replicator name).getLoop key replicas).runWith outside
              round [] node).1) ≤ maxFrameSize ↔
        (cluster.ReachesLocal name outside key round replicas →
          ∀ entry,
            node.storage.lookup key = some entry →
            entry.isExpired node.now = false →
            21 + entry.data.length ≤ maxFrameSize))
  | [], round, node, _ => by
      have small :
          Response.codec.size
              (KvServer.getResponse
                (((cluster.replicator name).getLoop key []).runWith outside
                  round [] node).1) ≤ maxFrameSize :=
        size_getLoop_remote received [] round node List.not_mem_nil
      exact ⟨fun _ impossible => impossible.elim, fun _ => small⟩
  | replica :: rest, round, node, nodup => by
      obtain ⟨fresh, restNodup⟩ := List.nodup_cons.mp nodup
      by_cases isLocal : replica = name
      · subst isLocal
        rw [size_getLoop_local received fresh]
        simp only [ReachesLocal, if_true, true_implies]
      · simp only [Replicator.getLoop, cluster.named, if_neg isLocal,
          ReachesLocal]
        split
        · have noData {outcome : Except CallError (Option Bytes)}
              (isOutcome :
                KvClient.get (outside.single round replica (.get key)) = outcome)
              (noValue : ∀ data, outcome ≠ .ok (some data)) (data : Bytes) :
              KvClient.get (outside.single round replica (.get key)) ≠
                .ok (some data) := by
            rw [isOutcome]
            exact noValue data
          simp only [Replicator.ask, Prog.call, Prog.runWith, List.nil_append]
          split
          · rename_i data isValue
            obtain ⟨version, isOk⟩ := KvClient.get_eq_ok isValue
            have bound := received.single_fits isOk
            simp only [Prog.runWith, KvServer.getResponse]
            rw [Response.size_value_some] at bound ⊢
            refine ⟨?_, fun _ => bound⟩
            intro _ reaches
            exact absurd isValue (reaches.1 data)
          · rename_i isNone
            rw [size_getLoop_iff received rest _ node restNodup,
              and_iff_right (noData isNone (by simp))]
          · rename_i cause isError
            rw [size_getLoop_iff received rest _ node restNodup,
              and_iff_right (noData isError (by simp))]
        · exact size_getLoop_iff received rest round node restNodup

/-! ## Writes -/

theorem countAcks_le (outcomes : List (Except CallError Response)) :
    Replicator.countAcks 1 outcomes ≤ 1 + outcomes.length := by
  have atMost : outcomes.countP Replicator.isAck ≤ outcomes.length :=
    List.countP_le_length
  rw [Replicator.countAcks_eq]
  omega

/-- The text of a quorum that was not met is short. -/
theorem utf8ByteSize_quorumNotMet_le {acks required : Nat}
    (fewAcks : acks ≤ 2 ^ 64) (fewRequired : required ≤ 2 ^ 64) :
    (ReplicationError.quorumNotMet acks required).text.utf8ByteSize ≤ 200 := by
  have acksText := utf8ByteSize_toString_le fewAcks
  have requiredText := utf8ByteSize_toString_le fewRequired
  -- with variables for the literals, which unification would unfold
  have append (a b c d e : String) :
      (a ++ b ++ c ++ d ++ e).utf8ByteSize =
        a.utf8ByteSize + b.utf8ByteSize + c.utf8ByteSize + d.utf8ByteSize +
          e.utf8ByteSize := by
    simp only [String.utf8ByteSize_append]
  have parts : (ReplicationError.quorumNotMet acks required).text.utf8ByteSize =
      21 + (toString acks).utf8ByteSize + 1 +
        (toString required).utf8ByteSize + 12 :=
    append "quorum non atteint : " (toString acks) "/" (toString required)
      " acks reçus"
  omega

/-- The response after the replication is short. -/
theorem size_putResponse_decideQuorum (sized : cluster.Sized name)
    {version : UInt64} {acks : Nat} (few : acks ≤ 2 ^ 64) :
    Response.codec.size
        ((cluster.server name).putResponse
          ((cluster.replicator name).decideQuorum version acks)) ≤
      maxFrameSize := by
  have limit : 1000 ≤ maxFrameSize := by decide
  unfold Replicator.decideQuorum
  split
  · rw [KvServer.putResponse, Response.size_ack]
    omega
  · have text :=
      utf8ByteSize_quorumNotMet_le few (Nat.le_of_lt sized.writeQuorum)
    rw [KvServer.putResponse, Response.size_error]
    omega

/-- The replication of a write fits when a `Replicate` to another replica does. -/
theorem replicates_written_iff {key : String} {value : Bytes}
    {version : UInt64} {ttlMs : Option UInt64} :
    (∀ target sent,
        (target, sent) ∈
            (cluster.replicator name).replicateRequests key value version
              ttlMs (cluster.replicas key) →
          ∃ frame, writeMessage Request.codec sent = .ok frame) ↔
      ((∃ replica, replica ∈ cluster.replicas key ∧ replica ≠ name ∧
          replica ∈ (cluster.replicator name).peers) →
        Request.codec.size (.put key value ttlMs) + 12 ≤ maxFrameSize) := by
  simp only [exists_frame_iff, Replicator.mem_replicateRequests,
    cluster.named]
  constructor
  · intro fits given
    obtain ⟨replica, member, notLocal, inPool⟩ := given
    have sent := fits replica _ ⟨member, notLocal, inPool, rfl⟩
    rwa [Request.size_replicate] at sent
  · intro fits target sent given
    obtain ⟨member, notLocal, inPool, rfl⟩ := given
    rw [Request.size_replicate]
    exact fits ⟨target, member, notLocal, inPool⟩

theorem size_sendReplicates {outside : Outside} (received : outside.Received)
    (sized : cluster.Sized name) (key : String) (value : Bytes)
    (ttlMs : Option UInt64) (version : UInt64) (round : Nat)
    (node : NodeState) :
    Response.codec.size
        ((cluster.server name).putResponse
          (((cluster.replicator name).sendReplicates key value ttlMs
            (cluster.replicas key) version).runWith outside round []
              node).1) ≤ maxFrameSize := by
  apply size_putResponse_decideQuorum sized
  have acks := countAcks_le
    (outside round
      ([] ++ (cluster.replicator name).replicateRequests key value version
        ttlMs (cluster.replicas key)))
  have recipients :=
    ((cluster.replicator name).replicateRequests_sublist key value version
      ttlMs (cluster.replicas key)).length_le
  have replicas := cluster.length_replicas_le name key
  have bound := sized.replicationFactor
  rw [received.length, List.nil_append] at acks
  rw [List.length_map] at recipients
  rw [List.nil_append]
  omega

/-- A replica writes first, and then replicates. -/
theorem putReplicated_of_replica {key : String} (value : Bytes)
    (ttlMs : Option UInt64) (isReplica : name ∈ cluster.replicas key) :
    (cluster.replicator name).putReplicated cluster.hash key value ttlMs =
      .atomic (·.put key value ttlMs) fun node =>
        (cluster.replicator name).sendReplicates key value ttlMs
          (cluster.replicas key)
          (node.storage.put key value (ttlMs.map durationFromMillis)
            node.now).1 :=
  Replicator.putReplicated_of_mem value ttlMs (cluster.agreement name key)
    (by rwa [cluster.named])

/-- Another node forwards the write, and then replicates. -/
theorem putReplicated_of_forward {key target : String} (value : Bytes)
    (ttlMs : Option UInt64) (forwards : cluster.ForwardsTo name key target) :
    (cluster.replicator name).putReplicated cluster.hash key value ttlMs =
      Replicator.ask target (.put key value ttlMs) KvClient.putWithTtl fun
        | .ok version =>
            (cluster.replicator name).sendReplicates key value ttlMs
              (cluster.replicas key) version
        | .error cause => .done (.error (.network cause.text)) := by
  obtain ⟨notReplica, isFirst, inPool⟩ := forwards
  exact Replicator.putReplicated_of_head value ttlMs
    (cluster.agreement name key) (by rwa [cluster.named]) isFirst inPool

theorem putReplicated_unavailable {key : String} (value : Bytes)
    (ttlMs : Option UInt64) (notReplica : name ∉ cluster.replicas key)
    (noForward : ∀ target, ¬ cluster.ForwardsTo name key target) :
    (cluster.replicator name).putReplicated cluster.hash key value ttlMs =
      .done (.error .noReplicaAvailable) := by
  refine Replicator.putReplicated_unavailable value ttlMs
    (cluster.agreement name key) (by rwa [cluster.named]) ?_
  intro target isFirst inPool
  exact noForward target ⟨notReplica, isFirst, inPool⟩

/-- What a `Put` emits, in terms of the replicated write. -/
theorem emissionsWritten_put {outside : Outside} {key : String}
    {value : Bytes} {ttlMs : Option UInt64} {node : NodeState} :
    cluster.EmissionsWritten name node outside (.put key value ttlMs) ↔
      (∀ target sent,
        (target, sent) ∈
            ((cluster.replicator name).putReplicated cluster.hash key value
              ttlMs).spawned outside 0 [] node →
          ∃ frame, writeMessage Request.codec sent = .ok frame) ∧
        Response.codec.size
          ((cluster.server name).putResponse
            (((cluster.replicator name).putReplicated cluster.hash key value
              ttlMs).runWith outside 0 [] node).1) ≤ maxFrameSize := by
  have handler :
      cluster.service.handler name (.put key value ttlMs) =
        ((cluster.replicator name).putReplicated cluster.hash key value
          ttlMs).map (cluster.server name).putResponse := rfl
  simp only [EmissionsWritten, handler, Prog.spawned_map, Prog.runWith_map,
    exists_frame_iff]

theorem spawned_sendReplicates {outside : Outside} {key : String}
    {value : Bytes} {ttlMs : Option UInt64} {replicas : List String}
    {version : UInt64} {round : Nat} {node : NodeState} :
    ((cluster.replicator name).sendReplicates key value ttlMs replicas
        version).spawned outside round [] node =
      (cluster.replicator name).replicateRequests key value version ttlMs
        replicas :=
  List.append_nil _

theorem ForwardsTo.unique {key target other : String}
    (forwards : cluster.ForwardsTo name key target)
    (isOther : cluster.ForwardsTo name key other) : other = target :=
  Option.some.inj (isOther.2.1.symm.trans forwards.2.1)

/-- A `Put` that has been forwarded is replicated once more. -/
theorem derivedFits_put_of_ok {outside : Outside} {key target : String}
    {value : Bytes} {ttlMs : Option UInt64} {version : UInt64}
    (forwards : cluster.ForwardsTo name key target)
    (outcome :
      KvClient.putWithTtl (outside.single 0 target (.put key value ttlMs)) =
        .ok version) (node : NodeState) :
    cluster.DerivedFits name node outside (.put key value ttlMs) ↔
      Request.codec.size (.put key value ttlMs) + 12 ≤ maxFrameSize := by
  constructor
  · intro fits
    exact fits.1 (Or.inr ⟨target, version, forwards, outcome⟩)
  · intro enough
    refine ⟨fun _ => enough, ?_⟩
    intro other cause isOther failed
    rw [forwards.unique isOther, outcome] at failed
    cases failed

/-- A `Put` that has been forwarded in vain ends with the text of the error. -/
theorem derivedFits_put_of_error {outside : Outside} {key target : String}
    {value : Bytes} {ttlMs : Option UInt64} {cause : CallError}
    (forwards : cluster.ForwardsTo name key target)
    (outcome :
      KvClient.putWithTtl (outside.single 0 target (.put key value ttlMs)) =
        .error cause) (node : NodeState) :
    cluster.DerivedFits name node outside (.put key value ttlMs) ↔
      12 + (ReplicationError.network cause.text).text.utf8ByteSize ≤
        maxFrameSize := by
  constructor
  · intro fits
    exact fits.2 target cause forwards outcome
  · intro enough
    refine ⟨?_, ?_⟩
    · intro sends
      rcases sends with ⟨isReplica, _⟩ | ⟨other, version, isOther, isOk⟩
      · exact absurd isReplica forwards.1
      · rw [forwards.unique isOther, outcome] at isOk
        cases isOk
    · intro other otherCause isOther failed
      rw [forwards.unique isOther, outcome] at failed
      cases failed
      exact enough

section Put

variable {outside : Outside} {key : String} {value : Bytes}
  {ttlMs : Option UInt64} (received : outside.Received)
  (sized : cluster.Sized name) (node : NodeState)

include received sized

theorem emissionsWritten_put_of_replica
    (isReplica : name ∈ cluster.replicas key) :
    cluster.EmissionsWritten name node outside (.put key value ttlMs) ↔
      cluster.DerivedFits name node outside (.put key value ttlMs) := by
  have noForward (target : String) :
      ¬ cluster.ForwardsTo name key target := by
    intro forwards
    exact forwards.1 isReplica
  have sends : cluster.SendsReplicate name outside key value ttlMs ↔
      ∃ replica, replica ∈ cluster.replicas key ∧ replica ≠ name ∧
        replica ∈ (cluster.replicator name).peers := by
    constructor
    · intro given
      rcases given with ⟨_, others⟩ | ⟨target, version, forwards, _⟩
      · exact others
      · exact absurd forwards (noForward target)
    · intro others
      exact Or.inl ⟨isReplica, others⟩
  rw [emissionsWritten_put, putReplicated_of_replica value ttlMs isReplica]
  simp only [Prog.spawned, Prog.runWith, spawned_sendReplicates,
    replicates_written_iff, DerivedFits, sends, noForward, false_implies,
    implies_true, and_true]
  constructor
  · intro given
    exact given.1
  · intro fits
    exact ⟨fits, size_sendReplicates received sized _ _ _ _ _ _⟩

theorem emissionsWritten_put_of_forward {target : String}
    (forwards : cluster.ForwardsTo name key target)
    (accepted : Request.codec.size (.put key value ttlMs) ≤ maxFrameSize) :
    cluster.EmissionsWritten name node outside (.put key value ttlMs) ↔
      cluster.DerivedFits name node outside (.put key value ttlMs) := by
  have targetReplica : target ∈ cluster.replicas key :=
    List.mem_of_mem_head? forwards.2.1
  have targetOther : target ≠ name := by
    intro same
    exact forwards.1 (same ▸ targetReplica)
  have others : ∃ replica, replica ∈ cluster.replicas key ∧ replica ≠ name ∧
      replica ∈ (cluster.replicator name).peers :=
    ⟨target, targetReplica, targetOther, forwards.2.2⟩
  have forwarded : ∃ frame,
      writeMessage Request.codec (.put key value ttlMs) = .ok frame :=
    exists_frame_iff.mpr accepted
  rw [emissionsWritten_put, putReplicated_of_forward value ttlMs forwards]
  simp only [Replicator.ask, Prog.call, Prog.spawned, Prog.runWith,
    List.nil_append, List.mem_append, List.mem_singleton, Prod.mk.injEq]
  cases outcome : KvClient.putWithTtl
      (outside.single 0 target (.put key value ttlMs)) with
  | ok version =>
      rw [derivedFits_put_of_ok forwards outcome]
      have read := outcome
      rw [Outside.single] at read
      simp only [read, spawned_sendReplicates]
      constructor
      · intro given
        have replicates (recipient : String) (sent : Request)
            (member : (recipient, sent) ∈
              (cluster.replicator name).replicateRequests key value version
                ttlMs (cluster.replicas key)) :
            ∃ frame, writeMessage Request.codec sent = .ok frame :=
          given.1 recipient sent (Or.inr member)
        exact replicates_written_iff.mp replicates others
      · intro enough
        refine ⟨?_, size_sendReplicates received sized _ _ _ _ _ _⟩
        intro recipient sent member
        rcases member with ⟨_, rfl⟩ | replicate
        · exact forwarded
        · exact replicates_written_iff.mpr (fun _ => enough) recipient sent
            replicate
  | error cause =>
      rw [derivedFits_put_of_error forwards outcome]
      have read := outcome
      rw [Outside.single] at read
      simp only [read, Prog.spawned, Prog.runWith, List.not_mem_nil, or_false,
        KvServer.putResponse, Response.size_error]
      refine ⟨fun given => given.2, fun fits => ⟨?_, fits⟩⟩
      intro recipient sent member
      rw [member.2]
      exact forwarded

end Put

theorem emissionsWritten_put_iff {outside : Outside}
    (received : outside.Received) (sized : cluster.Sized name) {key : String}
    {value : Bytes} {ttlMs : Option UInt64}
    (accepted : Request.codec.size (.put key value ttlMs) ≤ maxFrameSize)
    (node : NodeState) :
    cluster.EmissionsWritten name node outside (.put key value ttlMs) ↔
      cluster.DerivedFits name node outside (.put key value ttlMs) := by
  by_cases isReplica : name ∈ cluster.replicas key
  · exact emissionsWritten_put_of_replica received sized node isReplica
  · by_cases forwards : ∃ target, cluster.ForwardsTo name key target
    · obtain ⟨target, forwards⟩ := forwards
      exact emissionsWritten_put_of_forward received sized node forwards
        accepted
    · have noForward (target : String) :
          ¬ cluster.ForwardsTo name key target := by
        intro forwardsTo
        exact forwards ⟨target, forwardsTo⟩
      have sendsNone :
          ¬ cluster.SendsReplicate name outside key value ttlMs := by
        intro sends
        rcases sends with ⟨already, _⟩ | ⟨target, version, forwardsTo, _⟩
        · exact isReplica already
        · exact noForward target forwardsTo
      have short : Response.codec.size
          ((cluster.server name).putResponse (.error .noReplicaAvailable)) ≤
            maxFrameSize := by
        have limit : 1000 ≤ maxFrameSize := by decide
        have text : ReplicationError.noReplicaAvailable.text.utf8ByteSize = 38 :=
          rfl
        rw [KvServer.putResponse, Response.size_error, text]
        omega
      rw [emissionsWritten_put,
        putReplicated_unavailable value ttlMs isReplica noForward]
      simp [Prog.spawned, Prog.runWith, DerivedFits, short, sendsNone,
        noForward]

/-! ## Every request -/

/-- What a request other than a `Put` sends is that request. -/
theorem sent_written {outside : Outside} {node : NodeState}
    {request : Request} (accepted : Request.codec.size request ≤ maxFrameSize)
    (notPut : ∀ key value ttlMs, request ≠ .put key value ttlMs)
    {target : String} {sent : Request}
    (member : (target, sent) ∈
      (cluster.service.handler name request).spawned outside 0 [] node) :
    ∃ frame, writeMessage Request.codec sent = .ok frame := by
  apply exists_frame_iff.mpr
  cases (within_handler name request).spawned 0 [] node member with
  | get => exact accepted
  | forward value ttlMs => exact accepted
  | replicate value version ttlMs => exact absurd rfl (notPut _ value ttlMs)
  | delete => exact accepted

theorem size_deleteResponse (result : Except ReplicationError Bool)
    (isOk : ∃ existed, result = .ok existed) :
    Response.codec.size (KvServer.deleteResponse result) ≤ maxFrameSize := by
  have limit : 1000 ≤ maxFrameSize := by decide
  obtain ⟨existed, rfl⟩ := isOk
  rw [KvServer.deleteResponse, Response.size_deleted]
  omega

/-- A deletion always has a result. -/
theorem deleteLoop_runWith_isOk {outside : Outside} {key : String} :
    ∀ (replicas : List String) (existed : Bool) (round : Nat)
      (asked : List (String × Request)) (node : NodeState),
      ∃ found,
        (((cluster.replicator name).deleteLoop key existed replicas).runWith
          outside round asked node).1 = .ok found
  | [], existed, round, asked, node => ⟨_, rfl⟩
  | replica :: rest, existed, round, asked, node => by
      simp only [Replicator.deleteLoop]
      split
      · simp only [Prog.runWith]
        split
        · exact deleteLoop_runWith_isOk rest true round asked _
        · exact deleteLoop_runWith_isOk rest existed round asked _
      · split
        · exact deleteLoop_runWith_isOk rest existed round _ node
        · exact deleteLoop_runWith_isOk rest existed round asked node

/-- The size of the response to a scan, from what the scan selects. -/
theorem size_scan (storage : StorageEngine) (keyPrefix : String)
    (limit now : Nat) :
    Response.codec.size
        (.scanResult
          ((storage.scan keyPrefix limit now).map fun item =>
            (item.1, item.2.data))) =
      12 +
        (((storage.iter.filter (StorageEngine.selects keyPrefix now)).take
          limit).map fun item =>
            16 + item.1.utf8ByteSize + item.2.data.length).sum := by
  have sorted :=
    List.perm_insertionSort
      (fun left right : String × ValueEntry => left.1 ≤ right.1)
      (StorageEngine.scanLoop keyPrefix limit now [] storage.iter)
  have sums := (sorted.map fun item : String × ValueEntry =>
    16 + item.1.utf8ByteSize + item.2.data.length).sum_nat
  rw [Response.size_scanResult, List.map_map]
  have same : ((storage.scan keyPrefix limit now).map
      ((fun item : String × Bytes =>
          16 + item.1.utf8ByteSize + item.2.length) ∘
        fun item => (item.1, item.2.data))).sum =
      ((StorageEngine.scanLoop keyPrefix limit now [] storage.iter).map
        fun item => 16 + item.1.utf8ByteSize + item.2.data.length).sum := sums
  rw [same, StorageEngine.scanLoop_eq, List.nil_append, List.length_nil,
    Nat.sub_zero]

theorem emissions_fit {outside : Outside} (received : outside.Received)
    (sized : cluster.Sized name) {request : Request}
    (accepted : Request.codec.size request ≤ maxFrameSize)
    (node : NodeState) :
    cluster.EmissionsWritten name node outside request ↔
      cluster.DerivedFits name node outside request := by
  have limit : 1000 ≤ maxFrameSize := by decide
  have sent (notPut : ∀ key value ttlMs, request ≠ .put key value ttlMs) :
      cluster.EmissionsWritten name node outside request ↔
        Response.codec.size
          ((cluster.service.handler name request).runWith outside 0 []
            node).1 ≤ maxFrameSize := by
    simp only [EmissionsWritten, exists_frame_iff]
    constructor
    · intro given
      exact given.2
    · intro fits
      refine ⟨?_, fits⟩
      intro target called member
      exact exists_frame_iff.mp (sent_written accepted notPut member)
  cases request with
  | put key value ttlMs =>
      exact emissionsWritten_put_iff received sized accepted node
  | get key =>
      have handler : cluster.service.handler name (.get key) =
          ((cluster.replicator name).getReplicated cluster.hash key).map
            KvServer.getResponse := rfl
      rw [sent (by intro _ _ _ same; cases same), handler, Prog.runWith_map]
      simp only [Replicator.getReplicated, cluster.agreement]
      split
      · rename_i noReplica
        have none : cluster.replicas key = [] :=
          List.isEmpty_iff.mp noReplica
        have text : ReplicationError.noReplicaAvailable.text.utf8ByteSize = 38 :=
          rfl
        simp only [Prog.runWith, KvServer.getResponse, Response.size_error, text,
          DerivedFits, none, ReachesLocal, false_implies, iff_true]
        omega
      · exact size_getLoop_iff received (cluster.replicas key) 0 node
          (cluster.nodup_replicas key)
  | delete key =>
      have handler : cluster.service.handler name (.delete key) =
          ((cluster.replicator name).deleteReplicated cluster.hash key).map
            KvServer.deleteResponse := rfl
      rw [sent (by intro _ _ _ same; cases same), handler, Prog.runWith_map]
      refine ⟨fun _ => trivial, fun _ => ?_⟩
      exact size_deleteResponse _ (deleteLoop_runWith_isOk _ _ _ _ _)
  | scan keyPrefix scanLimit =>
      rw [sent (by intro _ _ _ same; cases same)]
      exact iff_of_eq
        (congrArg (· ≤ maxFrameSize) (size_scan node.storage keyPrefix
          scanLimit.toNat node.now))
  | replicate key value version ttlMs sourceNodeId =>
      rw [sent (by intro _ _ _ same; cases same)]
      refine ⟨fun _ => trivial, fun _ => ?_⟩
      have size := Response.size_ack version (cluster.server name).nodeId
      show Response.codec.size (.ack _ _) ≤ _
      omega
  | heartbeat nodeId timestampMs =>
      rw [sent (by intro _ _ _ same; cases same)]
      refine ⟨fun _ => trivial, fun _ => ?_⟩
      show Response.codec.size (.pong _ _ _) ≤ _
      rw [Response.size_pong]
      omega

/-- For every request that is accepted, in every state of the node and whatever its
peers answer, all messages that the node emits because of it are written exactly
when what is derived from the request fits in a frame. -/
theorem derived_frames_written_iff (cluster : Cluster) (name : String)
    (sized : cluster.Sized name) {outside : Outside}
    (received : outside.Received) {stream left : Bytes} {request : Request}
    (accepted : readMessage Request.codec stream = .ok (request, left))
    (node : NodeState) :
    cluster.EmissionsWritten name node outside request ↔
      cluster.DerivedFits name node outside request :=
  emissions_fit received sized (size_le_of_readMessage accepted) node

/-- Every call of the node times out. -/
def timeouts : Outside :=
  fun _ asked => asked.map fun _ => .error .elapsed

theorem received_timeouts : timeouts.Received where
  length _ _ := List.length_map _
  fits := by
    intro round asked response member
    obtain ⟨_, _, impossible⟩ := List.mem_map.mp member
    cases impossible

theorem sized_small (names : List String) (name : String) :
    (small names).Sized name where
  replicationFactor := by
    show 2 < 2 ^ 64
    decide
  writeQuorum := by
    show 2 < 2 ^ 64
    decide

/-- A small `Put` is accepted, and its `Replicate` and its response are written. -/
theorem derived_frames_written_iff_small_put :
    (small ["node-1", "node-2"]).EmissionsWritten "node-1"
      ((small ["node-1", "node-2"]).service.boot "node-1") timeouts
      (.put "k" [1] none) := by
  have accepted :
      readMessage Request.codec
          [0, 0, 0, 23, 1, 0, 0, 0, 1, 0, 0, 0, 0, 0, 0, 0, 107, 1, 0, 0, 0, 0,
            0, 0, 0, 1, 0] =
        .ok (.put "k" [1] none, []) := by
    decide
  apply
    (derived_frames_written_iff (small ["node-1", "node-2"]) "node-1"
      (sized_small _ _) received_timeouts accepted _).mpr
  refine ⟨fun _ => by decide, ?_⟩
  intro target cause forwards _
  exact absurd (by decide) forwards.1

/-- A `Put` that just fits in a frame is accepted by a replica, which cannot write
the `Replicate` to the other one. -/
theorem put_accepted_replicate_refused :
    (∃ stream,
      readMessage Request.codec stream =
        .ok
          (.put "k" (List.replicate (maxFrameSize - 22) 0) none, [])) ∧
      ¬ (small ["node-1", "node-2"]).EmissionsWritten "node-1"
        ((small ["node-1", "node-2"]).service.boot "node-1") timeouts
        (.put "k" (List.replicate (maxFrameSize - 22) 0) none) := by
  have key : "k".utf8ByteSize = 1 := rfl
  have size : Request.codec.size
      (.put "k" (List.replicate (maxFrameSize - 22) 0) none) =
        maxFrameSize := by
    rw [Request.size_put, List.length_replicate, Codec.size_option_none, key]
    unfold maxFrameSize
    omega
  refine ⟨⟨_, readMessage_frame (Nat.le_of_eq size) []⟩, ?_⟩
  intro written
  have fits :=
    (emissions_fit received_timeouts (sized_small _ _) (Nat.le_of_eq size)
      _).mp written
  have sends : (small ["node-1", "node-2"]).SendsReplicate "node-1" timeouts
      "k" (List.replicate (maxFrameSize - 22) 0) none :=
    Or.inl ⟨by decide, "node-2", by decide, by decide, by decide⟩
  have tooMuch := fits.1 sends
  omega

end Cluster

end HautePerformance.KvDistributed
