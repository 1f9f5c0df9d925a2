import HautePerformance.Library.RpcDelivery
import HautePerformance.Library.RpcLogic
import HautePerformance.KvDistributed.ClusterSteps

/-!
# Convergence of the replicas of a key

The writes of one key are `Put`s without TTL, nothing deletes it and no message is
lost.  Every write that a replica stores is then *spreading*: each other replica
has absorbed it or is still owed a `Replicate` of it.  At rest nothing is owed, so
all replicas have the same entry, provided that no `Replicate` has met an entry of
its own version with other data, and that no replica has been told of a version that
is not the one of the write.
-/

namespace HautePerformance.KvDistributed

open Library
open Library.Rpc

namespace Cluster

variable (cluster : Cluster)

/-- What clients may ask about the key: `Put`s without TTL and `Get`s. -/
def clientMayAsk (key : String) : Request → Bool
  | .put other _ ttlMs => other != key || ttlMs.isNone
  | .delete other => other != key
  | .replicate other _ _ _ _ => other != key
  | _ => true

/-- The condition on the storage operation about to be performed: a local write
has a next version, and its node can reach every other replica; a `Replicate`
does not clash. -/
def spreadsWrites (key : String) (network : ClusterNetwork)
    (label : ClusterLabel) : Bool :=
  match network.acting? label with
  | some execution =>
      match execution.request with
      | .put other _ _ =>
          decide (network.stores execution.node).storage.HasNextVersion &&
            (other != key ||
              (cluster.replicas key).all fun replica =>
                replica == execution.node ||
                  decide (replica ∈ (cluster.replicator execution.node).peers))
      | .replicate other _ _ _ _ =>
          other != key || noVersionClash network label
      | _ => true
  | none => true

/-- A forwarded `Put` of the key takes an `Ack` for its own. -/
def mistakesVersion (key : String) (misreading : ClusterMisreading) : Bool :=
  misreading.request.isPut && misreading.request.stores key &&
    misreading.response.isAck

/-- The runs in question: no other client request about the key, and no loss. -/
def onlyPuts (key : String) : ClusterLabel → Bool
  | .issue _ request => clientMayAsk key request
  | .lose _ => false
  | _ => true

/-- The runs in which the replicas of the key converge. -/
def convergenceGuard (key : String) (network : ClusterNetwork)
    (label : ClusterLabel) : Bool :=
  onlyPuts key label && cluster.spreadsWrites key network label &&
    (noMisread (mistakesVersion key) network label &&
      writesAlone key network label)

abbrev convergenceSetting (key : String) :
    Setting String NodeState Request Response CallError NodeEvent :=
  ⟨cluster.service, fun network label =>
    cluster.convergenceGuard key network label = true⟩

/-- All replicas of the key store the same version and the same data. -/
def Converged (network : ClusterNetwork) (key : String) : Prop :=
  ∀ left right,
    left ∈ cluster.replicas key →
    right ∈ cluster.replicas key →
    ((network.stores left).storage.lookup key).map
        (fun entry => (entry.version, entry.data)) =
      ((network.stores right).storage.lookup key).map
        (fun entry => (entry.version, entry.data))

/-! ## The requests of such a run -/

/-- The requests about the key that occur on a node. -/
def convergenceFits (key name : String) : Request → Prop
  | .put other _ ttlMs => other = key → ttlMs = none
  | .delete other => other ≠ key
  | .replicate other _ _ ttlMs _ =>
      other = key → ttlMs = none ∧ name ∈ cluster.replicas key
  | _ => True

variable {cluster} {key : String}

theorem convergenceFits_issued {network : ClusterNetwork} {name : String}
    {request : Request}
    (allowed :
      cluster.convergenceGuard key network (.issue name request) = true) :
    cluster.convergenceFits key name request := by
  simp only [convergenceGuard, onlyPuts, Bool.and_eq_true] at allowed
  have asks := allowed.1.1
  cases request with
  | put other value ttlMs =>
      intro same
      simpa [clientMayAsk, same] using asks
  | delete other => simpa [clientMayAsk, convergenceFits] using asks
  | replicate other value version ttlMs sourceNodeId =>
      intro same
      simp [clientMayAsk, same] at asks
  | get other => trivial
  | scan keyPrefix limit => trivial
  | heartbeat nodeId timestampMs => trivial

theorem convergenceFits_handedOn {name target : String}
    {request called : Request}
    (fits : cluster.convergenceFits key name request)
    (calls : cluster.Calls name request target called) :
    cluster.convergenceFits key target called := by
  cases calls with
  | get isReplica notLocal => trivial
  | forward value ttlMs notReplica replicasAre => exact fits
  | replicate value version ttlMs isReplica notLocal =>
      intro same
      exact ⟨fits same, same ▸ isReplica⟩
  | delete isReplica notLocal => exact fits

variable (cluster key)

/-- The typing of the runs above. -/
def convergenceTyping : (cluster.convergenceSetting key).Typing :=
  cluster.typing _ (cluster.convergenceFits key) convergenceFits_issued
    convergenceFits_handedOn

/-! ## Spreading writes -/

/-- Each replica has absorbed the write or is owed a `Replicate` of it. -/
def Spreading (network : ClusterNetwork) (value : Bytes) (version : UInt64) :
    Prop :=
  ∀ replica,
    replica ∈ cluster.replicas key →
    Absorbed network key value version replica ∨
      ∃ sourceNodeId,
        cluster.service.Owed network replica
          (.replicate key value version none sourceNodeId)

/-- The invariant of the runs: the counters cover the stored versions, and every
entry of the key is a spreading write without TTL. -/
structure ConvergenceInv (network : ClusterNetwork) : Prop where
  coherent : ∀ name, (network.stores name).storage.Coherent
  spreading : ∀ replica entry,
    replica ∈ cluster.replicas key →
    (network.stores replica).storage.lookup key = some entry →
    entry.ttl = none ∧
      cluster.Spreading key network entry.data entry.version

/-- A `Replicate` is of a spreading write, and an acknowledged `Put` is one. -/
def convergenceContract :
    Contract String NodeState Request Response CallError NodeEvent where
  Inv world := cluster.ConvergenceInv key world.state
  Pre _ _ request world :=
    ∀ value version ttlMs sourceNodeId,
      request = .replicate key value version ttlMs sourceNodeId →
      cluster.Spreading key world.state value version
  Post _ _ request response world :=
    ∀ value ttlMs version nodeId,
      request = .put key value ttlMs →
      response = .ack version nodeId →
      cluster.Spreading key world.state value version

/-- What one allowed step between such worlds provides. -/
structure ConvergenceStep (label : ClusterLabel)
    (source target : ClusterNetwork) : Prop where
  typed : (cluster.convergenceTyping key).Typed source
  inv : cluster.ConvergenceInv key source
  allowed : cluster.convergenceGuard key source label = true
  moves : cluster.service.Moves source label target

variable {cluster key}

theorem convergenceStep_of_onward {label : ClusterLabel}
    {source target : ClusterWorld}
    (onward :
      (cluster.convergenceContract key).Onward (cluster.convergenceSetting key)
        label source target) :
    ConvergenceStep cluster key label source.state target.state where
  typed := (cluster.convergenceTyping key).typed onward.reachable
  inv := onward.inv
  allowed := onward.step.1
  moves := Setting.moves onward.step

section OneStep

variable {label : ClusterLabel} {source target : ClusterNetwork}
variable (step : ConvergenceStep cluster key label source target)
include step

/-- What one step does to one node. -/
theorem ConvergenceStep.store_cases (name : String) :
    target.stores name = source.stores name ∨
      (∃ index execution act next,
        label = .step index ∧
          source.executions[index]? = some execution ∧
          execution.node = name ∧
          execution.phase = .running (.atomic act next) ∧
          cluster.MayAct name execution.request ∧
          target.stores name =
            execution.request.action (source.stores name)) ∨
      ∃ event,
        label = .env name event ∧
          target.stores name = event.apply (source.stores name) :=
  Cluster.store_cases (cluster.convergenceTyping key) rfl
    (fun good => good.2.1) step.typed step.moves name

theorem ConvergenceStep.hasNextVersion {index : Nat}
    {execution : ClusterExecution} {act : NodeState → NodeState}
    {next : NodeState → NodeProg Response} {other : String} {value : Bytes}
    {ttlMs : Option UInt64}
    (isStep : label = .step index)
    (found : source.executions[index]? = some execution)
    (phase : execution.phase = .running (.atomic act next))
    (request : execution.request = .put other value ttlMs) :
    (source.stores execution.node).storage.HasNextVersion := by
  have allowed := step.allowed
  subst isStep
  simp only [convergenceGuard, spreadsWrites,
    Network.acting?_step found phase, request, Bool.and_eq_true,
    decide_eq_true_eq] at allowed
  exact allowed.1.2.1

/-- The counters keep covering the stored versions. -/
theorem ConvergenceStep.coherent (name : String) :
    (target.stores name).storage.Coherent := by
  have before := step.inv.coherent name
  rcases step.store_cases name with
    same | ⟨index, execution, act, next, isStep, found, node, phase, _, acted⟩ |
      ⟨event, _, applied⟩
  · rw [same]
    exact before
  · rw [acted]
    cases request : execution.request with
    | get other => exact before.get _ _
    | put other value ttlMs =>
        have hasNext := step.hasNextVersion isStep found phase request
        rw [node] at hasNext
        exact before.put hasNext _ _ _ _
    | delete other => exact before.delete _
    | scan keyPrefix limit => exact before
    | replicate other value version ttlMs sourceNodeId =>
        exact before.putWithVersion _ _ _ _ _
    | heartbeat nodeId timestampMs => exact before
  · rw [applied]
    cases event with
    | tick elapsed => exact before
    | purge => exact before.purgeExpired _

/-- An absorbed write stays absorbed. -/
theorem ConvergenceStep.absorbed {value : Bytes} {version : UInt64}
    {replica : String} (isReplica : replica ∈ cluster.replicas key)
    (absorbed : Absorbed source key value version replica) :
    Absorbed target key value version replica := by
  obtain ⟨entry, stored, covers⟩ := absorbed
  have later {other : ValueEntry} (higher : entry.version < other.version) :
      other.version = version ∧ other.data = value ∨
        version < other.version := by
    rcases covers with ⟨same, _⟩ | lower
    · exact Or.inr (same ▸ higher)
    · exact Or.inr (UInt64.lt_trans lower higher)
  have noTtl := (step.inv.spreading replica entry isReplica stored).1
  rcases step.store_cases replica with
    same | ⟨index, execution, act, next, isStep, found, node, phase, _, acted⟩ |
      ⟨event, _, applied⟩
  · exact ⟨entry, by rw [same]; exact stored, covers⟩
  · have fits := step.typed.fits found
    unfold Absorbed
    rw [acted]
    rcases execution.request.lookup_action_cases (source.stores replica) key with
      kept | ⟨removed, storedToo, _, cause⟩ | ⟨_, _, request, written⟩ |
        ⟨_, _, _, _, _, higher, written⟩
    · exact ⟨entry, kept.trans stored, covers⟩
    · rcases cause with isDelete | ⟨_, expired⟩
      · rw [isDelete] at fits
        exact (fits rfl).elim
      · rw [stored] at storedToo
        cases storedToo
        rw [ValueEntry.isExpired_of_no_ttl noTtl] at expired
        cases expired
    · refine ⟨_, written, later ?_⟩
      have hasNext := step.hasNextVersion isStep found phase request
      rw [node] at hasNext
      exact UInt64.lt_of_le_of_lt
        (step.inv.coherent replica key entry stored)
        (StorageEngine.lt_add_one_of_hasNextVersion hasNext)
    · exact ⟨_, written, later (higher entry stored)⟩
  · unfold Absorbed
    rw [applied]
    cases event with
    | tick elapsed => exact ⟨entry, stored, covers⟩
    | purge =>
        rcases NodeEvent.lookup_purge_cases (source.stores replica) key with
          kept | ⟨removed, storedToo, expired, _⟩
        · exact ⟨entry, kept.trans stored, covers⟩
        · rw [stored] at storedToo
          cases storedToo
          rw [ValueEntry.isExpired_of_no_ttl noTtl] at expired
          cases expired

/-- A spreading write stays so: a `Replicate` that is no longer owed has been
absorbed. -/
theorem ConvergenceStep.spreading {value : Bytes} {version : UInt64}
    (spreading : cluster.Spreading key source value version) :
    cluster.Spreading key target value version := by
  intro replica isReplica
  rcases spreading replica isReplica with absorbed | ⟨sourceNodeId, owed⟩
  · exact Or.inl (step.absorbed isReplica absorbed)
  · have notLost : ∀ position, label ≠ .lose position := by
      rintro position rfl
      have allowed := step.allowed
      simp [convergenceGuard, onlyPuts] at allowed
    rcases owed.step step.moves notLost with
      still | ⟨index, execution, isStep, found, node, request, phase⟩
    · exact Or.inr ⟨sourceNodeId, still⟩
    · subst isStep
      subst node
      have noClash : noVersionClash source (.step index) = true := by
        have allowed := step.allowed
        simp only [convergenceGuard, spreadsWrites,
          Network.acting?_step found phase, request,
          Bool.and_eq_true] at allowed
        simpa using allowed.1.2
      have acted := step.moves.eq_perform found phase
      refine Or.inl ?_
      rw [acted]
      exact absorbed_of_replicate noClash found request phase

/-- The step lemma: the invariant is kept when the writes that the step makes are
spreading. -/
theorem ConvergenceStep.inv_of_fresh
    (freshPut : ∀ index execution act next value ttlMs,
      label = .step index →
      source.executions[index]? = some execution →
      execution.phase = .running (.atomic act next) →
      execution.request = .put key value ttlMs →
      cluster.Spreading key target value
        ((source.stores execution.node).storage.versionCounter + 1))
    (freshReplicate : ∀ index execution act next value version ttlMs
        sourceNodeId,
      label = .step index →
      source.executions[index]? = some execution →
      execution.phase = .running (.atomic act next) →
      execution.request = .replicate key value version ttlMs sourceNodeId →
      cluster.Spreading key source value version) :
    cluster.ConvergenceInv key target where
  coherent := step.coherent
  spreading := by
    intro replica entry isReplica stored
    have old (before :
        (source.stores replica).storage.lookup key = some entry) :
        entry.ttl = none ∧
          cluster.Spreading key target entry.data entry.version :=
      have known := step.inv.spreading replica entry isReplica before
      ⟨known.1, step.spreading known.2⟩
    rcases step.store_cases replica with
      same | ⟨index, execution, act, next, isStep, found, node, phase, _,
        acted⟩ | ⟨event, _, applied⟩
    · exact old (by rw [← same]; exact stored)
    · have fits := step.typed.fits found
      rw [acted] at stored
      rcases execution.request.lookup_action_cases (source.stores replica)
          key with
        kept | ⟨_, _, removed, _⟩ | ⟨value, ttlMs, request, written⟩ |
          ⟨value, version, ttlMs, sourceNodeId, request, _, written⟩
      · exact old (kept.symm.trans stored)
      · rw [removed] at stored
        cases stored
      · rw [written] at stored
        cases stored
        rw [request] at fits
        refine ⟨by rw [fits rfl]; rfl, ?_⟩
        rw [← node]
        exact freshPut index execution act next value ttlMs isStep found phase
          request
      · rw [written] at stored
        cases stored
        rw [request] at fits
        refine ⟨by rw [(fits rfl).1]; rfl, step.spreading ?_⟩
        exact freshReplicate index execution act next value version ttlMs
          sourceNodeId isStep found phase request
    · rw [applied] at stored
      cases event with
      | tick elapsed => exact old stored
      | purge =>
          exact old (StorageEngine.lookup_purgeExpired.mp stored).1

end OneStep

/-! ## The handlers keep the contract -/

theorem spreading_stable (value : Bytes) (version : UInt64) :
    (cluster.convergenceContract key).Stable (cluster.convergenceSetting key)
      fun world => cluster.Spreading key world.state value version := by
  intro label source target onward spreading
  exact (convergenceStep_of_onward onward).spreading spreading

/-- Requests that do not write the key keep the contract. -/
theorem convergence_harmless {index root : Nat} {name : String}
    {request : Request}
    (notPut : ∀ value ttlMs, request ≠ .put key value ttlMs)
    (notReplicate : ∀ value version ttlMs sourceNodeId,
      request ≠ .replicate key value version ttlMs sourceNodeId)
    (world : ClusterWorld) :
    (cluster.convergenceContract key).Safe (cluster.convergenceSetting key)
      index root name request [] (cluster.service.handler name request)
      world := by
  refine Contract.Safe.of_within (within_handler name request) ?_ ?_ ?_ []
    world
  · intro later execution act next _ reachable inv found _ sameRequest _
      phase allowed
    have step :=
      convergenceStep_of_onward
        (Contract.Onward.of_perform (cluster.convergenceContract key)
          (cluster.convergenceSetting key) reachable inv found phase allowed)
    refine step.inv_of_fresh ?_ ?_
    · intro other mover _ _ value ttlMs isStep foundMover _ isPut
      cases isStep
      rw [found] at foundMover
      cases foundMover
      exact (notPut value ttlMs (sameRequest.symm.trans isPut)).elim
    · intro other mover _ _ value version ttlMs sourceNodeId isStep foundMover
        _ isReplicate
      cases isStep
      rw [found] at foundMover
      cases foundMover
      exact
        (notReplicate value version ttlMs sourceNodeId
          (sameRequest.symm.trans isReplicate)).elim
  · intro target called calls later value version ttlMs sourceNodeId
      isReplicate
    subst isReplicate
    cases calls with
    | replicate value version ttlMs isReplica notLocal =>
        exact (notPut _ _ rfl).elim
  · intro response later value ttlMs version nodeId isPut _
    exact (notPut _ _ isPut).elim

/-- Sending a spreading write on is safe. -/
theorem convergence_safe_sendReplicates {index root : Nat} {name : String}
    {value : Bytes} {ttlMs : Option UInt64} {version : UInt64}
    {world : ClusterWorld}
    (spreading : cluster.Spreading key world.state value version) :
    (cluster.convergenceContract key).Safe (cluster.convergenceSetting key)
      index root name (.put key value ttlMs) []
      (((cluster.replicator name).sendReplicates key value ttlMs
        (cluster.replicas key) version).map (cluster.server name).putResponse)
      world := by
  refine ⟨?_, ?_⟩
  · intro target called member otherValue otherVersion otherTtl otherSource
      isReplicate
    rw [(Replicator.mem_replicateRequests.mp member).2.2.2] at isReplicate
    cases isReplicate
    exact spreading
  · intro later outcomes future _ otherValue otherTtl acked nodeId isPut isAck
    cases isPut
    rw [(KvServer.of_putResponse_decideQuorum isAck).2]
    exact (spreading_stable value version).future future spreading

/-- A local write is spreading as soon as it is made: its replicator is about to
send it to all other replicas. -/
theorem spreading_of_put {world : ClusterWorld} {index : Nat}
    {execution : ClusterExecution} (value : Bytes)
    (respond : Except ReplicationError UInt64 → Response)
    (found : world.state.executions[index]? = some execution)
    (inPool : ∀ replica, replica ∈ cluster.replicas key →
      replica ≠ execution.node →
      replica ∈ (cluster.replicator execution.node).peers)
    (next : NodeState → NodeProg Response)
    (nextIs : ∀ node, next node =
      ((cluster.replicator execution.node).sendReplicates key value none
        (cluster.replicas key) (node.storage.versionCounter + 1)).map
          respond) :
    cluster.Spreading key
      (world.state.perform index execution (·.put key value none) next) value
      ((world.state.stores execution.node).storage.versionCounter + 1) := by
  intro replica isReplica
  by_cases isLocal : replica = execution.node
  · rw [isLocal]
    exact Or.inl (absorbed_of_put index next)
  · refine Or.inr ⟨(cluster.replicator execution.node).nodeId, ?_⟩
    refine .unsent (Network.setExecution_self found)
      (congrArg Phase.running (nextIs _)) ?_
    exact Replicator.mem_replicateRequests.mpr
      ⟨isReplica, by rw [cluster.named]; exact isLocal,
        inPool replica isReplica isLocal, rfl⟩

theorem convergence_safe_put {index root : Nat} {name : String}
    {value : Bytes} {ttlMs : Option UInt64} (world : ClusterWorld) :
    (cluster.convergenceContract key).Safe (cluster.convergenceSetting key)
      index root name (.put key value ttlMs) []
      (cluster.service.handler name (.put key value ttlMs)) world := by
  have failed (cause : ReplicationError) (later : ClusterWorld) :
      (cluster.convergenceContract key).Post root name (.put key value ttlMs)
        ((cluster.server name).putResponse (.error cause)) later := by
    intro _ _ _ _ _ isAck
    cases isAck
  simp only [service, KvServer.handleRequest, Replicator.putReplicated,
    cluster.agreement, cluster.named]
  split
  · exact failed _ world
  · rename_i target rest replicasAre
    split
    · rename_i isReplica
      intro later execution future reachable inv found sameNode sameRequest
        sameRoot phase allowed
      subst sameNode
      have onward :=
        Contract.Onward.of_perform (cluster.convergenceContract key)
          (cluster.convergenceSetting key) reachable inv found phase allowed
      have step := convergenceStep_of_onward onward
      have noTtl : ttlMs = none := by
        have fits := step.typed.fits found
        rw [sameRequest] at fits
        exact fits rfl
      subst noTtl
      have inPool (replica : String)
          (member : replica ∈ cluster.replicas key)
          (notLocal : replica ≠ execution.node) :
          replica ∈ (cluster.replicator execution.node).peers := by
        have guarded := step.allowed
        simp only [convergenceGuard, spreadsWrites,
          Network.acting?_step found phase, sameRequest, Bool.and_eq_true,
          bne_self_eq_false, Bool.false_or, List.all_eq_true] at guarded
        simpa [notLocal] using guarded.1.2.2 replica member
      have spreading :=
        spreading_of_put value (cluster.server execution.node).putResponse found
          inPool _ (fun node => rfl)
      refine ⟨?_, convergence_safe_sendReplicates spreading⟩
      refine step.inv_of_fresh ?_ ?_
      · intro other mover _ _ otherValue otherTtl isStep foundMover _ isPut
        cases isStep
        rw [found] at foundMover
        cases foundMover
        rw [sameRequest] at isPut
        cases isPut
        exact spreading
      · intro other mover _ _ _ _ _ _ isStep foundMover _ isReplicate
        cases isStep
        rw [found] at foundMover
        cases foundMover
        rw [sameRequest] at isReplicate
        cases isReplicate
    · split
      · refine ⟨?_, ?_⟩
        · intro other called member _ _ _ _ isReplicate
          simp only [List.mem_singleton, Prod.mk.injEq] at member
          rw [member.2] at isReplicate
          cases isReplicate
        · intro later outcomes future answered
          dsimp only
          split
          · rename_i version succeeded
            obtain ⟨nodeId, isOk⟩ := KvClient.putWithTtl_eq_ok succeeded
            have first := first_of_headD_ok isOk
            exact convergence_safe_sendReplicates
              (answered.post 0 target (.put key value ttlMs) _ rfl first
                value ttlMs version nodeId rfl rfl)
          · exact failed _ later
      · exact failed _ world

/-- The contract is sound for the cluster. -/
theorem convergence_sound (cluster : Cluster) (key : String) :
    (cluster.convergenceContract key).Sound
      (cluster.convergenceSetting key) where
  inv_boot :=
    { coherent := fun name => StorageEngine.coherent_new
      spreading := by
        intro replica entry _ stored
        cases stored }
  pre_stable root name request := by
    intro label source target onward pre value version ttlMs sourceNodeId
      isReplicate
    exact spreading_stable value version label source target onward
      (pre value version ttlMs sourceNodeId isReplicate)
  post_stable root name request response := by
    intro label source target onward post value ttlMs version nodeId isPut
      isAck
    exact spreading_stable value version label source target onward
      (post value ttlMs version nodeId isPut isAck)
  issue_pre name request source target onward := by
    rintro value version ttlMs sourceNodeId rfl
    have allowed := onward.step.1
    simp [convergenceGuard, onlyPuts, clientMayAsk] at allowed
  inv_quiet label source target onward quiet := by
    refine (convergenceStep_of_onward onward).inv_of_fresh ?_ ?_
    · rintro index execution act next _ _ rfl found phase _
      exact (quiet ⟨_, _, _, found, phase⟩).elim
    · rintro index execution act next _ _ _ _ rfl found phase _
      exact (quiet ⟨_, _, _, found, phase⟩).elim
  misread_post call position source target misreading onward finds := by
    intro value ttlMs version nodeId isPut isAck
    have allowed := onward.step.1
    simp only [convergenceGuard, Bool.and_eq_true] at allowed
    have sound := not_wrong_of_noMisread allowed.2.1 finds
    simp [mistakesVersion, isPut, isAck, Request.isPut, Request.stores,
      Response.isAck] at sound
  inv_env name event source target onward := by
    refine (convergenceStep_of_onward onward).inv_of_fresh ?_ ?_
    · intro _ _ _ _ _ _ isStep
      cases isStep
    · intro _ _ _ _ _ _ _ _ isStep
      cases isStep
  handler_safe index root name request world _ pre := by
    by_cases isPut : ∃ value ttlMs, request = .put key value ttlMs
    · obtain ⟨value, ttlMs, rfl⟩ := isPut
      exact convergence_safe_put world
    · by_cases isReplicate : ∃ value version ttlMs sourceNodeId,
          request = .replicate key value version ttlMs sourceNodeId
      · obtain ⟨value, version, ttlMs, sourceNodeId, rfl⟩ := isReplicate
        have spreading := pre value version ttlMs sourceNodeId rfl
        intro later execution future reachable inv found sameNode sameRequest
          sameRoot phase allowed
        have step :=
          convergenceStep_of_onward
            (Contract.Onward.of_perform (cluster.convergenceContract key)
              (cluster.convergenceSetting key) reachable inv found phase allowed)
        refine ⟨?_, by rintro _ _ _ _ ⟨⟩⟩
        refine step.inv_of_fresh ?_ ?_
        · intro other mover _ _ _ _ isStep foundMover _ isPutMover
          cases isStep
          rw [found] at foundMover
          cases foundMover
          rw [sameRequest] at isPutMover
          cases isPutMover
        · intro other mover _ _ otherValue otherVersion otherTtl otherSource
            isStep foundMover _ isReplicateMover
          cases isStep
          rw [found] at foundMover
          cases foundMover
          rw [sameRequest] at isReplicateMover
          cases isReplicateMover
          exact (spreading_stable value version).future future spreading
      · exact convergence_harmless
          (fun value ttlMs same => isPut ⟨value, ttlMs, same⟩)
          (fun value version ttlMs sourceNodeId same =>
            isReplicate ⟨value, version, ttlMs, sourceNodeId, same⟩)
          world

/-- What a replica stores at rest, every replica has absorbed. -/
theorem absorbed_at_rest {network : ClusterNetwork}
    (inv : cluster.ConvergenceInv key network)
    (quiescent : network.Quiescent) {left right : String}
    {entry : ValueEntry}
    (isReplica : left ∈ cluster.replicas key)
    (otherReplica : right ∈ cluster.replicas key)
    (stored : (network.stores left).storage.lookup key = some entry) :
    Absorbed network key entry.data entry.version right := by
  rcases (inv.spreading left entry isReplica stored).2 right otherReplica with
    absorbed | ⟨sourceNodeId, owed⟩
  · exact absorbed
  · exact (Service.not_owed_of_quiescent quiescent _ _ owed).elim

/-- Replicas at rest agree: each has absorbed what the other stores. -/
theorem converged_of_inv {network : ClusterNetwork}
    (inv : cluster.ConvergenceInv key network)
    (quiescent : network.Quiescent) : cluster.Converged network key := by
  intro left right isLeft isRight
  cases storedLeft : (network.stores left).storage.lookup key with
  | none =>
      cases storedRight : (network.stores right).storage.lookup key with
      | none => rfl
      | some entry =>
          obtain ⟨other, found, _⟩ :=
            absorbed_at_rest inv quiescent isRight isLeft storedRight
          rw [storedLeft] at found
          cases found
  | some entry =>
      obtain ⟨other, storedRight, covers⟩ :=
        absorbed_at_rest inv quiescent isLeft isRight storedLeft
      obtain ⟨again, found, coversBack⟩ :=
        absorbed_at_rest inv quiescent isRight isLeft storedRight
      rw [storedLeft] at found
      cases found
      rw [storedRight]
      rcases covers with ⟨sameVersion, sameData⟩ | higher
      · simp [sameVersion, sameData]
      · rcases coversBack with ⟨sameVersion, _⟩ | higherBack
        · rw [sameVersion] at higher
          exact (UInt64.lt_irrefl _ higher).elim
        · exact (UInt64.lt_irrefl _
            (UInt64.lt_trans higher higherBack)).elim

/-- In every run without loss in which no `Replicate` clashes with an entry of its
own version, every local write has a next version and its node reaches the other
replicas, the writes at one node follow one another and no forwarded `Put` takes the
`Ack` of an earlier one for its own, the replicas of the key agree whenever the
cluster is at rest. -/
theorem replicas_converge {world : ClusterWorld}
    (reachable :
      cluster.service.system.Reachable
        (fun network label => cluster.convergenceGuard key network label = true)
        world)
    (quiescent : world.state.Quiescent) :
    cluster.Converged world.state key := by
  have inv :=
    ((convergence_sound cluster key).holds reachable).inv
  exact converged_of_inv inv quiescent

/-! ## Runs on two nodes -/

/-- Two overlapping `Put`s on one node; the `Replicate` of the first one arrives
after that of the second one, and is refused. -/
theorem replicas_converge_two_puts :
    ∃ world,
      (small ["node-1", "node-2"]).service.system.Reachable
          (fun network label =>
            (small ["node-1", "node-2"]).convergenceGuard "k" network label =
              true)
          world ∧
        ((world.state.stores "node-2").storage.lookup "k").any
            (fun entry => entry.version == 2 && entry.data == [2]) = true ∧
        (small ["node-1", "node-2"]).Converged world.state "k" := by
  obtain ⟨world, reachable, checked⟩ :=
    System.exists_reachable_of_replay
      (small ["node-1", "node-2"]).service.system
      (fun network label =>
        (small ["node-1", "node-2"]).convergenceGuard "k" network label = true)
      (small ["node-1", "node-2"]).service.initial
      [.issue "node-1" (.put "k" [1] none), .step 0,
        .issue "node-1" (.put "k" [2] none), .step 1, .step 0, .step 1,
        .deliver 1, .step 2, .step 2, .deliver 0, .step 3, .step 3, .step 0,
        .step 0, .step 1, .step 1]
      ((small ["node-1", "node-2"]).convergenceGuard "k")
      (fun world =>
        world.state.isQuiescent &&
          ((world.state.stores "node-2").storage.lookup "k").any
            fun entry => entry.version == 2 && entry.data == [2])
      rfl (fun _ _ admitted => admitted) (by decide +kernel)
  simp only [Bool.and_eq_true (world.state.isQuiescent)] at checked
  exact ⟨world, reachable, checked.2,
    replicas_converge reachable
      (Network.quiescent_of_isQuiescent checked.1)⟩

/-- Two overlapping `Put`s draw the same version on two nodes, and each node keeps
its own value. -/
theorem not_replicas_converge :
    ¬ ∀ (cluster : Cluster) (key : String) (world : ClusterWorld),
      cluster.service.system.Reachable
        (fun _ label => onlyPuts key label = true) world →
      world.state.Quiescent →
      cluster.Converged world.state key := by
  intro converges
  obtain ⟨world, reachable, checked⟩ :=
    System.exists_reachable_of_replay
      (small ["node-1", "node-2"]).service.system
      (fun _ label => onlyPuts "k" label = true)
      (small ["node-1", "node-2"]).service.initial
      [.issue "node-1" (.put "k" [1] none),
        .issue "node-2" (.put "k" [2] none), .step 0, .step 1, .step 0,
        .step 1, .deliver 0, .deliver 0, .step 2, .step 2, .step 3, .step 3,
        .step 0, .step 0, .step 1, .step 1]
      (fun _ label => onlyPuts "k" label)
      (fun world =>
        world.state.isQuiescent &&
          ((world.state.stores "node-1").storage.lookup "k").map
              (fun entry => (entry.version, entry.data)) == some (1, [1]) &&
          ((world.state.stores "node-2").storage.lookup "k").map
              (fun entry => (entry.version, entry.data)) == some (1, [2]))
      rfl (fun _ _ admitted => admitted) (by decide +kernel)
  simp only [Bool.and_eq_true, beq_iff_eq] at checked
  obtain ⟨⟨quiescent, first⟩, second⟩ := checked
  have same :=
    converges _ "k" world reachable
      (Network.quiescent_of_isQuiescent quiescent) "node-1" "node-2"
      (by decide) (by decide)
  rw [first, second] at same
  cases same

end Cluster

end HautePerformance.KvDistributed
