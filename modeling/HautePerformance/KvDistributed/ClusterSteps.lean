import HautePerformance.KvDistributed.Server

/-!
# What a step of the cluster can do

The handlers are typed once: which storage operation each request performs, on
which nodes, and which requests it sends to which peers.  Every fact about runs
below starts from `Cluster.store_cases`, which says what one step can do to one
node.
-/

namespace HautePerformance.KvDistributed

open Library
open Library.Rpc

/-- A purge leaves the entry under a key alone or removes it, expired. -/
theorem NodeEvent.lookup_purge_cases (node : NodeState) (key : String) :
    (purge.apply node).storage.lookup key = node.storage.lookup key ∨
      ∃ entry,
        node.storage.lookup key = some entry ∧
          entry.isExpired node.now = true ∧
          (purge.apply node).storage.lookup key = none := by
  cases before : node.storage.lookup key with
  | none =>
      refine Or.inl ?_
      cases after : (purge.apply node).storage.lookup key with
      | none => rfl
      | some entry =>
          rw [(StorageEngine.lookup_purgeExpired.mp after).1] at before
          cases before
  | some entry =>
      cases live : entry.isExpired node.now with
      | false => exact Or.inl (StorageEngine.lookup_purgeExpired.mpr ⟨before, live⟩)
      | true =>
          refine Or.inr ⟨entry, rfl, live, ?_⟩
          cases after : (purge.apply node).storage.lookup key with
          | none => rfl
          | some other =>
              obtain ⟨found, stillLive⟩ := StorageEngine.lookup_purgeExpired.mp after
              rw [before] at found
              cases found
              rw [live] at stillLive
              cases stillLive

/-! ## The entry under one key -/

/-- What serving a request on a node does to the entry under a key: nothing, an
expiration or deletion, a local write, or a replicated one. -/
theorem Request.lookup_action_cases (request : Request) (node : NodeState)
    (key : String) :
    (request.action node).storage.lookup key = node.storage.lookup key ∨
      (∃ entry,
        node.storage.lookup key = some entry ∧
          (request.action node).storage.lookup key = none ∧
          (request = .delete key ∨
            request = .get key ∧ entry.isExpired node.now = true)) ∨
      (∃ value ttlMs,
        request = .put key value ttlMs ∧
          (request.action node).storage.lookup key =
            some
              { data := value
                version := node.storage.versionCounter + 1
                createdAt := node.now
                ttl := ttlMs.map durationFromMillis }) ∨
      ∃ value version ttlMs sourceNodeId,
        request = .replicate key value version ttlMs sourceNodeId ∧
          (∀ existing, node.storage.lookup key = some existing →
            existing.version < version) ∧
          (request.action node).storage.lookup key =
            some
              { data := value
                version := version
                createdAt := node.now
                ttl := ttlMs.map durationFromMillis } := by
  cases request with
  | scan keyPrefix limit => exact Or.inl rfl
  | heartbeat nodeId timestampMs => exact Or.inl rfl
  | get other =>
      by_cases same : key = other
      · subst same
        cases found : node.storage.lookup key with
        | none =>
            refine Or.inl ?_
            simp only [Request.action, NodeState.get, StorageEngine.get, found]
            exact found
        | some entry =>
            cases expired : entry.isExpired node.now with
            | false =>
                exact Or.inl
                  (StorageEngine.get_of_live found expired).2
            | true =>
                exact Or.inr (Or.inl
                  ⟨entry, rfl, StorageEngine.lookup_get_of_expired found expired,
                    Or.inr ⟨rfl, expired⟩⟩)
      · exact Or.inl (StorageEngine.lookup_get_ne _ same _)
  | put other value ttlMs =>
      by_cases same : key = other
      · subst same
        exact Or.inr (Or.inr (Or.inl
          ⟨value, ttlMs, rfl, StorageEngine.lookup_put_self _ _ _ _ _⟩))
      · exact Or.inl (StorageEngine.lookup_put_ne _ same _ _ _)
  | delete other =>
      by_cases same : key = other
      · subst same
        cases found : node.storage.lookup key with
        | none => exact Or.inl (StorageEngine.lookup_delete_self _ _)
        | some entry =>
            exact Or.inr (Or.inl
              ⟨entry, rfl, StorageEngine.lookup_delete_self _ _,
                Or.inl rfl⟩)
      · exact Or.inl (StorageEngine.lookup_delete_ne _ same)
  | replicate other value version ttlMs sourceNodeId =>
      by_cases same : key = other
      · subst same
        rcases StorageEngine.lookup_putWithVersion_self node.storage key value
            version (ttlMs.map durationFromMillis) node.now with
          ⟨existing, found, _, kept⟩ | ⟨lower, applied⟩
        · exact Or.inl (kept.trans found.symm)
        · exact Or.inr (Or.inr (Or.inr
            ⟨value, version, ttlMs, sourceNodeId, rfl, lower, applied⟩))
      · exact Or.inl (StorageEngine.lookup_putWithVersion_ne _ same _ _ _ _)

/-- The requests that store an entry under the key are its `Put`s and
`Replicate`s. -/
theorem Request.stores_iff {request : Request} {key : String} :
    request.stores key = true ↔
      (∃ value ttlMs, request = .put key value ttlMs) ∨
        ∃ value version ttlMs sourceNodeId,
          request = .replicate key value version ttlMs sourceNodeId := by
  cases request <;> simp [Request.stores]

/-! ## The calls of a handler -/

namespace Cluster

variable (cluster : Cluster)

/-- Where the storage operation of a request may run: the public requests about a
key touch the storage of its replicas only. -/
def MayAct (name : String) : Request → Prop
  | .get key => name ∈ cluster.replicas key
  | .put key _ _ => name ∈ cluster.replicas key
  | .delete key => name ∈ cluster.replicas key
  | _ => True

/-- The storage operations met while a request is served. -/
def Acts (name : String) (request : Request)
    (act : NodeState → NodeState) : Prop :=
  act = request.action ∧ cluster.MayAct name request

/-- The requests sent while a request is served. -/
inductive Calls (name : String) : Request → String → Request → Prop
  | get {target key} :
      target ∈ cluster.replicas key →
      target ≠ name →
      Calls name (.get key) target (.get key)
  | forward {target key rest} (value : Bytes) (ttlMs : Option UInt64) :
      name ∉ cluster.replicas key →
      cluster.replicas key = target :: rest →
      Calls name (.put key value ttlMs) target (.put key value ttlMs)
  | replicate {target key} (value : Bytes) (version : UInt64)
      (ttlMs : Option UInt64) :
      target ∈ cluster.replicas key →
      target ≠ name →
      Calls name (.put key value ttlMs) target
        (.replicate key value version ttlMs (cluster.replicator name).nodeId)
  | delete {target key} :
      target ∈ cluster.replicas key →
      target ≠ name →
      Calls name (.delete key) target (.delete key)

variable {cluster}

theorem within_getLoop {name key : String} (replicas : List String)
    (isReplica : ∀ replica, replica ∈ replicas →
      replica ∈ cluster.replicas key) :
    ((cluster.replicator name).getLoop key replicas).Within
      (cluster.Acts name (.get key)) (cluster.Calls name (.get key)) := by
  induction replicas with
  | nil => trivial
  | cons replica rest inductionHypothesis =>
      have continued :=
        inductionHypothesis fun other member =>
          isReplica other (List.mem_cons_of_mem _ member)
      have here := isReplica replica List.mem_cons_self
      simp only [Replicator.getLoop, cluster.named]
      split
      · rename_i isLocal
        refine ⟨⟨rfl, isLocal ▸ here⟩, fun node => ?_⟩
        dsimp only
        split
        · trivial
        · exact continued
      · rename_i notLocal
        split
        · refine ⟨?_, fun outcomes => ?_⟩
          · intro target called member
            simp only [List.mem_singleton, Prod.mk.injEq] at member
            obtain ⟨rfl, rfl⟩ := member
            exact .get here notLocal
          · dsimp only
            split
            · trivial
            · exact continued
            · exact continued
        · exact continued

theorem within_sendReplicates {name key : String} (value : Bytes)
    (ttlMs : Option UInt64) (version : UInt64) :
    ((cluster.replicator name).sendReplicates key value ttlMs
      (cluster.replicas key) version).Within (fun _ => False)
        (cluster.Calls name (.put key value ttlMs)) := by
  refine ⟨?_, fun outcomes => trivial⟩
  intro target called member
  obtain ⟨isReplica, notLocal, _, shape⟩ :=
    Replicator.mem_replicateRequests.mp member
  rw [cluster.named] at notLocal
  rw [shape]
  exact .replicate value version ttlMs isReplica notLocal

/-- After its own write, or in place of it, a `Put` acts no more. -/
theorem actless_sendReplicates {name key : String} (value : Bytes)
    (ttlMs : Option UInt64) (version : UInt64) :
    ((cluster.replicator name).sendReplicates key value ttlMs
      (cluster.replicas key) version).Actless :=
  (within_sendReplicates value ttlMs version).mono (fun _ => id)
    (fun _ _ _ => trivial)

theorem within_putReplicated {name key : String} (value : Bytes)
    (ttlMs : Option UInt64) :
    ((cluster.replicator name).putReplicated cluster.hash key value
      ttlMs).Within (cluster.Acts name (.put key value ttlMs))
        (cluster.Calls name (.put key value ttlMs)) := by
  have sent (version : UInt64) :
      ((cluster.replicator name).sendReplicates key value ttlMs
        (cluster.replicas key) version).Within
          (cluster.Acts name (.put key value ttlMs))
          (cluster.Calls name (.put key value ttlMs)) :=
    (within_sendReplicates value ttlMs version).mono
      (fun _ impossible => impossible.elim) (fun _ _ => id)
  simp only [Replicator.putReplicated, cluster.agreement, cluster.named]
  split
  · trivial
  · rename_i target rest replicasAre
    split
    · rename_i isReplica
      exact ⟨⟨rfl, isReplica⟩, fun node => sent _⟩
    · rename_i notReplica
      split
      · refine ⟨?_, fun outcomes => ?_⟩
        · intro other called member
          simp only [List.mem_singleton, Prod.mk.injEq] at member
          obtain ⟨rfl, rfl⟩ := member
          exact .forward value ttlMs notReplica replicasAre
        · dsimp only
          split
          · exact sent _
          · trivial
      · trivial

theorem actsOnce_putReplicated {name key : String} (value : Bytes)
    (ttlMs : Option UInt64) :
    ((cluster.replicator name).putReplicated cluster.hash key value
      ttlMs).ActsOnce := by
  simp only [Replicator.putReplicated, cluster.agreement]
  split
  · trivial
  · rename_i target rest replicasAre
    split
    · exact fun node => actless_sendReplicates _ _ _
    · split
      · refine ⟨fun _ _ _ => trivial, fun outcomes => ?_⟩
        dsimp only
        split
        · exact actless_sendReplicates _ _ _
        · trivial
      · trivial

theorem within_deleteLoop {name key : String} (replicas : List String)
    (isReplica : ∀ replica, replica ∈ replicas →
      replica ∈ cluster.replicas key) :
    ∀ existed,
      ((cluster.replicator name).deleteLoop key existed replicas).Within
        (cluster.Acts name (.delete key))
        (cluster.Calls name (.delete key)) := by
  induction replicas with
  | nil => exact fun existed outcomes => trivial
  | cons replica rest inductionHypothesis =>
      intro existed
      have continued :=
        inductionHypothesis fun other member =>
          isReplica other (List.mem_cons_of_mem _ member)
      have here := isReplica replica List.mem_cons_self
      simp only [Replicator.deleteLoop, cluster.named]
      split
      · rename_i isLocal
        refine ⟨⟨rfl, isLocal ▸ here⟩, fun node => ?_⟩
        dsimp only
        split
        · exact continued true
        · exact continued existed
      · rename_i notLocal
        split
        · refine ⟨?_, continued existed⟩
          intro target called member
          simp only [List.mem_singleton, Prod.mk.injEq] at member
          obtain ⟨rfl, rfl⟩ := member
          exact .delete here notLocal
        · exact continued existed

/-- The handler of a request performs the operation of the request and sends the
calls of the request. -/
theorem within_handler (name : String) (request : Request) :
    (cluster.service.handler name request).Within
      (cluster.Acts name request) (cluster.Calls name request) := by
  cases request with
  | get key =>
      refine Prog.Within.map _ ?_
      simp only [Replicator.getReplicated, cluster.agreement]
      split
      · trivial
      · exact within_getLoop _ fun _ member => member
  | put key value ttlMs => exact (within_putReplicated value ttlMs).map _
  | delete key =>
      refine Prog.Within.map _ ?_
      simp only [Replicator.deleteReplicated, cluster.agreement]
      exact within_deleteLoop _ (fun _ member => member) _
  | scan keyPrefix limit => exact ⟨⟨rfl, trivial⟩, fun node => trivial⟩
  | replicate key value version ttlMs sourceNodeId =>
      exact ⟨⟨rfl, trivial⟩, fun node => trivial⟩
  | heartbeat nodeId timestampMs => exact ⟨⟨rfl, trivial⟩, fun node => trivial⟩

/-- A request that stores an entry acts once, before anything else. -/
theorem actsOnce_handler (name : String) {request : Request} {key : String}
    (stores : request.stores key = true) :
    (cluster.service.handler name request).ActsOnce := by
  rcases Request.stores_iff.mp stores with
    ⟨value, ttlMs, rfl⟩ | ⟨value, version, ttlMs, sourceNodeId, rfl⟩
  · exact (actsOnce_putReplicated value ttlMs).map _
  · exact fun node => trivial

/-- On a replica, such a request begins with its action. -/
theorem isActing_handler {name : String} {request : Request} {key : String}
    (stores : request.stores key = true)
    (isReplica : name ∈ cluster.replicas key) :
    ∃ act next,
      cluster.service.handler name request = .atomic act next := by
  rcases Request.stores_iff.mp stores with
    ⟨value, ttlMs, rfl⟩ | ⟨value, version, ttlMs, sourceNodeId, rfl⟩
  · simp only [service, KvServer.handleRequest, Replicator.putReplicated,
      cluster.agreement, cluster.named]
    split
    · rename_i none
      rw [none] at isReplica
      cases isReplica
    · rw [if_pos isReplica]
      exact ⟨_, _, rfl⟩
  · exact ⟨_, _, rfl⟩

/-! ## The typing of the cluster -/

variable (cluster)

/-- The requests that satisfy `Fits` and the programs of their handlers, for a
property that is established by the issued requests and handed on to the calls. -/
def typing
    (allowed : ClusterNetwork → ClusterLabel → Prop)
    (Fits : String → Request → Prop)
    (issued : ∀ {network name request},
      allowed network (.issue name request) → Fits name request)
    (handedOn : ∀ {name request target called},
      Fits name request →
      cluster.Calls name request target called →
      Fits target called) :
    Setting.Typing
      (⟨cluster.service, allowed⟩ :
        Setting String NodeState Request Response CallError NodeEvent) where
  Fits := Fits
  Good name request prog :=
    Fits name request ∧
      prog.Within (cluster.Acts name request) (cluster.Calls name request) ∧
      ∀ key, request.stores key = true → prog.ActsOnce
  issued := issued
  handler fits :=
    ⟨fits, within_handler _ _, fun _ stores => actsOnce_handler _ stores⟩
  continues good continues :=
    ⟨good.1, good.2.1.continues continues,
      fun key stores => ((good.2.2 key stores).continues continues).actsOnce⟩
  spawned good := fun target called member =>
    handedOn good.1 (good.2.1.1 target called member)

variable {cluster}

/-- What one step can do to one node: nothing, the storage operation of the
request whose execution moves, or an event of its environment. -/
theorem store_cases {setting :
      Setting String NodeState Request Response CallError NodeEvent}
    (typing : setting.Typing)
    (runsCluster : setting.service = cluster.service)
    (within : ∀ {name request prog},
      typing.Good name request prog →
      prog.Within (cluster.Acts name request) (cluster.Calls name request))
    {network target : ClusterNetwork} (typed : typing.Typed network)
    {label : ClusterLabel}
    (moves : setting.service.Moves network label target) (name : String) :
    target.stores name = network.stores name ∨
      (∃ index execution act next,
        label = .step index ∧
          network.executions[index]? = some execution ∧
          execution.node = name ∧
          execution.phase = .running (.atomic act next) ∧
          cluster.MayAct name execution.request ∧
          target.stores name =
            execution.request.action (network.stores name)) ∨
      ∃ event,
        label = .env name event ∧
          target.stores name = event.apply (network.stores name) := by
  cases moves with
  | @perform index execution act next found phase =>
      by_cases same : name = execution.node
      · subst same
        obtain ⟨shape, mayAct⟩ := (within (typed.good found phase)).1
        refine Or.inr (Or.inl
          ⟨index, execution, act, next, rfl, found, rfl, phase, mayAct, ?_⟩)
        simp [Network.perform, shape]
      · exact Or.inl (by simp [Network.perform, Function.update_of_ne same])
  | env node event =>
      by_cases same : name = node
      · subst same
        exact Or.inr (Or.inr ⟨event, rfl, by simp [runsCluster, service]⟩)
      · exact Or.inl (by simp [Function.update_of_ne same])
  | issue node request => exact Or.inl rfl
  | send found phase => exact Or.inl rfl
  | resume found phase filled => exact Or.inl rfl
  | answer found phase => exact Or.inl (by simp)
  | deliver found callerFound => exact Or.inl rfl
  | lose inRange => exact Or.inl rfl
  | fail error pending => exact Or.inl (by simp)
  | misread finds => exact Or.inl (by simp)

/-! ## Writes and the replicas that have them -/

/-- The replica stores exactly the value under the version, or an entry of a later
version. -/
def Absorbed (network : ClusterNetwork) (key : String) (value : Bytes)
    (version : UInt64) (replica : String) : Prop :=
  ∃ entry,
    (network.stores replica).storage.lookup key = some entry ∧
      (entry.version = version ∧ entry.data = value ∨
        version < entry.version)

/-- The execution that moves does not meet, for its `Replicate`, an entry of the
same version with other data. -/
def noVersionClash (network : ClusterNetwork) (label : ClusterLabel) : Bool :=
  match network.acting? label with
  | some execution =>
      match execution.request with
      | .replicate key value version _ _ =>
          ((network.stores execution.node).storage.lookup key).all
            fun existing =>
              existing.version != version || existing.data == value
      | _ => true
  | none => true

/-- The write of the key about to be made is the only one that its node has in
hand.  A write is one step here; in the code it is several, and another write may
come between them. -/
def writesAlone (key : String) (network : ClusterNetwork)
    (label : ClusterLabel) : Bool :=
  match network.acting? label with
  | some execution =>
      !execution.request.stores key ||
        decide
          (network.executions.countP
            (fun other =>
              other.node == execution.node && other.request.stores key &&
                other.isActing) ≤ 1)
  | none => true

theorem data_eq_of_noVersionClash {network : ClusterNetwork} {index : Nat}
    {execution : ClusterExecution} {act : NodeState → NodeState}
    {next : NodeState → NodeProg Response} {key : String} {value : Bytes}
    {version : UInt64} {ttlMs : Option UInt64} {sourceNodeId : UInt32}
    {existing : ValueEntry}
    (noClash : noVersionClash network (.step index) = true)
    (found : network.executions[index]? = some execution)
    (phase : execution.phase = .running (.atomic act next))
    (request :
      execution.request = .replicate key value version ttlMs sourceNodeId)
    (stored :
      (network.stores execution.node).storage.lookup key = some existing)
    (sameVersion : existing.version = version) :
    existing.data = value := by
  simpa [noVersionClash, Network.acting?_step found phase, request, stored,
    sameVersion] using noClash

/-- A local write is absorbed by the node that makes it. -/
theorem absorbed_of_put {network : ClusterNetwork} {execution : ClusterExecution}
    {key : String} {value : Bytes} {ttlMs : Option UInt64} (index : Nat)
    (next : NodeState → NodeProg Response) :
    Absorbed
      (network.perform index execution (·.put key value ttlMs) next)
      key value ((network.stores execution.node).storage.versionCounter + 1)
      execution.node := by
  unfold Absorbed
  rw [Network.perform_stores_self]
  exact ⟨_, StorageEngine.lookup_put_self _ key value _ _,
    Or.inl ⟨rfl, rfl⟩⟩

/-- Serving a `Replicate` leaves the write absorbed, unless versions clash. -/
theorem absorbed_of_replicate {network : ClusterNetwork} {index : Nat}
    {execution : ClusterExecution} {next : NodeState → NodeProg Response}
    {key : String} {value : Bytes} {version : UInt64}
    {ttlMs : Option UInt64} {sourceNodeId : UInt32}
    (noClash : noVersionClash network (.step index) = true)
    (found : network.executions[index]? = some execution)
    (request :
      execution.request = .replicate key value version ttlMs sourceNodeId)
    (phase :
      execution.phase =
        .running (.atomic (·.putWithVersion key value version ttlMs) next)) :
    Absorbed
      (network.perform index execution
        (·.putWithVersion key value version ttlMs) next)
      key value version execution.node := by
  unfold Absorbed
  rw [Network.perform_stores_self]
  rcases StorageEngine.lookup_putWithVersion_self
      (network.stores execution.node).storage key value version
      (ttlMs.map durationFromMillis) (network.stores execution.node).now with
    ⟨existing, stored, refused, kept⟩ | ⟨_, applied⟩
  · refine ⟨existing, kept, ?_⟩
    rcases UInt64.lt_or_eq_of_le refused with lower | same
    · exact Or.inr lower
    · exact Or.inl
        ⟨same.symm,
          data_eq_of_noVersionClash noClash found phase request stored
            same.symm⟩
  · exact ⟨_, applied, Or.inl ⟨rfl, rfl⟩⟩

end Cluster

end HautePerformance.KvDistributed
