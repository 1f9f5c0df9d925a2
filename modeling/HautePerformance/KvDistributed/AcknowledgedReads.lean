import HautePerformance.Library.RpcDelivery
import HautePerformance.Library.RpcLogic
import HautePerformance.KvDistributed.ClusterSteps

/-!
# Reading an acknowledged write

Client operations on a key follow one another, while any call between nodes may
fail.  A replica that has stored the last `Put` keeps its value, or nothing at all,
as long as it does not refuse a `Replicate` of that `Put`, no delayed write of an
older one is applied on top and no two writes of the key are under way at one node.
An acknowledged `Put` has been stored by all replicas, so that a later `Get` finds no
other value, as long as the nodes do not take the responses to earlier calls for
those to their own.
-/

namespace HautePerformance.KvDistributed

open Library
open Library.Rpc

/-- The request serves the other one, a client's. -/
inductive Request.Descends : Request → Request → Prop
  | refl (request : Request) : Descends request request
  | replicate (key : String) (value : Bytes) (ttlMs : Option UInt64)
      (version : UInt64) (sourceNodeId : UInt32) :
      Descends (.put key value ttlMs)
        (.replicate key value version ttlMs sourceNodeId)

/-- A call descends from what its sender's request descends from. -/
theorem Request.Descends.handedOn {cluster : Cluster} {name target : String}
    {root request called : Request} (descends : Descends root request)
    (calls : cluster.Calls name request target called) :
    Descends root called := by
  cases calls with
  | get isReplica notLocal => exact descends
  | forward value ttlMs notReplica replicasAre => exact descends
  | replicate value version ttlMs isReplica notLocal =>
      cases descends with
      | refl request => exact .replicate _ _ _ _ _
  | delete isReplica notLocal => exact descends

/-- Only a request that writes the key has writes of it made on its behalf. -/
theorem Request.Descends.stores {root request : Request} {key : String}
    (descends : Descends root request) (writes : request.stores key = true) :
    root.stores key = true := by
  cases descends with
  | refl request => exact writes
  | replicate other value ttlMs version sourceNodeId => exact writes

namespace Cluster

/-! ## The condition on the runs -/

/-- A client's `Put` or `Delete` of the key. -/
def isClientWrite (key : String) (execution : ClusterExecution) : Bool :=
  execution.caller.isNone &&
    match execution.request with
    | .put other _ _ => other == key
    | .delete other => other == key
    | _ => false

/-- A client's `Put` of the key. -/
def isClientPut (key : String) (execution : ClusterExecution) : Bool :=
  execution.caller.isNone &&
    match execution.request with
    | .put other _ _ => other == key
    | _ => false

/-- The execution with this index is a client's `Put` of the key, and clients have
not written the key since. -/
def isLastPut (key : String) (network : ClusterNetwork) (last : Nat) : Bool :=
  (network.executions[last]?).any (isClientPut key) &&
    (network.executions.drop (last + 1)).all
      fun execution => !isClientWrite key execution

/-- On behalf of the client request, the node has served a local write or a
`Replicate` of the key. -/
def hasStored (key : String) (network : ClusterNetwork) (root : Nat)
    (name : String) : Bool :=
  network.executions.any fun execution =>
    execution.root == root && execution.node == name &&
      execution.request.stores key && !execution.isActing

/-- Clients wait for the responses about the key before they ask again. -/
def oneAtATime (key : String) (network : ClusterNetwork) :
    ClusterLabel → Bool
  | .issue _ request =>
      request.key? != some key ||
        network.executions.all fun execution =>
          execution.caller.isSome || execution.request.key? != some key ||
            execution.response?.isSome
  | _ => true

/-- The write about to be made does not spoil the last `Put`: a `Replicate` of it
is not refused in favour of other data, and where it has been stored, an older
`Replicate` is refused and an older `Put` does not arrive. -/
def keepsLastPut (key : String) (network : ClusterNetwork)
    (label : ClusterLabel) : Bool :=
  match network.acting? label with
  | some execution =>
      let stored := (network.stores execution.node).storage.lookup key
      (List.range network.executions.length).all fun last =>
        !isLastPut key network last ||
          match execution.request with
          | .put other _ _ =>
              other != key || execution.root == last ||
                !hasStored key network last execution.node
          | .replicate other value version _ _ =>
              other != key ||
                if execution.root == last then
                  stored.all fun existing =>
                    decide (existing.version < version) ||
                      existing.data == value
                else
                  !hasStored key network last execution.node ||
                    stored.any fun existing =>
                      decide (version ≤ existing.version)
          | _ => true
  | none => true

/-- A write of the key takes an `Ack` for its own, or a `Get` of the key a value. -/
def mistakesAnswer (key : String) (misreading : ClusterMisreading) : Bool :=
  misreading.request.stores key && misreading.response.isAck ||
    misreading.request == .get key && misreading.response.hasData

def readGuard (key : String) (network : ClusterNetwork)
    (label : ClusterLabel) : Bool :=
  oneAtATime key network label && keepsLastPut key network label &&
    (noMisread (mistakesAnswer key) network label && writesAlone key network label)

/-- A `Get` issued after an acknowledged `Put` without TTL, with no client write in
between, returns the value of the `Put` if it returns a value. -/
def ReadsAcknowledgedWrite (network : ClusterNetwork) (key : String) : Prop :=
  ∀ (put get : Nat) (writer reader : ClusterExecution) (value data : Bytes)
    (version readVersion : UInt64) (nodeId : UInt32),
    network.executions[put]? = some writer →
    writer.caller = none →
    writer.request = .put key value none →
    writer.phase = .finished (.ack version nodeId) →
    (∀ (other : Nat) (execution : ClusterExecution),
      put < other →
      network.executions[other]? = some execution →
      isClientWrite key execution = false) →
    put < get →
    network.executions[get]? = some reader →
    reader.caller = none →
    reader.request = .get key →
    reader.phase = .finished (.value (some data) readVersion) →
    data = value

/-! ## What the condition says -/

section Readings

variable {key : String} {network : ClusterNetwork}

theorem isLastPut_iff {last : Nat} :
    isLastPut key network last = true ↔
      (∃ origin value ttlMs,
        network.executions[last]? = some origin ∧
          origin.caller = none ∧
          origin.request = .put key value ttlMs) ∧
        ∀ (other : Nat) (execution : ClusterExecution),
          last < other →
          network.executions[other]? = some execution →
          isClientWrite key execution = false := by
  have isPut (execution : ClusterExecution) :
      isClientPut key execution = true ↔
        execution.caller = none ∧
          ∃ value ttlMs, execution.request = .put key value ttlMs := by
    unfold isClientPut
    cases execution.request <;> simp
  unfold isLastPut
  simp only [Bool.and_eq_true, Option.any_eq_true, List.all_eq_true,
    Bool.not_eq_true', isPut]
  constructor
  · intro given
    obtain ⟨⟨origin, found, isClient, value, ttlMs, request⟩, noneAfter⟩ := given
    refine ⟨⟨origin, value, ttlMs, found, isClient, request⟩, ?_⟩
    intro other execution order foundOther
    have atOffset :
        (network.executions.drop (last + 1))[other - (last + 1)]? =
          some execution := by
      rw [List.getElem?_drop, Nat.add_sub_cancel' order]
      exact foundOther
    exact noneAfter execution (List.mem_of_getElem? atOffset)
  · intro given
    obtain ⟨⟨origin, value, ttlMs, found, isClient, request⟩, noneAfter⟩ := given
    refine ⟨⟨origin, found, isClient, value, ttlMs, request⟩, ?_⟩
    intro execution member
    obtain ⟨offset, atOffset⟩ := List.getElem?_of_mem member
    rw [List.getElem?_drop] at atOffset
    exact noneAfter (last + 1 + offset) execution (by omega) atOffset

theorem hasStored_iff {root : Nat} {name : String} :
    hasStored key network root name = true ↔
      ∃ (index : Nat) (execution : ClusterExecution),
        network.executions[index]? = some execution ∧
          execution.root = root ∧
          execution.node = name ∧
          execution.request.stores key = true ∧
          execution.isActing = false := by
  simp only [hasStored, List.any_eq_true, Bool.and_eq_true, beq_iff_eq,
    Bool.not_eq_true']
  constructor
  · intro given
    obtain ⟨execution, member, ⟨⟨root, node⟩, stores⟩, past⟩ := given
    obtain ⟨index, found⟩ := List.getElem?_of_mem member
    exact ⟨index, execution, found, root, node, stores, past⟩
  · intro given
    obtain ⟨index, execution, found, root, node, stores, past⟩ := given
    exact ⟨execution, List.mem_of_getElem? found, ⟨⟨root, node⟩, stores⟩, past⟩

variable {index last : Nat} {execution : ClusterExecution}
variable {act : NodeState → NodeState} {next : NodeState → NodeProg Response}

theorem not_hasStored_of_put {value : Bytes} {ttlMs : Option UInt64}
    (keeps : keepsLastPut key network (.step index) = true)
    (found : network.executions[index]? = some execution)
    (phase : execution.phase = .running (.atomic act next))
    (request : execution.request = .put key value ttlMs)
    (isLast : isLastPut key network last = true)
    (older : execution.root ≠ last) :
    hasStored key network last execution.node = false := by
  have inRange : last < network.executions.length := by
    obtain ⟨⟨origin, _, _, foundLast, _⟩, _⟩ := isLastPut_iff.mp isLast
    exact (List.getElem?_eq_some_iff.mp foundLast).1
  simp only [keepsLastPut, Network.acting?_step found phase, request,
    List.all_eq_true, List.mem_range] at keeps
  simpa [isLast, older] using keeps last inRange

theorem keeps_replicate {value : Bytes} {version : UInt64}
    {ttlMs : Option UInt64} {sourceNodeId : UInt32}
    (keeps : keepsLastPut key network (.step index) = true)
    (found : network.executions[index]? = some execution)
    (phase : execution.phase = .running (.atomic act next))
    (request :
      execution.request = .replicate key value version ttlMs sourceNodeId)
    (isLast : isLastPut key network last = true) :
    (execution.root = last →
      ∀ existing,
        (network.stores execution.node).storage.lookup key = some existing →
        existing.version < version ∨ existing.data = value) ∧
    (execution.root ≠ last →
      hasStored key network last execution.node = true →
      ∃ existing,
        (network.stores execution.node).storage.lookup key = some existing ∧
          version ≤ existing.version) := by
  have inRange : last < network.executions.length := by
    obtain ⟨⟨origin, _, _, foundLast, _⟩, _⟩ := isLastPut_iff.mp isLast
    exact (List.getElem?_eq_some_iff.mp foundLast).1
  simp only [keepsLastPut, Network.acting?_step found phase, request,
    List.all_eq_true, List.mem_range] at keeps
  have here := keeps last inRange
  refine ⟨?_, ?_⟩
  · intro same existing stored
    simpa [isLast, same, stored] using here
  · intro older already
    simpa [isLast, older, already, Option.any_eq_true] using here

end Readings

/-! ## Where the last `Put` has been stored -/

variable (cluster : Cluster) (key : String)

abbrev readSetting :
    Setting String NodeState Request Response CallError NodeEvent :=
  ⟨cluster.service, fun network label => readGuard key network label = true⟩

def readTyping : (cluster.readSetting key).Typing :=
  cluster.typing _ (fun _ _ => True) (fun _ => trivial) (fun _ _ => trivial)

/-- Where the last `Put` has been stored, nothing else is. -/
def KeepsLastPut (network : ClusterNetwork) : Prop :=
  ∀ (last : Nat) (origin : ClusterExecution) (value : Bytes)
    (ttlMs : Option UInt64) (replica : String) (entry : ValueEntry),
    isLastPut key network last = true →
    network.executions[last]? = some origin →
    origin.request = .put key value ttlMs →
    replica ∈ cluster.replicas key →
    hasStored key network last replica = true →
    (network.stores replica).storage.lookup key = some entry →
    entry.data = value

/-- What one allowed step provides. -/
structure ReadStep (label : ClusterLabel) (source target : ClusterNetwork) :
    Prop where
  typed : (cluster.readTyping key).Typed source
  rooted : source.Rooted Request.Descends
  allowed : readGuard key source label = true
  moves : cluster.service.Moves source label target

variable {cluster key}

/-- Every execution serves a client request that its own request descends from. -/
theorem rooted_of_reachable
    {allowed : ClusterNetwork → ClusterLabel → Prop} {world : ClusterWorld}
    (reachable : cluster.service.system.Reachable allowed world) :
    world.state.Rooted Request.Descends := by
  refine
    (cluster.typing allowed (fun _ _ => True) (fun _ => trivial)
      (fun _ _ => trivial)).rooted Request.Descends.refl ?_ reachable
  intro root name request requests next descends good target called member
  exact descends.handedOn (good.2.1.1 target called member)

theorem readStep_of_step {label : ClusterLabel} {source target : ClusterWorld}
    (reachable : (cluster.readSetting key).Reachable source)
    (step : (cluster.readSetting key).Step label source target) :
    ReadStep cluster key label source.state target.state where
  typed := (cluster.readTyping key).typed reachable
  rooted := rooted_of_reachable reachable
  allowed := step.1
  moves := Setting.moves step

section OneStep

variable {label : ClusterLabel} {source target : ClusterNetwork}
variable (step : ReadStep cluster key label source target)
include step

theorem ReadStep.keeps : keepsLastPut key source label = true := by
  have allowed := step.allowed
  simp only [readGuard, Bool.and_eq_true] at allowed
  exact allowed.1.2

/-- A stored write stays stored. -/
theorem ReadStep.hasStored {root : Nat} {name : String}
    (stored : hasStored key source root name = true) :
    Cluster.hasStored key target root name = true := by
  obtain ⟨index, execution, found, rootIs, node, stores, past⟩ :=
    hasStored_iff.mp stored
  obtain ⟨later, foundLater, evolves⟩ :=
    step.moves.persists index execution found
  refine hasStored_iff.mpr
    ⟨index, later, foundLater, evolves.root.trans rootIs,
      evolves.node.trans node, by rw [evolves.request]; exact stores, ?_⟩
  refine Execution.not_isActing_of_phase fun act next phase => ?_
  have inRange : index < source.executions.length :=
    (List.getElem?_eq_some_iff.mp found).1
  have notAtomic (before : NodeProg Response)
      (running : execution.phase = .running before) :
      ∀ act next, before ≠ .atomic act next := by
    rintro act next rfl
    rw [Execution.isActing_of_phase running] at past
    cases past
  rcases step.moves.running_cases foundLater phase with
    ⟨old, oldFound, _, _, oldPhase⟩ |
      ⟨old, before, oldFound, _, _, oldPhase, continues⟩ |
        ⟨isNew, _⟩ | ⟨_, isNew, _⟩
  · rw [found] at oldFound
    cases oldFound
    exact notAtomic _ oldPhase act next rfl
  · rw [found] at oldFound
    cases oldFound
    have once := (step.typed.good found oldPhase).2.2 key stores
    have actless := (once.actless (notAtomic before oldPhase)).continues continues
    exact actless.1
  · omega
  · omega

/-- A stored write was stored before, or is being stored by this step. -/
theorem ReadStep.hasStored_cases {root : Nat} {replica : String}
    (isReplica : replica ∈ cluster.replicas key)
    (stored : Cluster.hasStored key target root replica = true) :
    Cluster.hasStored key source root replica = true ∨
      ∃ (index : Nat) (execution : ClusterExecution)
        (act : NodeState → NodeState) (next : NodeState → NodeProg Response),
        label = .step index ∧
          source.executions[index]? = some execution ∧
          execution.root = root ∧
          execution.node = replica ∧
          execution.request.stores key = true ∧
          execution.phase = .running (.atomic act next) := by
  obtain ⟨index, later, foundLater, rootIs, node, stores, past⟩ :=
    hasStored_iff.mp stored
  -- A new execution on a replica has still to act.
  have notNew
      (phase : later.phase =
        .running (cluster.service.handler later.node later.request)) :
      False := by
    obtain ⟨act, next, acts⟩ :=
      isActing_handler stores (node ▸ isReplica :
        later.node ∈ cluster.replicas key)
    rw [acts] at phase
    rw [Execution.isActing_of_phase phase] at past
    cases past
  rcases step.moves.origin foundLater with
    ⟨execution, found, evolves⟩ | ⟨_, _, _, _, added⟩ | ⟨_, _, _, _, added⟩
  · cases acting : execution.isActing with
    | false =>
        exact Or.inl (hasStored_iff.mpr
          ⟨index, execution, found, evolves.root.symm.trans rootIs,
            evolves.node.symm.trans node, evolves.request ▸ stores, acting⟩)
    | true =>
        obtain ⟨act, next, phase⟩ := Execution.exists_phase_of_isActing acting
        rcases step.moves.running_or_steps found phase with
          ⟨other, foundOther, _, _, samePhase⟩ | steps
        · rw [foundLater] at foundOther
          cases foundOther
          rw [Execution.isActing_of_phase samePhase] at past
          cases past
        · exact Or.inr
            ⟨index, execution, act, next, steps, found,
              evolves.root.symm.trans rootIs, evolves.node.symm.trans node,
              evolves.request ▸ stores, phase⟩
  · exact (notNew (by rw [added]; rfl)).elim
  · exact (notNew (by rw [added]; rfl)).elim

/-- The last `Put` was the last one before. -/
theorem ReadStep.isLastPut_back {last : Nat}
    (isLast : isLastPut key target last = true)
    (inRange : last < source.executions.length) :
    Cluster.isLastPut key source last = true := by
  obtain ⟨⟨later, value, ttlMs, foundLater, isClient, request⟩, noneAfter⟩ :=
    isLastPut_iff.mp isLast
  obtain ⟨origin, found, evolves⟩ :=
    step.moves.persists.back foundLater inRange
  refine isLastPut_iff.mpr
    ⟨⟨origin, value, ttlMs, found, evolves.caller.symm.trans isClient,
      evolves.request.symm.trans request⟩, ?_⟩
  intro other execution order foundOther
  obtain ⟨after, foundAfter, evolvesAfter⟩ :=
    step.moves.persists other execution foundOther
  have notWrite := noneAfter other after order foundAfter
  simpa only [isClientWrite, evolvesAfter.caller, evolvesAfter.request]
    using notWrite

/-- What the write of an execution stores is the value of the last `Put` when it
serves that `Put`. -/
theorem ReadStep.value_of_root {index last : Nat}
    {execution origin : ClusterExecution} {value other : Bytes}
    {ttlMs : Option UInt64}
    (found : source.executions[index]? = some execution)
    (root : execution.root = last)
    (foundLast : source.executions[last]? = some origin)
    (request : origin.request = .put key value ttlMs)
    (writes :
      (∃ otherTtl, execution.request = .put key other otherTtl) ∨
        ∃ version otherTtl sourceNodeId,
          execution.request =
            .replicate key other version otherTtl sourceNodeId) :
    other = value := by
  obtain ⟨client, foundClient, _, descends⟩ := step.rooted.origin found
  rw [root, foundLast] at foundClient
  cases foundClient
  rw [request] at descends
  rcases writes with ⟨otherTtl, isPut⟩ | ⟨version, otherTtl, source, isRepl⟩
  · rw [isPut] at descends
    cases descends
    rfl
  · rw [isRepl] at descends
    cases descends
    rfl

/-- A write on behalf of the last `Put` that leaves the entry of the key as it is
finds the value of that `Put` there. -/
theorem ReadStep.value_of_unchanged {index last : Nat}
    {execution origin : ClusterExecution} {act : NodeState → NodeState}
    {next : NodeState → NodeProg Response} {value : Bytes}
    {ttlMs : Option UInt64} {entry : ValueEntry}
    (isStep : label = .step index)
    (found : source.executions[index]? = some execution)
    (phase : execution.phase = .running (.atomic act next))
    (root : execution.root = last)
    (stores : execution.request.stores key = true)
    (isLast : isLastPut key source last = true)
    (foundLast : source.executions[last]? = some origin)
    (request : origin.request = .put key value ttlMs)
    (same :
      (execution.request.action
          (source.stores execution.node)).storage.lookup key =
        (source.stores execution.node).storage.lookup key)
    (stored :
      (source.stores execution.node).storage.lookup key = some entry) :
    entry.data = value := by
  have keeps := step.keeps
  subst isStep
  rcases Request.stores_iff.mp stores with
    ⟨data, otherTtl, isPut⟩ |
      ⟨data, version, otherTtl, sourceNodeId, isReplicate⟩
  · rw [isPut] at same
    simp only [Request.action, NodeState.put,
      StorageEngine.lookup_put_self] at same
    rw [stored] at same
    cases same
    exact step.value_of_root found root foundLast request
      (Or.inl ⟨_, isPut⟩)
  · have sameValue : data = value :=
      step.value_of_root found root foundLast request
        (Or.inr ⟨_, _, _, isReplicate⟩)
    have refusal :=
      (keeps_replicate keeps found phase isReplicate isLast).1 root entry stored
    rcases refusal with lower | sameData
    · -- A greater version is applied, so the entry is the one written.
      rw [isReplicate] at same
      simp only [Request.action, NodeState.putWithVersion] at same
      rcases StorageEngine.lookup_putWithVersion_self
          (source.stores execution.node).storage key data version
          (otherTtl.map durationFromMillis)
          (source.stores execution.node).now with
        ⟨existing, storedHere, refused, _⟩ | ⟨_, applied⟩
      · rw [stored] at storedHere
        cases storedHere
        have absurdity := UInt64.lt_of_lt_of_le lower refused
        exact absurd absurdity (UInt64.lt_irrefl _)
      · rw [applied, stored] at same
        cases same
        exact sameValue
    · exact sameData.trans sameValue

/-- What an action leaves on a node that had stored the last `Put`, or that stores
it now. -/
theorem ReadStep.value_of_action {index last : Nat}
    {execution origin : ClusterExecution} {act : NodeState → NodeState}
    {next : NodeState → NodeProg Response} {value : Bytes}
    {ttlMs : Option UInt64} {entry : ValueEntry}
    (isStep : label = .step index)
    (found : source.executions[index]? = some execution)
    (phase : execution.phase = .running (.atomic act next))
    (isLast : isLastPut key source last = true)
    (foundLast : source.executions[last]? = some origin)
    (request : origin.request = .put key value ttlMs)
    (kept :
      Cluster.hasStored key source last execution.node = true →
      (source.stores execution.node).storage.lookup key = some entry →
      entry.data = value)
    (alreadyOrRoot :
      Cluster.hasStored key source last execution.node = true ∨
        execution.root = last ∧ execution.request.stores key = true)
    (after :
      (execution.request.action
        (source.stores execution.node)).storage.lookup key = some entry) :
    entry.data = value := by
  rcases execution.request.lookup_action_cases
      (source.stores execution.node) key with
    same | ⟨_, _, removed, _⟩ | ⟨other, otherTtl, isPut, written⟩ |
      ⟨other, version, otherTtl, sourceNodeId, isReplicate, higher, written⟩
  · have stored := same.symm.trans after
    rcases alreadyOrRoot with already | ⟨root, stores⟩
    · exact kept already stored
    · exact step.value_of_unchanged isStep found phase root stores isLast
        foundLast request same stored
  · rw [removed] at after
    cases after
  · rw [written] at after
    cases after
    by_cases root : execution.root = last
    · exact step.value_of_root found root foundLast request
        (Or.inl ⟨_, isPut⟩)
    · have absent :=
        not_hasStored_of_put (isStep ▸ step.keeps) found phase isPut isLast root
      rcases alreadyOrRoot with already | ⟨sameRoot, _⟩
      · rw [absent] at already
        cases already
      · exact absurd sameRoot root
  · rw [written] at after
    cases after
    by_cases root : execution.root = last
    · exact step.value_of_root found root foundLast request
        (Or.inr ⟨_, _, _, isReplicate⟩)
    · rcases alreadyOrRoot with already | ⟨sameRoot, _⟩
      · obtain ⟨existing, storedHere, refused⟩ :=
          (keeps_replicate (isStep ▸ step.keeps) found phase isReplicate
            isLast).2 root already
        have absurdity :=
          UInt64.lt_of_lt_of_le (higher existing storedHere) refused
        exact absurd absurdity (UInt64.lt_irrefl _)
      · exact absurd sameRoot root

/-- The step lemma for the value that the replicas keep. -/
theorem ReadStep.keepsLastPut (before : cluster.KeepsLastPut key source) :
    cluster.KeepsLastPut key target := by
  intro last later value ttlMs replica entry isLast foundLater request
    isReplica stored found
  -- The `Put` is not new: somebody has stored it or is about to.
  have inRange : last < source.executions.length := by
    rcases step.hasStored_cases isReplica stored with
      already | ⟨index, execution, _, _, _, foundHere, root, _⟩
    · obtain ⟨index, execution, foundHere, root, _⟩ := hasStored_iff.mp already
      obtain ⟨client, foundClient, _⟩ := step.rooted.origin foundHere
      rw [root] at foundClient
      exact (List.getElem?_eq_some_iff.mp foundClient).1
    · obtain ⟨client, foundClient, _⟩ := step.rooted.origin foundHere
      rw [root] at foundClient
      exact (List.getElem?_eq_some_iff.mp foundClient).1
  obtain ⟨origin, foundLast, evolves⟩ :=
    step.moves.persists.back foundLater inRange
  have isLastBefore := step.isLastPut_back isLast inRange
  have requestBefore : origin.request = .put key value ttlMs :=
    evolves.request.symm.trans request
  have kept (already : Cluster.hasStored key source last replica = true)
      (old : (source.stores replica).storage.lookup key = some entry) :
      entry.data = value :=
    before last origin value ttlMs replica entry isLastBefore foundLast
      requestBefore isReplica already old
  rcases step.hasStored_cases isReplica stored with
    already | ⟨index, execution, act, next, isStep, foundHere, root, node,
      stores, phase⟩
  · rcases Cluster.store_cases (cluster.readTyping key) rfl
        (fun good => good.2.1) step.typed step.moves replica with
      same | ⟨index, execution, act, next, isStep, foundHere, node, phase, _,
        actedHere⟩ | ⟨event, _, applied⟩
    · rw [same] at found
      exact kept already found
    · subst node
      rw [actedHere] at found
      exact step.value_of_action isStep foundHere phase isLastBefore foundLast
        requestBefore kept (Or.inl already) found
    · rw [applied] at found
      cases event with
      | tick elapsed => exact kept already found
      | purge =>
          exact kept already (StorageEngine.lookup_purgeExpired.mp found).1
  · have performed := step.moves
    subst node
    rw [isStep] at performed
    rw [performed.eq_perform foundHere phase, Network.perform_stores_self,
      (step.typed.good foundHere phase).2.1.1.1] at found
    exact step.value_of_action isStep foundHere phase isLastBefore foundLast
      requestBefore kept (Or.inr ⟨root, stores⟩) found

end OneStep

theorem keepsLastPut_of_reachable {world : ClusterWorld}
    (reachable : (cluster.readSetting key).Reachable world) :
    cluster.KeepsLastPut key world.state := by
  refine System.Reachable.invariant reachable
    (fun world => cluster.KeepsLastPut key world.state) ?_ ?_
  · rintro network rfl last origin value ttlMs replica entry isLast found
    simp [Service.initial] at found
  · intro label source target reached holds step
    exact (readStep_of_step reached step).keepsLastPut holds

/-! ## An acknowledged `Put` has been stored by all replicas -/

/-- The default configuration: two replicas, and both acks. -/
def DefaultQuorum (cluster : Cluster) : Prop :=
  ∀ name,
    (cluster.replicator name).replicationFactor = 2 ∧
      (cluster.replicator name).writeQuorum = 2

variable (cluster key)

def storedContract :
    Contract String NodeState Request Response CallError NodeEvent where
  Inv _ := True
  Pre _ _ _ _ := True
  Post root name request response world :=
    (∀ value version ttlMs sourceNodeId acked nodeId,
      request = .replicate key value version ttlMs sourceNodeId →
      response = .ack acked nodeId →
      hasStored key world.state root name = true) ∧
    ∀ value ttlMs version nodeId,
      request = .put key value ttlMs →
      response = .ack version nodeId →
      ∀ replica, replica ∈ cluster.replicas key →
        hasStored key world.state root replica = true

variable {cluster key}

/-- An allowed step lets no call about the key take a wrong response. -/
theorem not_mistaken {network : ClusterNetwork} {call : CallId}
    {position : Nat} {misreading : ClusterMisreading}
    (allowed : readGuard key network (.misread call position) = true)
    (finds : network.misreading? call position = some misreading) :
    mistakesAnswer key misreading = false := by
  simp only [readGuard, Bool.and_eq_true] at allowed
  exact not_wrong_of_noMisread allowed.2.1 finds

theorem hasStored_stable (root : Nat) (name : String) :
    (cluster.storedContract key).Stable (cluster.readSetting key)
      fun world => hasStored key world.state root name = true := by
  intro label source target onward stored
  exact (readStep_of_step onward.reachable onward.step).hasStored stored

/-- An execution that writes the key has stored it once it has acted. -/
theorem hasStored_of_perform {network : ClusterNetwork} {index : Nat}
    {execution : ClusterExecution} {act : NodeState → NodeState}
    {next : NodeState → NodeProg Response}
    (found : network.executions[index]? = some execution)
    (stores : execution.request.stores key = true)
    (past : ∀ node further acts, next node ≠ .atomic further acts) :
    hasStored key (network.perform index execution act next) execution.root
      execution.node = true := by
  refine hasStored_iff.mpr
    ⟨index, _, Network.setExecution_self found, rfl, rfl, stores, ?_⟩
  refine Execution.not_isActing_of_phase fun further acts phase => ?_
  simp only [Phase.running.injEq] at phase
  exact past _ further acts phase

/-- With two replicas and a quorum of two, one ack besides the local one is that
of the only other replica. -/
theorem all_of_quorum (default : DefaultQuorum cluster) {name : String}
    (ackers : List String) (property : String → Prop)
    (isReplica : name ∈ cluster.replicas key)
    (here : property name)
    (nodup : ackers.Nodup)
    (held : ∀ acker, acker ∈ ackers →
      acker ∈ cluster.replicas key ∧ acker ≠ name ∧ property acker)
    (enough : (cluster.replicator name).writeQuorum ≤ 1 + ackers.length) :
    ∀ replica, replica ∈ cluster.replicas key → property replica := by
  have atMost : (cluster.replicas key).length ≤ 2 :=
    (default name).1 ▸ cluster.length_replicas_le name key
  rw [(default name).2] at enough
  have everyHolder : (name :: ackers).Subperm (cluster.replicas key) := by
    refine List.Nodup.subperm ?_ ?_
    · exact List.nodup_cons.mpr
        ⟨fun member => (held name member).2.1 rfl, nodup⟩
    · intro holder member
      rcases List.mem_cons.mp member with isName | other
      · exact isName ▸ isReplica
      · exact (held holder other).1
  have same : (name :: ackers).Perm (cluster.replicas key) :=
    everyHolder.perm_of_length_le (by simp only [List.length_cons]; omega)
  intro replica member
  rcases List.mem_cons.mp (same.mem_iff.mpr member) with isName | other
  · exact isName ▸ here
  · exact (held replica other).2.2

/-- The last phase of a `Put` whose write the node itself has stored. -/
theorem stored_safe_sendReplicates (default : DefaultQuorum cluster)
    {index root : Nat} {name : String} {value : Bytes}
    {ttlMs : Option UInt64} {version : UInt64} {world : ClusterWorld}
    (already :
      (name ∈ cluster.replicas key ∧
        hasStored key world.state root name = true) ∨
      ∀ replica, replica ∈ cluster.replicas key →
        hasStored key world.state root replica = true) :
    (cluster.storedContract key).Safe (cluster.readSetting key) index root
      name (.put key value ttlMs) []
      (((cluster.replicator name).sendReplicates key value ttlMs
        (cluster.replicas key) version).map (cluster.server name).putResponse)
      world := by
  refine ⟨fun _ _ _ => trivial, ?_⟩
  intro later outcomes future answered
  refine ⟨nofun, ?_⟩
  intro otherValue otherTtl acked nodeId isPut isAck
  rcases already with ⟨isReplica, storedHere⟩ | storedEverywhere
  · have enough := (KvServer.of_putResponse_decideQuorum isAck).1
    obtain ⟨ackers, sublist, length, held⟩ :=
      Replicator.exists_ackers
        (fun target =>
          (∃ called, (target, called) ∈
            (cluster.replicator name).replicateRequests key value version
              ttlMs (cluster.replicas key)) ∧
            hasStored key later.state root target = true)
        answered.length
        (by
          intro slot target request version nodeId asked okAt
          have member := List.mem_of_getElem? asked
          refine ⟨⟨request, member⟩, ?_⟩
          exact
            (answered.post slot target request _ asked okAt).1 _ _ _ _ _ _
              (Replicator.mem_replicateRequests.mp member).2.2.2 rfl)
    refine all_of_quorum default ackers
      (fun replica => hasStored key later.state root replica = true)
      isReplica ?_ ?_ ?_ ?_
    · exact (hasStored_stable root name).future future storedHere
    · exact
        (sublist.trans
          (Replicator.replicateRequests_sublist _ _ _ _ _ _)).nodup
            (cluster.nodup_replicas key)
    · intro acker member
      obtain ⟨⟨called, asked⟩, storedThere⟩ := held acker member
      obtain ⟨isReplica, notLocal, _⟩ :=
        Replicator.mem_replicateRequests.mp asked
      rw [cluster.named] at notLocal
      exact ⟨isReplica, notLocal, storedThere⟩
    · rwa [Replicator.countAcks_eq, ← length] at enough
  · intro replica member
    exact (hasStored_stable root replica).future future
      (storedEverywhere replica member)

theorem stored_safe_put (default : DefaultQuorum cluster) {index root : Nat}
    {name : String} {value : Bytes} {ttlMs : Option UInt64}
    (world : ClusterWorld) :
    (cluster.storedContract key).Safe (cluster.readSetting key) index root
      name (.put key value ttlMs) []
      (cluster.service.handler name (.put key value ttlMs)) world := by
  have failed (cause : ReplicationError) (later : ClusterWorld) :
      (cluster.storedContract key).Post root name (.put key value ttlMs)
        ((cluster.server name).putResponse (.error cause)) later :=
    ⟨nofun, nofun⟩
  simp only [service, KvServer.handleRequest, Replicator.putReplicated,
    cluster.agreement, cluster.named]
  split
  · exact failed _ world
  · rename_i target rest replicasAre
    split
    · rename_i isReplica
      intro later execution future reachable inv found sameNode sameRequest
        sameRoot phase allowed
      subst sameNode
      subst sameRoot
      refine ⟨trivial, stored_safe_sendReplicates default
        (Or.inl ⟨isReplica, ?_⟩)⟩
      refine hasStored_of_perform found ?_ ?_
      · rw [sameRequest]
        simp [Request.stores]
      · rintro node further acts ⟨⟩
    · split
      · refine ⟨fun _ _ _ => trivial, ?_⟩
        intro later outcomes future answered
        dsimp only
        split
        · rename_i version succeeded
          obtain ⟨nodeId, isOk⟩ := KvClient.putWithTtl_eq_ok succeeded
          have first := first_of_headD_ok isOk
          exact stored_safe_sendReplicates default
            (Or.inr
              ((answered.post 0 target (.put key value ttlMs) _ rfl first).2
                value ttlMs version nodeId rfl rfl))
        · exact failed _ later
      · exact failed _ world

theorem stored_sound (default : DefaultQuorum cluster) :
    (cluster.storedContract key).Sound (cluster.readSetting key) where
  inv_boot := trivial
  pre_stable _ _ _ := fun _ _ _ _ pre => pre
  post_stable root name request response := by
    intro label source target onward post
    refine ⟨?_, ?_⟩
    · intro value version ttlMs sourceNodeId acked nodeId isReplicate isAck
      exact hasStored_stable root name label source target onward
        (post.1 value version ttlMs sourceNodeId acked nodeId isReplicate isAck)
    · intro value ttlMs version nodeId isPut isAck replica member
      exact hasStored_stable root replica label source target onward
        (post.2 value ttlMs version nodeId isPut isAck replica member)
  issue_pre _ _ _ _ _ := trivial
  inv_quiet _ _ _ _ _ := trivial
  misread_post call position source target misreading onward finds := by
    have sound := not_mistaken onward.step.1 finds
    refine ⟨?_, ?_⟩
    · intro value version ttlMs sourceNodeId acked nodeId isReplicate isAck
      simp [mistakesAnswer, isReplicate, isAck, Request.stores,
        Response.isAck] at sound
    · intro value ttlMs version nodeId isPut isAck
      simp [mistakesAnswer, isPut, isAck, Request.stores, Response.isAck]
        at sound
  inv_env _ _ _ _ _ := trivial
  handler_safe index root name request world _ _ := by
    by_cases isPut : ∃ value ttlMs, request = .put key value ttlMs
    · obtain ⟨value, ttlMs, rfl⟩ := isPut
      exact stored_safe_put default world
    · by_cases isReplicate : ∃ value version ttlMs sourceNodeId,
          request = .replicate key value version ttlMs sourceNodeId
      · obtain ⟨value, version, ttlMs, sourceNodeId, rfl⟩ := isReplicate
        intro later execution future reachable inv found sameNode sameRequest
          sameRoot phase allowed
        subst sameNode
        subst sameRoot
        refine ⟨trivial, ?_, by rintro _ _ _ _ ⟨⟩⟩
        intro _ _ _ _ _ _ _ _
        refine hasStored_of_perform found ?_ ?_
        · rw [sameRequest]
          simp [Request.stores]
        · rintro node further acts ⟨⟩
      · refine Contract.Safe.of_within (within_handler name request)
          (fun _ _ _ _ _ _ _ _ _ => trivial) (fun _ _ _ _ => trivial) ?_ []
          world
        intro response later
        exact
          ⟨fun value version ttlMs sourceNodeId _ _ same _ =>
              (isReplicate ⟨value, version, ttlMs, sourceNodeId, same⟩).elim,
            fun value ttlMs _ _ same _ => (isPut ⟨value, ttlMs, same⟩).elim⟩

/-! ## What a later `Get` returns -/

variable (key)

/-- The client request is a `Get` of the key. -/
def AsksGet (network : ClusterNetwork) (root : Nat) : Prop :=
  ∃ origin : ClusterExecution,
    network.executions[root]? = some origin ∧
      origin.caller = none ∧
      origin.request = .get key

/-- The data is that of the last `Put`, if it was acknowledged, unless the `Put`
was issued after the client request `root`. -/
def AgreesWithLastPut (network : ClusterNetwork) (root : Nat)
    (data : Bytes) : Prop :=
  ∀ (last : Nat) (origin : ClusterExecution) (value : Bytes)
    (ttlMs : Option UInt64) (version : UInt64) (nodeId : UInt32),
    last < root →
    isLastPut key network last = true →
    network.executions[last]? = some origin →
    origin.request = .put key value ttlMs →
    origin.phase = .finished (.ack version nodeId) →
    data = value

/-- Client operations on the key begin when the earlier ones have ended. -/
def Sequential (network : ClusterNetwork) : Prop :=
  ∀ (earlier later : Nat) (first second : ClusterExecution),
    earlier < later →
    network.executions[earlier]? = some first →
    network.executions[later]? = some second →
    first.caller = none →
    second.caller = none →
    first.request.key? = some key →
    second.request.key? = some key →
    ∃ response, first.phase = .finished response

def getContract :
    Contract String NodeState Request Response CallError NodeEvent where
  Inv _ := True
  Pre root _ request world :=
    request = .get key → AsksGet key world.state root
  Post root _ request response world :=
    request = .get key →
    ∀ data version,
      response = .value (some data) version →
      AsksGet key world.state root ∧
        AgreesWithLastPut key world.state root data

variable {key}

theorem AsksGet.step
    {service :
      Service String NodeState Request Response CallError NodeEvent}
    {label : ClusterLabel} {source target : ClusterNetwork} {root : Nat}
    (asks : AsksGet key source root)
    (moves : service.Moves source label target) :
    AsksGet key target root := by
  obtain ⟨origin, found, isClient, request⟩ := asks
  obtain ⟨later, foundLater, evolves⟩ := moves.persists root origin found
  exact ⟨later, foundLater, evolves.caller.trans isClient,
    evolves.request.trans request⟩

theorem ReadStep.sequential {label : ClusterLabel}
    {source target : ClusterNetwork}
    (step : ReadStep cluster key label source target)
    (before : Sequential key source) : Sequential key target := by
  intro earlier later first second order foundFirst foundSecond firstClient
    secondClient firstKey secondKey
  by_cases inRange : later < source.executions.length
  · obtain ⟨oldFirst, oldFoundFirst, evolvesFirst⟩ :=
      step.moves.persists.back foundFirst (order.trans inRange)
    obtain ⟨oldSecond, oldFoundSecond, evolvesSecond⟩ :=
      step.moves.persists.back foundSecond inRange
    obtain ⟨response, ended⟩ :=
      before earlier later oldFirst oldSecond order oldFoundFirst
        oldFoundSecond (evolvesFirst.caller.symm.trans firstClient)
        (evolvesSecond.caller.symm.trans secondClient)
        (by rw [← evolvesFirst.request]; exact firstKey)
        (by rw [← evolvesSecond.request]; exact secondKey)
    exact ⟨response, evolvesFirst.ended response ended⟩
  · -- The later operation is being issued: all earlier ones have ended.
    rcases step.moves.origin foundSecond with
      ⟨old, oldFound, _⟩ | ⟨name, request, isIssue, isNew, added⟩ |
        ⟨_, _, _, _, added⟩
    · exact (inRange (List.getElem?_eq_some_iff.mp oldFound).1).elim
    · obtain ⟨oldFirst, oldFoundFirst, evolves⟩ :=
        step.moves.persists.back foundFirst (isNew ▸ order)
      have allowed := step.allowed
      rw [added] at secondKey
      simp only [readGuard, isIssue, oneAtATime, Bool.and_eq_true] at allowed
      have ended := allowed.1.1
      rw [show request.key? = some key from secondKey] at ended
      simp only [bne_self_eq_false, Bool.false_or, List.all_eq_true] at ended
      have endedFirst := ended oldFirst (List.mem_of_getElem? oldFoundFirst)
      rw [← evolves.caller, ← evolves.request, firstClient, firstKey]
        at endedFirst
      simp only [Option.isSome_none, bne_self_eq_false, Bool.or_self,
        Bool.false_or, Option.isSome_iff_exists] at endedFirst
      obtain ⟨response, responded⟩ := endedFirst
      exact ⟨response,
        evolves.ended response (Execution.phase_of_response? responded)⟩
    · rw [added] at secondClient
      cases secondClient

theorem sequential_of_reachable {world : ClusterWorld}
    (reachable : (cluster.readSetting key).Reachable world) :
    Sequential key world.state := by
  refine System.Reachable.invariant reachable
    (fun world => Sequential key world.state) ?_ ?_
  · rintro network rfl earlier later first second _ found
    simp [Service.initial] at found
  · intro label source target reached holds step
    exact (readStep_of_step reached step).sequential holds

/-- Later steps do not change what the last `Put` before the `Get` was. -/
theorem agrees_stable {label : ClusterLabel} {source target : ClusterWorld}
    {root : Nat} {data : Bytes}
    (reachable : (cluster.readSetting key).Reachable source)
    (step : (cluster.readSetting key).Step label source target)
    (asks : AsksGet key source.state root)
    (agrees : AgreesWithLastPut key source.state root data) :
    AgreesWithLastPut key target.state root data := by
  intro last later value ttlMs version nodeId order isLast foundLater request
    ended
  have readStep := readStep_of_step reachable step
  obtain ⟨getter, getterFound, getterClient, getterRequest⟩ := asks
  have inRange : last < source.state.executions.length :=
    order.trans (List.getElem?_eq_some_iff.mp getterFound).1
  obtain ⟨origin, found, evolves⟩ :=
    readStep.moves.persists.back foundLater inRange
  have isLastBefore := readStep.isLastPut_back isLast inRange
  have requestBefore : origin.request = .put key value ttlMs :=
    evolves.request.symm.trans request
  have isClient : origin.caller = none := by
    obtain ⟨⟨other, _, _, foundOther, client, _⟩, _⟩ :=
      isLastPut_iff.mp isLastBefore
    rw [found] at foundOther
    cases foundOther
    exact client
  -- The `Put` had ended when the `Get` was issued, with the same response.
  obtain ⟨response, endedBefore⟩ :=
    sequential_of_reachable reachable last root origin getter order found
      getterFound isClient getterClient (by rw [requestBefore]; rfl)
      (by rw [getterRequest]; rfl)
  have sameResponse := evolves.ended response endedBefore
  rw [ended] at sameResponse
  cases sameResponse
  exact agrees last origin value ttlMs version nodeId order isLastBefore found
    requestBefore endedBefore

/-- What a replica returns agrees with the last acknowledged `Put`. -/
theorem agrees_of_lookup (default : DefaultQuorum cluster)
    {world : ClusterWorld}
    (reachable : (cluster.readSetting key).Reachable world) {replica : String}
    {entry : ValueEntry} (isReplica : replica ∈ cluster.replicas key)
    (found : (world.state.stores replica).storage.lookup key = some entry)
    (root : Nat) : AgreesWithLastPut key world.state root entry.data := by
  intro last origin value ttlMs version nodeId _ isLast foundLast request ended
  have isClient : origin.caller = none := by
    obtain ⟨⟨other, _, _, foundOther, client, _⟩, _⟩ := isLastPut_iff.mp isLast
    rw [foundLast] at foundOther
    cases foundOther
    exact client
  have root : origin.root = last :=
    (rooted_of_reachable reachable).client foundLast isClient
  have storedEverywhere :=
    ((stored_sound default).post reachable foundLast ended).2 value ttlMs
      version nodeId request rfl
  rw [root] at storedEverywhere
  exact keepsLastPut_of_reachable reachable last origin value ttlMs replica
    entry isLast foundLast request isReplica (storedEverywhere replica isReplica)
    found

theorem asksGet_stable (cluster : Cluster) (root : Nat) :
    (getContract key).Stable (cluster.readSetting key)
      fun world => AsksGet key world.state root := by
  intro label source target onward asks
  exact asks.step (Setting.moves onward.step)

theorem getPost_stable (cluster : Cluster) (root : Nat) (name : String)
    (request : Request) (response : Response) :
    (getContract key).Stable (cluster.readSetting key)
      ((getContract key).Post root name request response) := by
  intro label source target onward post isGet data version isValue
  obtain ⟨asks, agrees⟩ := post isGet data version isValue
  exact
    ⟨asksGet_stable cluster root label source target onward asks,
      agrees_stable onward.reachable onward.step asks agrees⟩

/-- The rule for the loop over the replicas.  `holds` is what is known throughout;
from it follow the response without a value and the precondition of the calls, and
an entry that is read and the value that a peer returns may be handed on. -/
theorem safe_getLoop
    {allowed : ClusterNetwork → ClusterLabel → Prop}
    {contract :
      Contract String NodeState Request Response CallError NodeEvent}
    {index root : Nat} {name : String} {holds : ClusterWorld → Prop}
    (inv : ∀ world, contract.Inv world)
    (stable : contract.Stable ⟨cluster.service, allowed⟩ holds)
    (nothing : ∀ world, holds world →
      contract.Post root name (.get key) (.value none 0) world)
    (pre : ∀ target world, holds world →
      contract.Pre root target (.get key) world)
    (reads : ∀ {source target : ClusterWorld} {execution : ClusterExecution}
      {entry : ValueEntry},
      contract.Onward ⟨cluster.service, allowed⟩ (.step index) source target →
      holds source →
      source.state.executions[index]? = some execution →
      execution.root = root →
      name ∈ cluster.replicas key →
      (source.state.stores name).storage.lookup key = some entry →
      contract.Post root name (.get key) (.value (some entry.data) 0) target)
    (hears : ∀ world target data version,
      contract.Post root target (.get key) (.value (some data) version) world →
      contract.Post root name (.get key) (.value (some data) 0) world)
    (replicas : List String)
    (areReplicas : ∀ replica, replica ∈ replicas →
      replica ∈ cluster.replicas key) :
    ∀ world, holds world →
      contract.Safe ⟨cluster.service, allowed⟩ index root name (.get key) []
        (((cluster.replicator name).getLoop key replicas).map
          KvServer.getResponse) world := by
  induction replicas with
  | nil => exact nothing
  | cons replica rest inductionHypothesis =>
      have continued :=
        inductionHypothesis fun other member =>
          areReplicas other (List.mem_cons_of_mem _ member)
      have isReplica := areReplicas replica List.mem_cons_self
      intro world known
      simp only [Replicator.getLoop, cluster.named]
      split
      · rename_i isLocal
        intro later execution future reachable invariant found sameNode
          sameRequest sameRoot phase permitted
        have onward :=
          Contract.Onward.of_perform contract ⟨cluster.service, allowed⟩
            reachable invariant found phase permitted
        have knownLater : holds later := stable.future future known
        refine ⟨inv _, ?_⟩
        dsimp only
        split
        · rename_i entry got
          exact reads onward knownLater found sameRoot (isLocal ▸ isReplica)
            (StorageEngine.get_eq_some got).1
        · exact continued _ (stable _ _ _ onward knownLater)
      · split
        · refine ⟨?_, ?_⟩
          · intro target called member
            obtain ⟨rfl, rfl⟩ := Prod.mk.inj (List.mem_singleton.mp member)
            exact pre _ world known
          · intro later outcomes future answered
            have knownLater : holds later := stable.future future known
            dsimp only
            split
            · rename_i value succeeded
              obtain ⟨version, isOk⟩ := KvClient.get_eq_ok succeeded
              exact
                hears later replica value version
                  (answered.post 0 replica (.get key) _ rfl
                    (first_of_headD_ok isOk))
            · exact continued later knownLater
            · exact continued later knownLater
        · exact continued world known

/-- The loop over the replicas returns nothing, or a value that agrees. -/
theorem get_safe_getLoop (default : DefaultQuorum cluster)
    {index root : Nat} {name : String} (world : ClusterWorld)
    (asks : AsksGet key world.state root) :
    (getContract key).Safe (cluster.readSetting key) index root name
      (.get key) []
      (((cluster.replicator name).getLoop key (cluster.replicas key)).map
        KvServer.getResponse) world := by
  refine safe_getLoop (fun _ => trivial) (asksGet_stable cluster root) ?_
    (fun _ _ asks _ => asks) ?_ ?_ _ (fun _ member => member) world asks
  · rintro later _ _ data version ⟨⟩
  · intro source target execution entry onward asksLater _ _ isReplica stored
    refine getPost_stable cluster root name (.get key) _ _ _ _ onward ?_
    rintro _ data version ⟨⟩
    exact
      ⟨asksLater,
        agrees_of_lookup default onward.reachable isReplica stored root⟩
  · rintro later target data version post _ other readVersion ⟨⟩
    exact post rfl data version rfl

theorem get_sound (key : String) (default : DefaultQuorum cluster) :
    (getContract key).Sound (cluster.readSetting key) where
  inv_boot := trivial
  pre_stable root _ _ := by
    intro label source target onward pre isGet
    exact asksGet_stable cluster root label source target onward
      (pre isGet)
  post_stable := getPost_stable cluster
  issue_pre name request source target onward := by
    intro isGet
    have spawned :
        target.state =
          source.state.spawn
            (cluster.service.clientExecution source.state.executions.length
              name request) :=
      (Option.some.inj onward.step.2.1).symm
    refine
      ⟨cluster.service.clientExecution source.state.executions.length name
        request, ?_, rfl, isGet⟩
    rw [spawned]
    exact Network.spawn_new _
  inv_quiet _ _ _ _ _ := trivial
  misread_post call position source target misreading onward finds := by
    intro isGet data version isValue
    have sound := not_mistaken onward.step.1 finds
    simp [mistakesAnswer, isGet, isValue, Response.hasData] at sound
  inv_env _ _ _ _ _ := trivial
  handler_safe index root name request world _ pre := by
    by_cases isGet : request = .get key
    · subst isGet
      simp only [service, KvServer.handleRequest, Replicator.getReplicated,
        cluster.agreement]
      split
      · rintro _ data version ⟨⟩
      · exact get_safe_getLoop default world (pre rfl)
    · refine Contract.Safe.of_within (within_handler name request)
        (fun _ _ _ _ _ _ _ _ _ => trivial) ?_
        (fun _ _ same => (isGet same).elim) [] world
      intro target called calls later isGetCall
      subst isGetCall
      cases calls with
      | get isReplica notLocal => exact (isGet rfl).elim

/-- With the default quorum, in every run whose client operations on the key are
sequential, whose writes keep the last `Put` and do not overlap at a node, and whose
calls about the key do not take the response to an earlier call for their own, a `Get`
that returns a value returns that of the acknowledged `Put` before it. -/
theorem reads_acknowledged_write (default : DefaultQuorum cluster)
    {world : ClusterWorld}
    (reachable :
      cluster.service.system.Reachable
        (fun network label => readGuard key network label = true) world) :
    ReadsAcknowledgedWrite world.state key := by
  intro put get writer reader value data version readVersion nodeId foundWriter
    isClientWriter putRequest acked noneAfter order foundReader isClientReader
    getRequest got
  have isLast : isLastPut key world.state put = true :=
    isLastPut_iff.mpr
      ⟨⟨writer, value, none, foundWriter, isClientWriter, putRequest⟩,
        noneAfter⟩
  have readerRoot : reader.root = get :=
    (rooted_of_reachable reachable).client foundReader isClientReader
  have post :=
    (get_sound key default).post reachable foundReader got getRequest
  rw [readerRoot] at post
  exact (post data readVersion rfl).2 put writer value none version nodeId order
    isLast foundWriter putRequest acked

/-! ## Runs on two nodes -/

/-- The execution is a client's `Get` of the key that returns the data. -/
def returnsData (execution : ClusterExecution) (key : String) (data : Bytes) :
    Bool :=
  execution.caller.isNone && execution.request == .get key &&
    execution.response? == some (.value (some data) 0)

theorem of_returnsData {execution : ClusterExecution} {key : String}
    {data : Bytes} (returns : returnsData execution key data = true) :
    execution.caller = none ∧ execution.request = .get key ∧
      execution.phase = .finished (.value (some data) 0) := by
  simp only [returnsData, Bool.and_eq_true, Option.isNone_iff_eq_none,
    beq_iff_eq] at returns
  exact ⟨returns.1.1, returns.1.2,
    Execution.phase_of_response? returns.2⟩

theorem defaultQuorum_small (names : List String) :
    DefaultQuorum (small names) :=
  fun _ => ⟨rfl, rfl⟩

/-- A first `Put` is given up, and its `Replicate` arrives after that of the second
`Put`: it is refused, and the second node returns the value of the second `Put`. -/
theorem reads_acknowledged_write_late_replicate :
    ∃ world,
      (small ["node-1", "node-2"]).service.system.Reachable
          (fun network label => readGuard "k" network label = true) world ∧
        (world.state.executions[1]?).any
            (fun execution => acksPut execution "node-1" "k" [2] 2) = true ∧
        (world.state.executions[4]?).any
            (fun execution => returnsData execution "k" [2]) = true ∧
        ReadsAcknowledgedWrite world.state "k" := by
  obtain ⟨world, reachable, checked⟩ :=
    System.exists_reachable_of_replay
      (small ["node-1", "node-2"]).service.system
      (fun network label => readGuard "k" network label = true)
      (small ["node-1", "node-2"]).service.initial
      [.issue "node-1" (.put "k" [1] none), .step 0, .step 0,
        .fail ⟨0, 0, 0⟩ .elapsed, .step 0, .step 0,
        .issue "node-1" (.put "k" [2] none), .step 1, .step 1, .deliver 1,
        .step 2, .step 2, .step 1, .step 1, .deliver 0, .step 3, .step 3,
        .issue "node-2" (.get "k"), .step 4, .deliver 0, .step 5, .step 5,
        .step 4, .step 4]
      (readGuard "k")
      (fun world =>
        (world.state.executions[1]?).any
            (fun execution => acksPut execution "node-1" "k" [2] 2) &&
          (world.state.executions[4]?).any
            (fun execution => returnsData execution "k" [2]))
      rfl (fun _ _ admitted => admitted) (by decide +kernel)
  rw [Bool.and_eq_true] at checked
  exact ⟨world, reachable, checked.1, checked.2,
    reads_acknowledged_write (defaultQuorum_small _) reachable⟩

/-- A first `Put` leaves its value on the first node when its `Replicate` is lost.
The second node then draws the same version for the next `Put`; the first node
refuses it with an ack, and goes on returning the old value. -/
theorem not_reads_acknowledged_write :
    ¬ ∀ (cluster : Cluster) (key : String) (world : ClusterWorld),
      DefaultQuorum cluster →
      cluster.service.system.Reachable
        (fun network label => oneAtATime key network label = true) world →
      ReadsAcknowledgedWrite world.state key := by
  intro reads
  obtain ⟨world, reachable, checked⟩ :=
    System.exists_reachable_of_replay
      (small ["node-1", "node-2"]).service.system
      (fun network label => oneAtATime "k" network label = true)
      (small ["node-1", "node-2"]).service.initial
      [.issue "node-1" (.put "k" [1] none), .step 0, .step 0, .lose 0,
        .fail ⟨0, 0, 0⟩ .elapsed, .step 0, .step 0,
        .issue "node-2" (.put "k" [2] none), .step 1, .step 1, .deliver 0,
        .step 2, .step 2, .step 1, .step 1, .issue "node-1" (.get "k"),
        .step 3, .step 3]
      (oneAtATime "k")
      (fun world =>
        world.state.executions.length == 4 &&
          (world.state.executions[1]?).any
            (fun execution => acksPut execution "node-2" "k" [2] 1) &&
          (world.state.executions[2]?).all
            (fun execution => execution.caller.isSome) &&
          (world.state.executions[3]?).any
            (fun execution => returnsData execution "k" [1]))
      rfl (fun _ _ admitted => admitted) (by decide +kernel)
  simp only [Bool.and_eq_true, beq_iff_eq, Option.any_eq_true,
    Option.all_eq_true] at checked
  obtain ⟨⟨⟨length, writer, foundWriter, acks⟩, served⟩, reader, foundReader,
    returns⟩ := checked
  obtain ⟨isClientWriter, _, putRequest, acked⟩ := of_acksPut acks
  obtain ⟨isClientReader, getRequest, got⟩ := of_returnsData returns
  have noneAfter : ∀ (other : Nat) (execution : ClusterExecution),
      1 < other →
      world.state.executions[other]? = some execution →
      isClientWrite "k" execution = false := by
    intro other execution order found
    have inRange : other < world.state.executions.length :=
      (List.getElem?_eq_some_iff.mp found).1
    have cases : other = 2 ∨ other = 3 := by omega
    rcases cases with rfl | rfl
    · have notClient := served execution found
      simp [isClientWrite, ← Option.not_isSome, notClient]
    · rw [foundReader] at found
      cases found
      simp [isClientWrite, getRequest]
  have same :=
    reads _ "k" world (defaultQuorum_small _) reachable 1 3 writer reader [2]
      [1] 1 0 2 foundWriter isClientWriter putRequest acked noneAfter
      (by decide) foundReader isClientReader getRequest got
  exact absurd same (by decide)

end Cluster

end HautePerformance.KvDistributed
