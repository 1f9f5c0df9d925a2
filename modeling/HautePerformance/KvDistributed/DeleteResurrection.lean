import HautePerformance.KvDistributed.AcknowledgedReads
import HautePerformance.KvDistributed.ScanAgreement

/-!
# Values that come back after a `Delete`

A `Delete` leaves nothing behind, no version and no tombstone.  A `Replicate` whose
sender has given up may still be in flight, and when it reaches a replica that has
executed its deletion, the value is there again.  The other way back is the
response to a `Get` that was given up before the deletion: a later `Get` on the same
connection may read it.  There is no third way.
-/

namespace HautePerformance.KvDistributed

open Library
open Library.Rpc

namespace Cluster

/-! ## The condition on the runs -/

/-- In this step the node executes its deletion of the key, on behalf of the client
request. -/
def deletesAt (key : String) (root : Nat) (name : String)
    (step : ClusterNetwork × ClusterLabel) : Bool :=
  (step.1.acting? step.2).any fun execution =>
    execution.node == name && execution.root == root &&
      execution.request == .delete key

/-- The client request has got its response. -/
def isAnswered (network : ClusterNetwork) (root : Nat) : Bool :=
  (network.executions[root]?).any fun execution => execution.response?.isSome

/-- Every client `Put` of the key has got its response. -/
def putsAnswered (key : String) (network : ClusterNetwork) : Bool :=
  network.executions.all fun execution =>
    execution.caller.isSome || !execution.request.stores key ||
      execution.response?.isSome

/-- What clients ask about the key: the `Put`s are answered before the `Delete`
with the index `delete`, and none comes after it; this `Delete` is answered, and
executed by every replica, before the `Get` with the index `get`. -/
def deletesBetween (cluster : Cluster) (key : String) (delete get : Nat)
    (earlier : List (ClusterNetwork × ClusterLabel))
    (step : ClusterNetwork × ClusterLabel) : Bool :=
  match step.2 with
  | .issue _ request =>
      let index := step.1.executions.length
      (index != delete || request == .delete key && putsAnswered key step.1) &&
        (decide (index < delete) || !request.stores key) &&
        (index != get ||
          request == .get key && isAnswered step.1 delete &&
            (cluster.replicas key).all fun replica =>
              earlier.any (deletesAt key delete replica))
  | _ => true

/-- The step is not a write of the key, left behind by a `Put` that has got its
response, at a replica that has executed its deletion. -/
def noLateWrite (key : String) (delete : Nat)
    (earlier : List (ClusterNetwork × ClusterLabel))
    (step : ClusterNetwork × ClusterLabel) : Bool :=
  match step.1.acting? step.2 with
  | some execution =>
      !execution.request.stores key || !isAnswered step.1 execution.root ||
        !earlier.any (deletesAt key delete execution.node)
  | none => true

/-- A call made for the client request takes, for the response to its own request,
data that an earlier call has left unread. -/
def mistakesData (root : Nat) (misreading : ClusterMisreading) : Bool :=
  misreading.caller.root == root && misreading.response.hasData

/-- No call made for the `Get` does so. -/
def noStaleData (get : Nat) (_ : List (ClusterNetwork × ClusterLabel))
    (step : ClusterNetwork × ClusterLabel) : Bool :=
  noMisread (mistakesData get) step.1 step.2

/-- A client `Get` of the key with this index returns no value. -/
def ReturnsNothing (network : ClusterNetwork) (key : String) (get : Nat) :
    Prop :=
  ∀ (reader : ClusterExecution) (data : Bytes) (version : UInt64),
    network.executions[get]? = some reader →
    reader.caller = none →
    reader.request = .get key →
    reader.phase ≠ .finished (.value (some data) version)

/-! ## What the condition says -/

/-- The run meets the condition. -/
structure CleanDelete (cluster : Cluster) (key : String) (delete get : Nat)
    (world : ClusterWorld) : Prop where
  ordered :
    passes (cluster.deletesBetween key delete get) world.trace = true
  noneLate : passes (noLateWrite key delete) world.trace = true
  noneStale : passes (noStaleData get) world.trace = true

section Readings

variable {cluster : Cluster} {key name : String} {delete get : Nat}

theorem deletesAt_iff {root : Nat} {network : ClusterNetwork}
    {label : ClusterLabel} :
    deletesAt key root name (network, label) = true ↔
      ∃ execution,
        network.acting? label = some execution ∧
          execution.node = name ∧
          execution.root = root ∧
          execution.request = .delete key := by
  simp [deletesAt, Option.any_eq_true, and_assoc]

theorem isAnswered_iff {network : ClusterNetwork} {root : Nat} :
    isAnswered network root = true ↔
      ∃ execution response,
        network.executions[root]? = some execution ∧
          execution.phase = .finished response := by
  simp only [isAnswered, Option.any_eq_true, Option.isSome_iff_exists]
  constructor
  · rintro ⟨execution, found, response, ended⟩
    exact ⟨execution, response, found, Execution.phase_of_response? ended⟩
  · rintro ⟨execution, response, found, ended⟩
    exact ⟨execution, found, response, by rw [Execution.response?, ended]⟩

/-- A `Put` that has to be answered is. -/
theorem isAnswered_of_putsAnswered {network : ClusterNetwork} {index : Nat}
    {writer : ClusterExecution} (answered : putsAnswered key network = true)
    (found : network.executions[index]? = some writer)
    (isClient : writer.caller = none)
    (writes : writer.request.stores key = true) :
    isAnswered network index = true := by
  simp only [putsAnswered, List.all_eq_true] at answered
  have here := answered writer (List.mem_of_getElem? found)
  simp only [isClient, writes, Option.isSome_none, Bool.not_true,
    Bool.false_or] at here
  simp [isAnswered, found, here]

theorem deletesBetween_issue {network : ClusterNetwork} {request : Request}
    {earlier : List (ClusterNetwork × ClusterLabel)} :
    cluster.deletesBetween key delete get earlier
        (network, .issue name request) = true ↔
      (network.executions.length = delete →
        request = .delete key ∧ putsAnswered key network = true) ∧
      (request.stores key = true → network.executions.length < delete) ∧
      (network.executions.length = get →
        request = .get key ∧
          isAnswered network delete = true ∧
          ∀ replica, replica ∈ cluster.replicas key →
            earlier.any (deletesAt key delete replica) = true) := by
  simp only [deletesBetween, Bool.and_eq_true, Bool.or_eq_true,
    bne_iff_ne, beq_iff_eq, Bool.not_eq_true', decide_eq_true_eq,
    List.all_eq_true, and_assoc, ← imp_iff_not_or, ne_eq]
  rw [or_comm (a := network.executions.length < delete),
    ← Bool.not_eq_true, ← imp_iff_not_or]

end Readings

/-! ## Runs that meet it -/

section Runs

variable {cluster : Cluster} {key name : String} {delete get : Nat}

/-- The part of a run before its last step meets the condition too. -/
theorem CleanDelete.before {label : ClusterLabel} {source target : ClusterWorld}
    (clean : CleanDelete cluster key delete get target)
    (step : (publicSetting cluster).Step label source target) :
    CleanDelete cluster key delete get source := by
  obtain ⟨ordered, noneLate, noneStale⟩ := clean
  rw [step.2.2] at ordered noneLate noneStale
  exact
    { ordered := (passes_cons.mp ordered).2
      noneLate := (passes_cons.mp noneLate).2
      noneStale := (passes_cons.mp noneStale).2 }

/-- The client requests in the order of the condition. -/
theorem CleanDelete.issued {world : ClusterWorld}
    (clean : CleanDelete cluster key delete get world)
    (reachable : (publicSetting cluster).Reachable world) {index : Nat}
    {execution : ClusterExecution}
    (found : world.state.executions[index]? = some execution)
    (isClient : execution.caller = none) :
    ∃ (network : ClusterNetwork)
      (earlier : List (ClusterNetwork × ClusterLabel)),
      network.Persists world.state ∧
        network.executions.length = index ∧
        earlier ⊆ world.trace ∧
        cluster.deletesBetween key delete get earlier
          (network, .issue execution.node execution.request) = true := by
  obtain ⟨network, member, length⟩ :=
    Setting.issued_of_client reachable found isClient
  obtain ⟨earlier, recorded, checked⟩ := check_of_mem clean.ordered member
  exact ⟨network, earlier, Setting.persists_of_mem reachable member, length,
    recorded, checked⟩

/-- Once the `Delete` is there, all `Put`s of the key have been answered. -/
theorem CleanDelete.isAnswered {world : ClusterWorld}
    (clean : CleanDelete cluster key delete get world)
    (reachable : (publicSetting cluster).Reachable world)
    {deleter writer : ClusterExecution} {index : Nat}
    (foundDeleter : world.state.executions[delete]? = some deleter)
    (deleterIsClient : deleter.caller = none)
    (found : world.state.executions[index]? = some writer)
    (isClient : writer.caller = none)
    (writes : writer.request.stores key = true) :
    Cluster.isAnswered world.state index = true := by
  obtain ⟨atWrite, _, _, writeIndex, _, checkedWrite⟩ :=
    clean.issued reachable found isClient
  have writesFirst : index < delete :=
    writeIndex ▸ (deletesBetween_issue.mp checkedWrite).2.1 writes
  obtain ⟨atDelete, _, persists, deleteIndex, _, checkedDelete⟩ :=
    clean.issued reachable foundDeleter deleterIsClient
  have answered :=
    ((deletesBetween_issue.mp checkedDelete).1 deleteIndex).2
  obtain ⟨old, oldFound, evolves⟩ :=
    persists.back found (deleteIndex ▸ writesFirst)
  obtain ⟨other, response, otherFound, ended⟩ :=
    isAnswered_iff.mp
      (isAnswered_of_putsAnswered answered oldFound
        (evolves.caller.symm.trans isClient) (evolves.request ▸ writes))
  rw [oldFound] at otherFound
  cases otherFound
  exact isAnswered_iff.mpr ⟨writer, response, found, evolves.ended response ended⟩

/-- A recorded deletion was made for the `Delete`. -/
theorem exists_deleter {world : ClusterWorld} {root : Nat}
    (reachable : (publicSetting cluster).Reachable world)
    (deleted : world.trace.any (deletesAt key root name) = true) :
    ∃ deleter,
      world.state.executions[root]? = some deleter ∧ deleter.caller = none := by
  obtain ⟨⟨network, label⟩, member, deletes⟩ := List.any_eq_true.mp deleted
  obtain ⟨execution, acts, _, sameRoot, _⟩ := deletesAt_iff.mp deletes
  obtain ⟨index, act, next, _, found, _⟩ := Network.exists_of_acting? acts
  obtain ⟨later, foundLater, evolves⟩ :=
    Setting.persists_of_mem reachable member index execution found
  obtain ⟨deleter, foundDeleter, isClient, _⟩ :=
    (rooted_of_reachable reachable).origin foundLater
  rw [evolves.root, sameRoot] at foundDeleter
  exact ⟨deleter, foundDeleter, isClient⟩

/-- After its deletion a replica makes no write of the key. -/
theorem CleanDelete.stores_eq_false {label : ClusterLabel}
    {source target : ClusterWorld} {execution : ClusterExecution}
    (clean : CleanDelete cluster key delete get target)
    (reachable : (publicSetting cluster).Reachable source)
    (step : (publicSetting cluster).Step label source target)
    (acts : source.state.acting? label = some execution)
    (deleted :
      source.trace.any (deletesAt key delete execution.node) = true) :
    execution.request.stores key = false := by
  by_contra writing
  have writes : execution.request.stores key = true := by
    simpa using writing
  obtain ⟨index, act, next, _, found, _⟩ := Network.exists_of_acting? acts
  obtain ⟨origin, foundOrigin, isClient, descends⟩ :=
    (rooted_of_reachable reachable).origin found
  obtain ⟨deleter, foundDeleter, deleterIsClient⟩ :=
    exists_deleter reachable deleted
  have answered : Cluster.isAnswered source.state execution.root = true :=
    (clean.before step).isAnswered reachable foundDeleter deleterIsClient
      foundOrigin isClient (descends.stores writes)
  have noneLate := clean.noneLate
  rw [step.2.2] at noneLate
  have checked := (passes_cons.mp noneLate).1
  simp [noLateWrite, acts, writes, answered, deleted] at checked

/-- The step that deletes leaves nothing under the key. -/
theorem lookup_of_deletesAt {label : ClusterLabel} {root : Nat}
    {source target : ClusterWorld}
    (reachable : (publicSetting cluster).Reachable source)
    (step : (publicSetting cluster).Step label source target)
    (deletes : deletesAt key root name (source.state, label) = true) :
    (target.state.stores name).storage.lookup key = none := by
  obtain ⟨execution, acts, rfl, _, request⟩ := deletesAt_iff.mp deletes
  obtain ⟨index, act, next, rfl, found, phase⟩ :=
    Network.exists_of_acting? acts
  have performs := ((publicTyping cluster).typed reachable).good found phase
  have isDelete : act = (·.delete key) := by
    rw [performs.2.1.1.1, request]
    rfl
  rw [(Setting.moves step).eq_perform found phase,
    Network.perform_stores_self, isDelete]
  exact StorageEngine.lookup_delete_self _ key

/-- After its deletion a replica has nothing under the key. -/
theorem CleanDelete.lookup_eq_none {world : ClusterWorld}
    (clean : CleanDelete cluster key delete get world)
    (reachable : (publicSetting cluster).Reachable world)
    (deleted : world.trace.any (deletesAt key delete name) = true) :
    (world.state.stores name).storage.lookup key = none := by
  revert clean deleted
  refine System.Reachable.invariant reachable
    (fun world =>
      CleanDelete cluster key delete get world →
      world.trace.any (deletesAt key delete name) = true →
      (world.state.stores name).storage.lookup key = none) ?_ ?_
  · intro state _ _ deleted
    cases deleted
  · intro label source target reached before step clean deleted
    rw [step.2.2, World.push, List.any_cons, Bool.or_eq_true] at deleted
    rcases deleted with here | earlier
    · exact lookup_of_deletesAt reached step here
    · have absent := before (clean.before step) earlier
      rcases store_cases (publicTyping cluster) rfl (fun good => good.2.1)
          ((publicTyping cluster).typed reached) (Setting.moves step) name with
        same | ⟨index, execution, act, next, isStep, found, node, phase, _,
          acted⟩ | ⟨event, _, applied⟩
      · rw [same]
        exact absent
      · have writesNot : execution.request.stores key = false := by
          refine clean.stores_eq_false reached step ?_ (node ▸ earlier)
          rw [isStep]
          exact Network.acting?_step found phase
        rw [acted]
        rcases execution.request.lookup_action_cases
            (source.state.stores name) key with
          kept | ⟨_, _, removed, _⟩ | ⟨value, ttlMs, isPut, _⟩ |
            ⟨value, version, ttlMs, sourceNodeId, isReplicate, _, _⟩
        · exact kept.trans absent
        · exact removed
        · simp [isPut, Request.stores] at writesNot
        · simp [isReplicate, Request.stores] at writesNot
      · rw [applied]
        cases event with
        | tick elapsed => exact absent
        | purge =>
            rcases NodeEvent.lookup_purge_cases (source.state.stores name)
                key with kept | ⟨_, _, _, removed⟩
            · exact kept.trans absent
            · exact removed

/-- Once the `Get` is there, no replica has anything under the key. -/
theorem CleanDelete.lookup_of_getter {world : ClusterWorld}
    (clean : CleanDelete cluster key delete get world)
    (reachable : (publicSetting cluster).Reachable world) {index : Nat}
    {execution : ClusterExecution}
    (found : world.state.executions[index]? = some execution)
    (serves : execution.root = get) {replica : String}
    (isReplica : replica ∈ cluster.replicas key) :
    (world.state.stores replica).storage.lookup key = none := by
  obtain ⟨getter, foundGetter, isClient, _⟩ :=
    (rooted_of_reachable reachable).origin found
  rw [serves] at foundGetter
  obtain ⟨network, earlier, _, getIndex, recorded, checked⟩ :=
    clean.issued reachable foundGetter isClient
  have deleted :=
    ((deletesBetween_issue.mp checked).2.2 getIndex).2.2 replica isReplica
  obtain ⟨step, member, deletes⟩ := List.any_eq_true.mp deleted
  exact clean.lookup_eq_none reachable
    (List.any_eq_true.mpr ⟨step, recorded member, deletes⟩)

/-! ## What the `Get` returns -/

variable (cluster key delete get)

def silentContract :
    Contract String NodeState Request Response CallError NodeEvent where
  Inv _ := True
  Pre _ _ _ _ := True
  Post root _ request response world :=
    root = get →
    request = .get key →
    CleanDelete cluster key delete get world →
    ∀ data version, response ≠ .value (some data) version

variable {cluster key delete get}

theorem silentPost_stable (root : Nat) (name : String) (request : Request)
    (response : Response) :
    (silentContract cluster key delete get).Stable (publicSetting cluster)
      ((silentContract cluster key delete get).Post root name request
        response) := by
  intro label source target onward post isGet serves clean
  exact post isGet serves (clean.before onward.step)

/-- The loop over the replicas finds no value. -/
theorem silent_safe_getLoop {index root : Nat} (world : ClusterWorld) :
    (silentContract cluster key delete get).Safe (publicSetting cluster)
      index root name (.get key) []
      (((cluster.replicator name).getLoop key (cluster.replicas key)).map
        KvServer.getResponse) world := by
  have always :
      (silentContract cluster key delete get).Stable (publicSetting cluster)
        fun _ => True :=
    fun _ _ _ _ _ => trivial
  refine safe_getLoop (fun _ => trivial) always ?_ (fun _ _ _ => trivial) ?_ ?_
    _ (fun _ member => member) world trivial
  · rintro later _ _ _ _ data version ⟨⟩
  · intro source target execution entry onward _ found sameRoot isReplica
      stored isGet _ clean
    -- No replica has anything to read.
    have absent :=
      (clean.before onward.step).lookup_of_getter onward.reachable found
        (sameRoot.trans isGet) isReplica
    rw [absent] at stored
    cases stored
  · rintro later target data version post isGet serves clean other readVersion
      ⟨⟩
    exact post isGet serves clean data version rfl

theorem silent_sound :
    (silentContract cluster key delete get).Sound (publicSetting cluster) where
  inv_boot := trivial
  pre_stable _ _ _ := fun _ _ _ _ pre => pre
  post_stable := silentPost_stable
  issue_pre _ _ _ _ _ := trivial
  inv_quiet _ _ _ _ _ := trivial
  misread_post call position source target misreading onward finds := by
    rintro serves _ clean data version isData
    have noneStale := clean.noneStale
    rw [onward.step.2.2] at noneStale
    have sound := not_wrong_of_noMisread (passes_cons.mp noneStale).1 finds
    simp [mistakesData, serves, isData, Response.hasData] at sound
  inv_env _ _ _ _ _ := trivial
  handler_safe index root name request world _ _ := by
    by_cases isGet : request = .get key
    · subst isGet
      simp only [service, KvServer.handleRequest, Replicator.getReplicated,
        cluster.agreement]
      split
      · rintro _ _ _ data version ⟨⟩
      · exact silent_safe_getLoop world
    · exact Contract.Safe.of_within (Prog.within_top _)
        (fun _ _ _ _ _ _ _ _ _ => trivial) (fun _ _ _ _ => trivial)
        (fun _ _ _ same _ => (isGet same).elim) [] world

/-- In every run in which the client `Put`s of the key are answered before a
`Delete`, this `Delete` is answered and executed by every replica before a `Get`,
no write left behind by those `Put`s reaches a replica after its deletion, and no
call made for the `Get` takes data that an earlier call has left unread, the `Get`
returns no value. -/
theorem delete_is_final {world : ClusterWorld}
    (reachable :
      cluster.service.system.Reachable
        (fun _ label => noClientReplicate label = true) world)
    (ordered :
      passes (cluster.deletesBetween key delete get) world.trace = true)
    (noneLate : passes (noLateWrite key delete) world.trace = true)
    (noneStale : passes (noStaleData get) world.trace = true) :
    ReturnsNothing world.state key get := by
  intro reader data version found isClient request ended
  have serves : reader.root = get :=
    (rooted_of_reachable reachable).client found isClient
  exact silent_sound.post reachable found ended serves request
    ⟨ordered, noneLate, noneStale⟩ data version rfl

end Runs

/-! ## Runs on two nodes -/

/-- A `Put` through the second node whose `Replicate` is given up. -/
def abandonedPut : List ClusterLabel :=
  [.issue "node-2" (.put "k" [1] none), .step 0, .step 0,
    .fail ⟨0, 0, 0⟩ .elapsed, .step 0, .step 0]

/-- The `Replicate` arrives before the `Delete`, which erases both copies. -/
theorem delete_is_final_late_replicate :
    ∃ world,
      (small ["node-1", "node-2"]).service.system.Reachable
          (fun _ label => noClientReplicate label = true) world ∧
        (world.state.executions[4]?).any
            (fun execution =>
              execution.response? == some (.value none 0)) = true ∧
        ReturnsNothing world.state "k" 4 := by
  obtain ⟨world, reachable, checked⟩ :=
    System.exists_reachable_of_replay
      (small ["node-1", "node-2"]).service.system
      (fun _ label => noClientReplicate label = true)
      (small ["node-1", "node-2"]).service.initial
      (abandonedPut ++
        [.deliver 0, .step 1, .step 1, .issue "node-2" (.delete "k"), .step 2,
          .step 2, .deliver 0, .step 3, .step 3, .fail ⟨3, 0, 0⟩ .elapsed,
          .step 3, .step 3, .step 2, .step 2, .issue "node-1" (.get "k"),
          .step 4, .step 4, .fail ⟨4, 0, 0⟩ .elapsed, .step 4, .step 4])
      (fun _ label => noClientReplicate label)
      (fun world =>
        passes ((small ["node-1", "node-2"]).deletesBetween "k" 2 4)
            world.trace &&
          passes (noLateWrite "k" 2) world.trace &&
          passes (noStaleData 4) world.trace &&
          (world.state.executions[4]?).any fun execution =>
            execution.response? == some (.value none 0))
      rfl (fun _ _ admitted => admitted) (by decide +kernel)
  simp only [Bool.and_eq_true] at checked
  obtain ⟨⟨⟨ordered, noneLate⟩, noneStale⟩, returned⟩ := checked
  exact ⟨world, reachable, returned,
    delete_is_final reachable ordered noneLate noneStale⟩

/-- The `Replicate` arrives after the deletion: the value is back, and a `Get`
returns it. -/
theorem not_delete_is_final :
    ¬ ∀ (cluster : Cluster) (key : String) (delete get : Nat)
      (world : ClusterWorld),
      cluster.service.system.Reachable
        (fun _ label => noClientReplicate label = true) world →
      passes (cluster.deletesBetween key delete get) world.trace = true →
      ReturnsNothing world.state key get := by
  intro final
  obtain ⟨world, reachable, checked⟩ :=
    System.exists_reachable_of_replay
      (small ["node-1", "node-2"]).service.system
      (fun _ label => noClientReplicate label = true)
      (small ["node-1", "node-2"]).service.initial
      (abandonedPut ++
        [.issue "node-2" (.delete "k"), .step 1, .step 1, .deliver 1, .step 2,
          .step 2, .fail ⟨2, 0, 0⟩ .elapsed, .step 2, .step 2, .step 1,
          .step 1, .deliver 0, .step 3, .step 3, .issue "node-1" (.get "k"),
          .step 4, .step 4])
      (fun _ label => noClientReplicate label)
      (fun world =>
        passes ((small ["node-1", "node-2"]).deletesBetween "k" 1 4)
            world.trace &&
          (world.state.executions[4]?).any fun execution =>
            returnsData execution "k" [1])
      rfl (fun _ _ admitted => admitted) (by decide +kernel)
  simp only [Bool.and_eq_true, Option.any_eq_true] at checked
  obtain ⟨ordered, reader, found, returns⟩ := checked
  obtain ⟨isClient, request, ended⟩ := of_returnsData returns
  exact final _ "k" 1 4 world reachable ordered reader [1] 0 found isClient
    request ended

/-- A `Get` at the second node is given up while the first node answers it.  After
the deletion the next `Get` at the second node reads that answer, although nothing
is stored any more. -/
theorem not_delete_is_final_of_stale_data :
    ¬ ∀ (cluster : Cluster) (key : String) (delete get : Nat)
      (world : ClusterWorld),
      cluster.service.system.Reachable
        (fun _ label => noClientReplicate label = true) world →
      passes (cluster.deletesBetween key delete get) world.trace = true →
      passes (noLateWrite key delete) world.trace = true →
      ReturnsNothing world.state key get := by
  intro final
  obtain ⟨world, reachable, checked⟩ :=
    System.exists_reachable_of_replay
      (small ["node-1", "node-2"]).service.system
      (fun _ label => noClientReplicate label = true)
      (small ["node-1", "node-2"]).service.initial
      [.issue "node-1" (.put "k" [1] none), .step 0, .step 0, .deliver 0,
        .step 1, .step 1, .step 0, .step 0, .issue "node-2" (.get "k"),
        .step 2, .deliver 0, .step 3, .fail ⟨2, 0, 0⟩ .elapsed, .step 3,
        .step 2, .step 2, .step 2, .issue "node-1" (.delete "k"), .step 4,
        .step 4, .deliver 0, .step 5, .step 5, .fail ⟨5, 0, 0⟩ .elapsed,
        .step 5, .step 5, .step 4, .step 4, .issue "node-2" (.get "k"),
        .step 6, .misread ⟨6, 0, 0⟩ 0, .step 6, .step 6]
      (fun _ label => noClientReplicate label)
      (fun world =>
        passes ((small ["node-1", "node-2"]).deletesBetween "k" 4 6)
            world.trace &&
          passes (noLateWrite "k" 4) world.trace &&
          (world.state.executions[6]?).any fun execution =>
            returnsData execution "k" [1])
      rfl (fun _ _ admitted => admitted) (by decide +kernel)
  simp only [Bool.and_eq_true, Option.any_eq_true] at checked
  obtain ⟨⟨ordered, noneLate⟩, reader, found, returns⟩ := checked
  obtain ⟨isClient, request, ended⟩ := of_returnsData returns
  exact final _ "k" 4 6 world reachable ordered noneLate reader [1] 0 found
    isClient request ended

end Cluster

end HautePerformance.KvDistributed
