import HautePerformance.Library.Rpc

/-!
# What a network step leaves alone

Executions are never removed: each keeps its index, its node, its request, its
caller and its root, and moves forward only.  The lemmas here say so for every
move at once, so that an invariant has to look only at the execution that moves.
-/

namespace HautePerformance.Library.Rpc

variable {Node Store Req Resp Err Event : Type}

namespace Execution

/-- How an execution may change over time. -/
structure Evolves (earlier later : Execution Node Store Req Resp Err) :
    Prop where
  node : later.node = earlier.node
  request : later.request = earlier.request
  caller : later.caller = earlier.caller
  root : later.root = earlier.root
  round : earlier.round ≤ later.round
  /-- During a round the calls already spawned stay in their slots. -/
  slots :
    later.round = earlier.round →
    ∀ (slot : Nat) (entry : Node × Req),
      earlier.requests[slot]? = some entry →
      later.requests[slot]? = some entry
  /-- A response is final. -/
  ended :
    ∀ response,
      earlier.phase = .finished response →
      later.phase = .finished response

namespace Evolves

theorem refl (execution : Execution Node Store Req Resp Err) :
    execution.Evolves execution :=
  { node := rfl
    request := rfl
    caller := rfl
    root := rfl
    round := Nat.le_refl _
    slots := fun _ _ _ found => found
    ended := fun _ phase => phase }

theorem trans {first second third : Execution Node Store Req Resp Err}
    (earlier : first.Evolves second) (later : second.Evolves third) :
    first.Evolves third where
  node := later.node.trans earlier.node
  request := later.request.trans earlier.request
  caller := later.caller.trans earlier.caller
  root := later.root.trans earlier.root
  round := Nat.le_trans earlier.round later.round
  slots := by
    intro sameRound slot entry found
    have middleRound : second.round = first.round :=
      Nat.le_antisymm (sameRound ▸ later.round) earlier.round
    exact later.slots (sameRound.trans middleRound.symm) slot entry
      (earlier.slots middleRound slot entry found)
  ended := fun response phase =>
    later.ended response (earlier.ended response phase)

/-- A running execution changes its program and spawns calls. -/
theorem of_running {execution : Execution Node Store Req Resp Err}
    {prog : Prog Node Store Req Resp Err Resp}
    (phase : execution.phase = .running prog)
    (more : List (Node × Req))
    (results : List (Option (Except Err Resp)))
    (newPhase : Phase Node Store Req Resp Err) :
    execution.Evolves
      { execution with
        requests := execution.requests ++ more
        results := results
        phase := newPhase } where
  node := rfl
  request := rfl
  caller := rfl
  root := rfl
  round := Nat.le_refl _
  slots := by
    intro _ slot entry found
    have inRange : slot < execution.requests.length :=
      (List.getElem?_eq_some_iff.mp found).1
    simpa [List.getElem?_append_left inRange] using found
  ended := by
    intro response finished
    simp [phase] at finished

/-- Only the phase of a running execution changes. -/
theorem of_phase {execution : Execution Node Store Req Resp Err}
    {prog : Prog Node Store Req Resp Err Resp}
    (phase : execution.phase = .running prog)
    (newPhase : Phase Node Store Req Resp Err) :
    execution.Evolves { execution with phase := newPhase } := by
  simpa using of_running phase [] execution.results newPhase

/-- An outcome arrives. -/
theorem of_results (execution : Execution Node Store Req Resp Err)
    (results : List (Option (Except Err Resp))) :
    execution.Evolves { execution with results := results } :=
  { node := rfl
    request := rfl
    caller := rfl
    root := rfl
    round := Nat.le_refl _
    slots := fun _ _ _ found => found
    ended := fun _ phase => phase }

/-- The round is complete and the next one begins. -/
theorem of_resume {execution : Execution Node Store Req Resp Err}
    {prog : Prog Node Store Req Resp Err Resp}
    (phase : execution.phase = .running prog)
    (nextProg : Prog Node Store Req Resp Err Resp) :
    execution.Evolves
      { execution with
        round := execution.round + 1
        requests := []
        results := []
        phase := .running nextProg } where
  node := rfl
  request := rfl
  caller := rfl
  root := rfl
  round := Nat.le_succ _
  slots := by
    intro sameRound
    simp at sameRound
  ended := by
    intro response finished
    simp [phase] at finished

end Evolves

end Execution

namespace Network

variable {network : Network Node Store Req Resp Err}

/-- Every execution of `network` is found again in `target`, further on. -/
def Persists (network target : Network Node Store Req Resp Err) : Prop :=
  ∀ (index : Nat) (execution : Execution Node Store Req Resp Err),
    network.executions[index]? = some execution →
    ∃ later : Execution Node Store Req Resp Err,
      target.executions[index]? = some later ∧ execution.Evolves later

theorem Persists.of_executions_eq
    {target : Network Node Store Req Resp Err}
    (same : target.executions = network.executions) :
    network.Persists target :=
  fun index execution found =>
    ⟨execution, by rw [same]; exact found, .refl execution⟩

theorem Persists.trans {middle target : Network Node Store Req Resp Err}
    (earlier : network.Persists middle) (later : middle.Persists target) :
    network.Persists target := by
  intro index execution found
  obtain ⟨between, foundBetween, evolves⟩ := earlier index execution found
  obtain ⟨last, foundLast, evolvesLast⟩ := later index between foundBetween
  exact ⟨last, foundLast, evolves.trans evolvesLast⟩

theorem setExecution_self {index : Nat}
    {execution replacement : Execution Node Store Req Resp Err}
    (found : network.executions[index]? = some execution) :
    (network.setExecution index replacement).executions[index]? =
      some replacement := by
  have inRange : index < network.executions.length :=
    (List.getElem?_eq_some_iff.mp found).1
  simp [setExecution, inRange]

theorem setExecution_ne {index other : Nat}
    {replacement : Execution Node Store Req Resp Err}
    (different : other ≠ index) :
    (network.setExecution index replacement).executions[other]? =
      network.executions[other]? := by
  simp [setExecution, List.getElem?_set_ne (Ne.symm different)]

@[simp]
theorem perform_stores_self [DecidableEq Node] (index : Nat)
    (execution : Execution Node Store Req Resp Err) (act : Store → Store)
    (next : Store → Prog Node Store Req Resp Err Resp) :
    (network.perform index execution act next).stores execution.node =
      act (network.stores execution.node) := by
  simp [perform]

/-- An execution of the changed list is the replacement or an old one. -/
theorem setExecution_cases {index other : Nat}
    {replacement execution : Execution Node Store Req Resp Err}
    (found :
      (network.setExecution index replacement).executions[other]? =
        some execution) :
    (other = index ∧ execution = replacement) ∨
      (other ≠ index ∧ network.executions[other]? = some execution) := by
  by_cases same : other = index
  · subst same
    have inRange : other < network.executions.length := by
      have := (List.getElem?_eq_some_iff.mp found).1
      simpa [setExecution] using this
    simp only [setExecution, List.getElem?_set_self inRange,
      Option.some.injEq] at found
    exact Or.inl ⟨rfl, found.symm⟩
  · rw [setExecution_ne same] at found
    exact Or.inr ⟨same, found⟩

theorem Persists.of_setExecution {index : Nat}
    {execution replacement : Execution Node Store Req Resp Err}
    (found : network.executions[index]? = some execution)
    (evolves : execution.Evolves replacement) :
    network.Persists (network.setExecution index replacement) := by
  intro other old foundOld
  by_cases same : other = index
  · subst same
    rw [found] at foundOld
    cases foundOld
    exact ⟨replacement, setExecution_self found, evolves⟩
  · exact ⟨old, by rw [setExecution_ne same]; exact foundOld, .refl old⟩

theorem spawn_old {execution added : Execution Node Store Req Resp Err}
    {index : Nat}
    (found : network.executions[index]? = some execution) :
    (network.spawn added).executions[index]? = some execution := by
  have inRange : index < network.executions.length :=
    (List.getElem?_eq_some_iff.mp found).1
  simp only [spawn]
  rw [List.getElem?_append_left inRange]
  exact found

theorem spawn_new (added : Execution Node Store Req Resp Err) :
    (network.spawn added).executions[network.executions.length]? =
      some added := by
  simp [spawn]

/-- An execution of the longer list is the new one or an old one. -/
theorem spawn_cases {added execution : Execution Node Store Req Resp Err}
    {index : Nat}
    (found : (network.spawn added).executions[index]? = some execution) :
    (index = network.executions.length ∧ execution = added) ∨
      network.executions[index]? = some execution := by
  simp only [spawn, List.getElem?_append] at found
  split at found
  · exact Or.inr found
  · rename_i outOfRange
    rw [List.getElem?_singleton] at found
    split at found
    · exact Or.inl ⟨by omega, by cases found; rfl⟩
    · cases found

theorem Persists.of_spawn (added : Execution Node Store Req Resp Err) :
    network.Persists (network.spawn added) :=
  fun _ execution found => ⟨execution, spawn_old found, .refl execution⟩

/-- An execution with an old index comes from an old execution. -/
theorem Persists.back {target : Network Node Store Req Resp Err}
    (persists : network.Persists target) {index : Nat}
    {later : Execution Node Store Req Resp Err}
    (found : target.executions[index]? = some later)
    (inRange : index < network.executions.length) :
    ∃ execution,
      network.executions[index]? = some execution ∧
        execution.Evolves later := by
  obtain ⟨other, foundOther, evolves⟩ :=
    persists index _ (List.getElem?_eq_getElem inRange)
  rw [found] at foundOther
  cases foundOther
  exact ⟨_, List.getElem?_eq_getElem inRange, evolves⟩

theorem acting?_step {index : Nat}
    {execution : Execution Node Store Req Resp Err} {act : Store → Store}
    {next : Store → Prog Node Store Req Resp Err Resp}
    (found : network.executions[index]? = some execution)
    (phase : execution.phase = .running (.atomic act next)) :
    network.acting? (.step index : Label Node Req Err Event) =
      some execution := by
  simp [acting?, found, Execution.isActing_of_phase phase]

/-- The execution that acts is about to make the step. -/
theorem exists_of_acting? {label : Label Node Req Err Event}
    {execution : Execution Node Store Req Resp Err}
    (acts : network.acting? label = some execution) :
    ∃ index act next,
      label = .step index ∧
        network.executions[index]? = some execution ∧
        execution.phase = .running (.atomic act next) := by
  unfold acting? at acts
  split at acts
  · rename_i index
    obtain ⟨found, acting⟩ := Option.filter_eq_some_iff.mp acts
    obtain ⟨act, next, phase⟩ := Execution.exists_phase_of_isActing acting
    exact ⟨index, act, next, rfl, found, phase⟩
  · cases acts

/-! ## Settling a call -/

theorem settle_of_not_pending {call : CallId} {result : Except Err Resp}
    (ignored : network.isPending call = false) :
    network.settle call result = network := by
  unfold isPending at ignored
  unfold settle
  split at ignored
  · simp [ignored]
  · rfl

/-- What a pending call looks like, and what settling it does. -/
theorem settle_of_pending {call : CallId} (result : Except Err Resp)
    (pending : network.isPending call = true) :
    ∃ caller,
      network.executions[call.execution]? = some caller ∧
        caller.round = call.round ∧
        caller.results[call.slot]? = some none ∧
        network.settle call result =
          network.setExecution call.execution
            { caller with
              results := caller.results.set call.slot (some result) } := by
  unfold isPending at pending
  split at pending
  · rename_i caller found
    have both := pending
    simp only [Bool.and_eq_true, beq_iff_eq] at both
    have slotOpen : caller.results[call.slot]? = some none := by
      have opened := both.2
      unfold isOpen at opened
      split at opened
      · assumption
      · cases opened
    refine ⟨caller, found, both.1, slotOpen, ?_⟩
    simp [settle, found, both.1, both.2]
  · cases pending

theorem Persists.of_settle (call : CallId) (result : Except Err Resp) :
    network.Persists (network.settle call result) := by
  cases pending : network.isPending call with
  | false =>
      rw [settle_of_not_pending pending]
      exact .of_executions_eq rfl
  | true =>
      obtain ⟨caller, found, _, _, shape⟩ := settle_of_pending result pending
      rw [shape]
      exact .of_setExecution found (.of_results _ _)

@[simp]
theorem settle_stores (call : CallId) (result : Except Err Resp) :
    (network.settle call result).stores = network.stores := by
  unfold settle
  split
  · split <;> rfl
  · rfl

@[simp]
theorem settle_inFlight (call : CallId) (result : Except Err Resp) :
    (network.settle call result).inFlight = network.inFlight := by
  unfold settle
  split
  · split <;> rfl
  · rfl

@[simp]
theorem settle_length (call : CallId) (result : Except Err Resp) :
    (network.settle call result).executions.length =
      network.executions.length := by
  unfold settle
  split
  · split
    · simp [setExecution]
    · rfl
  · rfl

@[simp]
theorem take_stores (call : CallId) (position : Nat) (response : Resp) :
    (network.take call position response).stores = network.stores := by
  simp [take]

@[simp]
theorem take_inFlight (call : CallId) (position : Nat) (response : Resp) :
    (network.take call position response).inFlight = network.inFlight := by
  simp [take]

@[simp]
theorem take_length (call : CallId) (position : Nat) (response : Resp) :
    (network.take call position response).executions.length =
      network.executions.length :=
  settle_length call (.ok response)

/-- A call that takes an unread response is pending, and the response has come to
its node from the node that it has called. -/
theorem of_misreading? [DecidableEq Node] {call : CallId} {position : Nat}
    {misreading : Misreading Node Store Req Resp Err}
    (finds : network.misreading? call position = some misreading) :
    network.executions[call.execution]? = some misreading.caller ∧
      network.isPending call = true ∧
      misreading.caller.requests[call.slot]? =
        some (misreading.target, misreading.request) ∧
      network.unread[position]? =
        some
          ⟨misreading.caller.node, misreading.target, misreading.response⟩ := by
  unfold misreading? at finds
  split at finds
  · rename_i caller left found atPosition
    split at finds
    · rename_i target request asked
      split at finds
      · rename_i matching
        obtain ⟨pending, sameReader, sameSource⟩ := matching
        cases finds
        exact ⟨found, pending, asked,
          by rw [atPosition, ← sameReader, ← sameSource]⟩
      · cases finds
    · cases finds
  · cases finds

@[simp]
theorem answer_stores (index : Nat)
    (execution : Execution Node Store Req Resp Err) (response : Resp) :
    (network.answer index execution response).stores = network.stores := by
  unfold answer
  split
  · simp [setExecution]
  · rfl

@[simp]
theorem answer_inFlight (index : Nat)
    (execution : Execution Node Store Req Resp Err) (response : Resp) :
    (network.answer index execution response).inFlight = network.inFlight := by
  unfold answer
  split
  · simp [setExecution]
  · rfl

@[simp]
theorem answer_length (index : Nat)
    (execution : Execution Node Store Req Resp Err) (response : Resp) :
    (network.answer index execution response).executions.length =
      network.executions.length := by
  unfold answer
  split
  · simp [setExecution]
  · simp [setExecution]

theorem Persists.of_answer {index : Nat}
    {execution : Execution Node Store Req Resp Err} {response : Resp}
    (found : network.executions[index]? = some execution)
    (phase : execution.phase = .running (.done response)) :
    network.Persists (network.answer index execution response) := by
  have ended :
      network.Persists
        (network.setExecution index
          { execution with phase := .finished response }) :=
    .of_setExecution found (.of_phase phase _)
  unfold answer
  split
  · exact (ended.trans (.of_settle _ _)).trans (.of_executions_eq rfl)
  · exact ended

theorem Persists.of_take (call : CallId) (position : Nat) (response : Resp) :
    network.Persists (network.take call position response) :=
  (Persists.of_settle call (.ok response)).trans (.of_executions_eq rfl)

/-! ## Calls and their callers -/

/-- The call was made by an execution of this root, and as long as its round
lasts, its slot holds exactly this request to this node. -/
def Linked (network : Network Node Store Req Resp Err) (call : CallId)
    (root : Nat) (node : Node) (request : Req) : Prop :=
  ∃ caller,
    network.executions[call.execution]? = some caller ∧
      caller.root = root ∧
      call.round ≤ caller.round ∧
      (caller.round = call.round →
        caller.requests[call.slot]? = some (node, request))

theorem Linked.persists {target : Network Node Store Req Resp Err}
    {call : CallId} {root : Nat} {node : Node} {request : Req}
    (linked : Linked network call root node request)
    (persists : network.Persists target) :
    Linked target call root node request := by
  obtain ⟨caller, found, sameRoot, bound, asked⟩ := linked
  obtain ⟨later, foundLater, evolves⟩ :=
    persists call.execution caller found
  refine ⟨later, foundLater, evolves.root.trans sameRoot,
    Nat.le_trans bound evolves.round, ?_⟩
  intro sameRound
  have callerRound : caller.round = call.round :=
    Nat.le_antisymm (sameRound ▸ evolves.round) bound
  exact evolves.slots (sameRound.trans callerRound.symm) call.slot
    (node, request) (asked callerRound)

theorem mem_batch {index round slot : Nat} {requests : List (Node × Req)}
    {message : Message Node Req}
    (member : message ∈ batch index round slot requests) :
    ∃ offset,
      requests[offset]? = some (message.target, message.request) ∧
        message.caller = ⟨index, round, slot + offset⟩ := by
  simp only [batch, List.mem_map] at member
  obtain ⟨⟨⟨target, request⟩, position⟩, entry, shape⟩ := member
  rw [List.mk_mem_zipIdx_iff_le_and_getElem?_sub] at entry
  refine ⟨position - slot, by rw [← shape]; exact entry.2, ?_⟩
  rw [← shape, Nat.add_sub_cancel' entry.1]

end Network

namespace Service

variable [DecidableEq Node]
variable {service : Service Node Store Req Resp Err Event}
variable {network target : Network Node Store Req Resp Err}
variable {label : Label Node Req Err Event}

/-- No step removes an execution or turns it back. -/
theorem Moves.persists (moves : service.Moves network label target) :
    network.Persists target := by
  cases moves with
  | issue node request => exact .of_spawn _
  | perform found phase =>
      exact
        (Network.Persists.of_setExecution found (.of_phase phase _)).trans
          (.of_executions_eq rfl)
  | send found phase =>
      exact
        (Network.Persists.of_setExecution found
          (.of_running phase _ _ _)).trans (.of_executions_eq rfl)
  | resume found phase filled =>
      exact .of_setExecution found (.of_resume phase _)
  | answer found phase => exact .of_answer found phase
  | deliver found callerFound =>
      exact
        (Network.Persists.of_executions_eq rfl).trans (.of_spawn _)
  | lose inRange => exact .of_executions_eq rfl
  | fail error pending => exact .of_settle _ _
  | misread finds => exact .of_take _ _ _
  | env node event => exact .of_executions_eq rfl

/-- Where an execution of the next network comes from. -/
theorem Moves.origin (moves : service.Moves network label target)
    {index : Nat} {later : Execution Node Store Req Resp Err}
    (found : target.executions[index]? = some later) :
    (∃ execution,
      network.executions[index]? = some execution ∧
        execution.Evolves later) ∨
      (∃ node request,
        label = .issue node request ∧
          index = network.executions.length ∧
          later = service.clientExecution index node request) ∨
      ∃ message caller,
        message ∈ network.inFlight ∧
          network.executions[message.caller.execution]? = some caller ∧
          later = service.servedExecution caller.root message := by
  by_cases inRange : index < network.executions.length
  · exact Or.inl (moves.persists.back found inRange)
  · have outOfRange : network.executions[index]? = none :=
      List.getElem?_eq_none (by omega)
    have absurdOld
        (same : target.executions.length = network.executions.length) :
        False :=
      inRange (same ▸ (List.getElem?_eq_some_iff.mp found).1)
    cases moves with
    | issue node request =>
        rcases Network.spawn_cases found with ⟨same, added⟩ | old
        · exact Or.inr (Or.inl
            ⟨node, request, rfl, same, by rw [added, same]⟩)
        · rw [outOfRange] at old
          cases old
    | deliver taken callerFound =>
        rcases Network.spawn_cases found with ⟨_, added⟩ | old
        · exact Or.inr (Or.inr
            ⟨_, _, List.mem_of_getElem? taken, callerFound, added⟩)
        · rw [show (network.withdraw _).executions =
            network.executions from rfl, outOfRange] at old
          cases old
    | perform foundMover phase =>
        exact (absurdOld (by simp [Network.perform, Network.setExecution])).elim
    | send foundMover phase =>
        exact (absurdOld (by simp [Network.send, Network.setExecution])).elim
    | resume foundMover phase filled =>
        exact (absurdOld (by simp [Network.resume, Network.setExecution])).elim
    | answer foundMover phase =>
        exact (absurdOld (Network.answer_length _ _ _)).elim
    | lose inRange => exact (absurdOld rfl).elim
    | fail error pending => exact (absurdOld (Network.settle_length _ _)).elim
    | misread finds => exact (absurdOld (Network.take_length _ _ _)).elim
    | env node event => exact (absurdOld rfl).elim

/-- The step of an execution that is about to act is that action. -/
theorem Moves.eq_perform {index : Nat}
    {execution : Execution Node Store Req Resp Err} {act : Store → Store}
    {next : Store → Prog Node Store Req Resp Err Resp}
    (moves : service.Moves network (.step index) target)
    (found : network.executions[index]? = some execution)
    (phase : execution.phase = .running (.atomic act next)) :
    target = network.perform index execution act next := by
  cases moves with
  | perform foundMover phaseMover =>
      rw [found] at foundMover
      cases foundMover
      rw [phase] at phaseMover
      cases phaseMover
      rfl
  | send foundMover phaseMover =>
      rw [found] at foundMover
      cases foundMover
      rw [phase] at phaseMover
      cases phaseMover
  | resume foundMover phaseMover filled =>
      rw [found] at foundMover
      cases foundMover
      rw [phase] at phaseMover
      cases phaseMover
  | answer foundMover phaseMover =>
      rw [found] at foundMover
      cases foundMover
      rw [phase] at phaseMover
      cases phaseMover

/-- The step of an execution that is about to spawn calls is the sending. -/
theorem Moves.eq_send {index : Nat}
    {execution : Execution Node Store Req Resp Err}
    {requests : List (Node × Req)}
    {next : Prog Node Store Req Resp Err Resp}
    (moves : service.Moves network (.step index) target)
    (found : network.executions[index]? = some execution)
    (phase : execution.phase = .running (.spawn requests next)) :
    target = network.send index execution requests next := by
  cases moves with
  | send foundMover phaseMover =>
      rw [found] at foundMover
      cases foundMover
      rw [phase] at phaseMover
      cases phaseMover
      rfl
  | perform foundMover phaseMover =>
      rw [found] at foundMover
      cases foundMover
      rw [phase] at phaseMover
      cases phaseMover
  | resume foundMover phaseMover filled =>
      rw [found] at foundMover
      cases foundMover
      rw [phase] at phaseMover
      cases phaseMover
  | answer foundMover phaseMover =>
      rw [found] at foundMover
      cases foundMover
      rw [phase] at phaseMover
      cases phaseMover

/-- An execution begins its next program by an atomic action. -/
def ActsAt (network : Network Node Store Req Resp Err) (index : Nat) : Prop :=
  ∃ execution act next,
    network.executions[index]? = some execution ∧
      execution.phase = .running (.atomic act next)

/-- The steps that leave the stores alone. -/
def Quiet (network : Network Node Store Req Resp Err) :
    Label Node Req Err Event → Prop
  | .step index => ¬ ActsAt network index
  | .env _ _ => False
  | _ => True

end Service

/-! ## The setting of a proof -/

/-- The worlds of a network. -/
abbrev NetworkWorld (Node Store Req Resp Err Event : Type) :=
  World (Network Node Store Req Resp Err) (Label Node Req Err Event)

section

variable [DecidableEq Node]

/-- What the proofs below assume throughout: which service runs and which steps
of it are allowed. -/
structure Setting (Node Store Req Resp Err Event : Type) where
  service : Service Node Store Req Resp Err Event
  allowed :
    Network Node Store Req Resp Err → Label Node Req Err Event → Prop

namespace Setting

variable (setting : Setting Node Store Req Resp Err Event)

abbrev Step (label : Label Node Req Err Event)
    (source target : NetworkWorld Node Store Req Resp Err Event) : Prop :=
  setting.service.system.Step setting.allowed label source target

abbrev Reachable (world : NetworkWorld Node Store Req Resp Err Event) : Prop :=
  setting.service.system.Reachable setting.allowed world

end Setting

theorem Setting.moves {setting : Setting Node Store Req Resp Err Event}
    {label : Label Node Req Err Event}
    {source target : NetworkWorld Node Store Req Resp Err Event}
    (step : setting.Step label source target) :
    setting.service.Moves source.state label target.state :=
  Service.moves_of_exec step.2.1

/-- What was begun when a step was recorded is there, further on. -/
theorem Setting.persists_of_mem
    {setting : Setting Node Store Req Resp Err Event}
    {world : NetworkWorld Node Store Req Resp Err Event}
    (reachable : setting.Reachable world)
    {network : Network Node Store Req Resp Err} {label : Label Node Req Err Event}
    (member : (network, label) ∈ world.trace) :
    network.Persists world.state := by
  induction reachable with
  | start atStart => cases member
  | @next source target stepped reached step inductionHypothesis =>
      have onward := (Setting.moves step).persists
      rw [step.2.2] at member
      rcases List.mem_cons.mp member with here | earlier
      · cases here
        exact onward
      · exact (inductionHypothesis earlier).trans onward

/-- A client's execution was issued, with its index. -/
theorem Setting.issued_of_client
    {setting : Setting Node Store Req Resp Err Event}
    {world : NetworkWorld Node Store Req Resp Err Event}
    (reachable : setting.Reachable world) {index : Nat}
    {execution : Execution Node Store Req Resp Err}
    (found : world.state.executions[index]? = some execution)
    (isClient : execution.caller = none) :
    ∃ network : Network Node Store Req Resp Err,
      (network, .issue execution.node execution.request) ∈ world.trace ∧
        network.executions.length = index := by
  revert execution
  refine System.Reachable.invariant reachable
    (fun world => ∀ {execution : Execution Node Store Req Resp Err},
      world.state.executions[index]? = some execution →
      execution.caller = none →
      ∃ network : Network Node Store Req Resp Err,
        (network, .issue execution.node execution.request) ∈ world.trace ∧
          network.executions.length = index) ?_ ?_
  · rintro network rfl execution found
    simp [Service.initial] at found
  · intro label source target reached before step execution found isClient
    rw [step.2.2]
    rcases (Setting.moves step).origin found with
      ⟨old, oldFound, evolves⟩ | ⟨node, request, issue, isNew, added⟩ |
        ⟨message, caller, _, _, added⟩
    · obtain ⟨network, member, length⟩ :=
        before oldFound (evolves.caller.symm.trans isClient)
      rw [← evolves.node, ← evolves.request] at member
      exact ⟨network, List.mem_cons_of_mem _ member, length⟩
    · rw [added, issue]
      exact ⟨source.state, List.mem_cons_self, isNew.symm⟩
    · rw [added] at isClient
      cases isClient

/-- The client request number `root` is this request, issued at this node. -/
def Opens (root : Nat) (node : Node) (request : Req)
    (network : Network Node Store Req Resp Err) :
    Label Node Req Err Event → Prop
  | .issue issuedAt issued =>
      network.executions.length = root → issuedAt = node ∧ issued = request
  | _ => True

theorem Service.Moves.opens {service : Service Node Store Req Resp Err Event}
    {network target : Network Node Store Req Resp Err}
    {label : Label Node Req Err Event} {root : Nat} {node : Node} {request : Req}
    (moves : service.Moves network label target)
    (opened : ∀ origin,
      target.executions[root]? = some origin →
      origin.node = node ∧ origin.request = request) :
    Opens root node request network label := by
  cases moves with
  | issue issuedAt issued =>
      intro isRoot
      exact opened _ (isRoot ▸ Network.spawn_new _)
  | perform found phase => trivial
  | send found phase => trivial
  | resume found phase filled => trivial
  | answer found phase => trivial
  | deliver taken callerFound => trivial
  | lose inRange => trivial
  | fail error pending => trivial
  | misread finds => trivial
  | env name event => trivial

end

end HautePerformance.Library.Rpc
