import Mathlib.Logic.Relation
import HautePerformance.Library.RpcTyping

/-!
# Contracts for handlers

A contract gives each request a precondition, established by whoever sends it,
and a postcondition, established by the handler that serves it, together with an
invariant of the whole network.  All three are predicates on worlds, so they may
speak about the past, and the pre- and postconditions must be *stable*: no step
of any execution falsifies them once they hold.

`Safe` is the weakest precondition of a handler program under a contract: where
it spawns calls it must establish the precondition of each request, after a join
it may assume the postconditions of the answers, and at an atomic action it must
keep the invariant.
The rule `Sound.holds` states that, if every handler is safe, the contract holds
in every reachable world, whatever the order of steps, losses and failures.
-/

namespace HautePerformance.Library.Rpc

variable {Node Store Req Resp Err Event : Type}

/-- Preconditions and postconditions by root, node and request, and an invariant
of the network. -/
structure Contract (Node Store Req Resp Err Event : Type) where
  Inv : NetworkWorld Node Store Req Resp Err Event → Prop
  Pre : Nat → Node → Req → NetworkWorld Node Store Req Resp Err Event → Prop
  Post :
    Nat → Node → Req → Resp → NetworkWorld Node Store Req Resp Err Event → Prop

section

variable [DecidableEq Node]

/-- One step out of a reachable world in which the invariant holds. -/
structure Contract.Onward (contract : Contract Node Store Req Resp Err Event)
    (setting : Setting Node Store Req Resp Err Event)
    (label : Label Node Req Err Event)
    (source target : NetworkWorld Node Store Req Resp Err Event) : Prop where
  reachable : setting.Reachable source
  inv : contract.Inv source
  step : setting.Step label source target

/-- An execution that is about to act may make that step. -/
theorem Contract.Onward.of_perform
    (contract : Contract Node Store Req Resp Err Event)
    (setting : Setting Node Store Req Resp Err Event)
    {world : NetworkWorld Node Store Req Resp Err Event} {index : Nat}
    {execution : Execution Node Store Req Resp Err} {act : Store → Store}
    {next : Store → Prog Node Store Req Resp Err Resp}
    (reachable : setting.Reachable world) (inv : contract.Inv world)
    (found : world.state.executions[index]? = some execution)
    (phase : execution.phase = .running (.atomic act next))
    (allowed : setting.allowed world.state (.step index)) :
    contract.Onward setting (.step index) world
      (world.push (.step index)
        (world.state.perform index execution act next)) where
  reachable := reachable
  inv := inv
  step := by
    refine ⟨allowed, ?_, rfl⟩
    simp [Service.system, Service.exec, Service.advance, found, phase]

/-- Zero or more such steps. -/
def Contract.Future (contract : Contract Node Store Req Resp Err Event)
    (setting : Setting Node Store Req Resp Err Event) :
    NetworkWorld Node Store Req Resp Err Event →
    NetworkWorld Node Store Req Resp Err Event → Prop :=
  Relation.ReflTransGen
    (fun source target => ∃ label, contract.Onward setting label source target)

/-- Once true, the property stays true. -/
def Contract.Stable (contract : Contract Node Store Req Resp Err Event)
    (setting : Setting Node Store Req Resp Err Event)
    (property : NetworkWorld Node Store Req Resp Err Event → Prop) : Prop :=
  ∀ label source target,
    contract.Onward setting label source target →
    property source → property target

theorem Contract.Stable.future
    {contract : Contract Node Store Req Resp Err Event}
    {setting : Setting Node Store Req Resp Err Event}
    {property : NetworkWorld Node Store Req Resp Err Event → Prop}
    (stable : contract.Stable setting property)
    {source target : NetworkWorld Node Store Req Resp Err Event}
    (future : contract.Future setting source target)
    (holds : property source) : property target := by
  induction future with
  | refl => exact holds
  | tail _ step inductionHypothesis =>
      obtain ⟨label, onward⟩ := step
      exact stable label _ _ onward inductionHypothesis

/-- The answered calls of a round satisfy their postconditions. -/
structure Contract.Answered
    (contract : Contract Node Store Req Resp Err Event) (root : Nat)
    (asked : List (Node × Req)) (outcomes : List (Except Err Resp))
    (world : NetworkWorld Node Store Req Resp Err Event) : Prop where
  length : outcomes.length = asked.length
  post :
    ∀ (slot : Nat) (target : Node) (request : Req) (response : Resp),
      asked[slot]? = some (target, request) →
      outcomes[slot]? = some (Except.ok response) →
      contract.Post root target request response world

/-- Weakest precondition of a handler program that runs as execution `index`;
`asked` are the calls it has spawned since the last join. -/
def Contract.Safe (contract : Contract Node Store Req Resp Err Event)
    (setting : Setting Node Store Req Resp Err Event)
    (index root : Nat) (node : Node) (request : Req) :
    List (Node × Req) →
    Prog Node Store Req Resp Err Resp →
    NetworkWorld Node Store Req Resp Err Event → Prop
  | _, .done response, world =>
      contract.Post root node request response world
  | asked, .atomic act next, world =>
      ∀ later execution,
        contract.Future setting world later →
        setting.Reachable later →
        contract.Inv later →
        later.state.executions[index]? = some execution →
        execution.node = node →
        execution.request = request →
        execution.root = root →
        execution.phase = .running (.atomic act next) →
        setting.allowed later.state (.step index) →
        contract.Inv
            (later.push (.step index)
              (later.state.perform index execution act next)) ∧
          Safe contract setting index root node request asked
            (next (later.state.stores node))
            (later.push (.step index)
              (later.state.perform index execution act next))
  | asked, .spawn requests next, world =>
      (∀ target called, (target, called) ∈ requests →
        contract.Pre root target called world) ∧
      Safe contract setting index root node request (asked ++ requests) next
        world
  | asked, .join next, world =>
      ∀ later outcomes,
        contract.Future setting world later →
        contract.Answered root asked outcomes later →
        Safe contract setting index root node request [] (next outcomes) later

/-- The proof obligations of a contract. -/
structure Contract.Sound (contract : Contract Node Store Req Resp Err Event)
    (setting : Setting Node Store Req Resp Err Event) : Prop where
  inv_boot : contract.Inv ⟨[], setting.service.initial⟩
  pre_stable : ∀ root node request,
    contract.Stable setting (contract.Pre root node request)
  post_stable : ∀ root node request response,
    contract.Stable setting (contract.Post root node request response)
  /-- A client request is issued with its precondition. -/
  issue_pre : ∀ node request source target,
    contract.Onward setting (.issue node request) source target →
    contract.Pre source.state.executions.length node request target
  /-- Steps that do not touch the stores keep the invariant. -/
  inv_quiet : ∀ label source target,
    contract.Onward setting label source target →
    Service.Quiet source.state label →
    contract.Inv target
  /-- A response that a call takes for its own satisfies the postcondition all the
  same. -/
  misread_post : ∀ call position source target
      (misreading : Misreading Node Store Req Resp Err),
    contract.Onward setting (.misread call position) source target →
    source.state.misreading? call position = some misreading →
    contract.Post misreading.caller.root misreading.target misreading.request
      misreading.response target
  /-- The environment keeps the invariant. -/
  inv_env : ∀ node event source target,
    contract.Onward setting (.env node event) source target →
    contract.Inv target
  handler_safe : ∀ index root node request world,
    contract.Inv world →
    contract.Pre root node request world →
    contract.Safe setting index root node request []
      (setting.service.handler node request) world

end

/-! ## The state of the bookkeeping -/

section

variable [DecidableEq Node]
variable (contract : Contract Node Store Req Resp Err Event)
variable (setting : Setting Node Store Req Resp Err Event)

/-- The rest of the program of an execution is safe, or its response satisfies
the postcondition. -/
def PhaseSafe (index : Nat) (execution : Execution Node Store Req Resp Err)
    (world : NetworkWorld Node Store Req Resp Err Event) : Prop :=
  match execution.phase with
  | .running prog =>
      contract.Safe setting index execution.root execution.node
        execution.request execution.requests prog world
  | .finished response =>
      contract.Post execution.root execution.node execution.request response
        world

/-- The contract at one execution. -/
structure PhaseOk (index : Nat)
    (execution : Execution Node Store Req Resp Err)
    (world : NetworkWorld Node Store Req Resp Err Event) : Prop where
  length : execution.results.length = execution.requests.length
  answered :
    ∀ (slot : Nat) (target : Node) (request : Req) (response : Resp),
      execution.requests[slot]? = some (target, request) →
      execution.results[slot]? = some (some (Except.ok response)) →
      contract.Post execution.root target request response world
  phase : PhaseSafe contract setting index execution world

/-- The whole bookkeeping invariant. -/
structure Holds (world : NetworkWorld Node Store Req Resp Err Event) :
    Prop where
  inv : contract.Inv world
  phase : ∀ (index : Nat) (execution : Execution Node Store Req Resp Err),
    world.state.executions[index]? = some execution →
    PhaseOk contract setting index execution world
  client : ∀ (index : Nat) (execution : Execution Node Store Req Resp Err),
    world.state.executions[index]? = some execution →
    execution.caller = none →
    execution.root = index
  linked : ∀ (index : Nat) (execution : Execution Node Store Req Resp Err)
    (call : CallId),
    world.state.executions[index]? = some execution →
    execution.caller = some call →
    world.state.Linked call execution.root execution.node execution.request
  message : ∀ message, message ∈ world.state.inFlight →
    ∃ root,
      world.state.Linked message.caller root message.target message.request ∧
        contract.Pre root message.target message.request world

variable {contract setting}

/-- What is safe now is safe after any step. -/
theorem Contract.Safe.onward (sound : contract.Sound setting)
    {label : Label Node Req Err Event}
    {source target : NetworkWorld Node Store Req Resp Err Event}
    (onward : contract.Onward setting label source target)
    {index root : Nat} {node : Node} {request : Req}
    (prog : Prog Node Store Req Resp Err Resp) :
    ∀ {asked : List (Node × Req)},
      contract.Safe setting index root node request asked prog source →
      contract.Safe setting index root node request asked prog target := by
  have ahead : contract.Future setting source target :=
    Relation.ReflTransGen.single ⟨label, onward⟩
  induction prog with
  | done response =>
      intro asked safe
      exact sound.post_stable _ _ _ _ _ _ _ onward safe
  | atomic act next _ =>
      intro asked safe later execution future
      exact safe later execution (ahead.trans future)
  | spawn requests next inductionHypothesis =>
      intro asked safe
      refine ⟨fun callee called member => ?_, inductionHypothesis safe.2⟩
      exact sound.pre_stable _ _ _ _ _ _ onward (safe.1 callee called member)
  | join next _ =>
      intro asked safe later outcomes future
      exact safe later outcomes (ahead.trans future)

/-- A program is safe when its actions keep the invariant, its calls need nothing
and any response will do. -/
theorem Contract.Safe.of_within {index root : Nat} {node : Node}
    {request : Req} {acts : (Store → Store) → Prop}
    {calls : Node → Req → Prop}
    {prog : Prog Node Store Req Resp Err Resp}
    (within : prog.Within acts calls)
    (performs : ∀ {later execution act next},
      acts act →
      setting.Reachable later →
      contract.Inv later →
      later.state.executions[index]? = some execution →
      execution.node = node →
      execution.request = request →
      execution.root = root →
      execution.phase = .running (.atomic act next) →
      setting.allowed later.state (.step index) →
      contract.Inv
        (later.push (.step index)
          (later.state.perform index execution act next)))
    (pre : ∀ target called, calls target called →
      ∀ world, contract.Pre root target called world)
    (post : ∀ response world,
      contract.Post root node request response world) :
    ∀ asked world,
      contract.Safe setting index root node request asked prog world := by
  induction prog with
  | done response => exact fun asked world => post response world
  | atomic act next inductionHypothesis =>
      intro asked world later execution _ reachable inv found sameNode
        sameRequest sameRoot phase allowed
      exact
        ⟨performs within.1 reachable inv found sameNode sameRequest sameRoot
            phase allowed,
          inductionHypothesis _ (within.2 _) asked _⟩
  | spawn requests next inductionHypothesis =>
      intro asked world
      exact
        ⟨fun target called member =>
            pre target called (within.1 target called member) world,
          inductionHypothesis within.2 _ world⟩
  | join next inductionHypothesis =>
      intro asked world later outcomes _ _
      exact inductionHypothesis outcomes (within outcomes) [] later

/-- A step keeps the contract at every execution that does not move. -/
theorem PhaseOk.onward (sound : contract.Sound setting) {index : Nat}
    {execution : Execution Node Store Req Resp Err}
    {label : Label Node Req Err Event}
    {source target : NetworkWorld Node Store Req Resp Err Event}
    (onward : contract.Onward setting label source target)
    (ok : PhaseOk contract setting index execution source) :
    PhaseOk contract setting index execution target where
  length := ok.length
  answered := fun slot callee request response asked answered =>
    sound.post_stable _ _ _ _ _ _ _ onward
      (ok.answered slot callee request response asked answered)
  phase := by
    have here := ok.phase
    unfold PhaseSafe at here ⊢
    split at here
    · exact here.onward sound onward
    · exact sound.post_stable _ _ _ _ _ _ _ onward here

/-- An outcome arrives at an execution. -/
theorem PhaseOk.settle {index : Nat}
    {execution : Execution Node Store Req Resp Err}
    {world : NetworkWorld Node Store Req Resp Err Event}
    (ok : PhaseOk contract setting index execution world)
    (slot : Nat) (result : Except Err Resp)
    (justified : ∀ target request response,
      execution.requests[slot]? = some (target, request) →
      result = .ok response →
      contract.Post execution.root target request response world) :
    PhaseOk contract setting index
      { execution with results := execution.results.set slot (some result) }
      world where
  length := by simpa using ok.length
  answered := by
    intro other target request response asked answered
    rw [List.getElem?_set] at answered
    split at answered
    · rename_i same
      subst same
      split at answered
      · simp only [Option.some.injEq] at answered
        exact justified target request response asked answered
      · cases answered
    · exact ok.answered other target request response asked answered
  phase := ok.phase

/-- The program of a running execution is safe. -/
theorem PhaseOk.safe {index : Nat}
    {execution : Execution Node Store Req Resp Err}
    {world : NetworkWorld Node Store Req Resp Err Event}
    {prog : Prog Node Store Req Resp Err Resp}
    (ok : PhaseOk contract setting index execution world)
    (phase : execution.phase = .running prog) :
    contract.Safe setting index execution.root execution.node
      execution.request execution.requests prog world := by
  have here := ok.phase
  simpa only [PhaseSafe, phase] using here

/-- A new execution is as good as its program. -/
theorem PhaseOk.fresh {index : Nat}
    {execution : Execution Node Store Req Resp Err}
    {world : NetworkWorld Node Store Req Resp Err Event}
    (requests : execution.requests = [])
    (results : execution.results = [])
    (phase : PhaseSafe contract setting index execution world) :
    PhaseOk contract setting index execution world where
  length := by rw [requests, results]; rfl
  answered := by
    intro slot target request response asked
    simp [requests] at asked
  phase := phase

/-- An execution that spawns calls has no answers to them yet. -/
theorem PhaseOk.send {index : Nat}
    {execution : Execution Node Store Req Resp Err}
    {world : NetworkWorld Node Store Req Resp Err Event}
    {requests : List (Node × Req)}
    {further : Prog Node Store Req Resp Err Resp}
    (ok : PhaseOk contract setting index execution world)
    (phase : execution.phase = .running (.spawn requests further)) :
    PhaseOk contract setting index
      { execution with
        requests := execution.requests ++ requests
        results := execution.results ++ List.replicate requests.length none
        phase := .running further }
      world where
  length := by simp [ok.length]
  answered := by
    intro slot target request response asked answered
    -- A slot that is already answered belongs to an earlier call.
    have old : slot < execution.results.length := by
      by_contra outOfRange
      rw [List.getElem?_append_right (Nat.le_of_not_lt outOfRange),
        List.getElem?_replicate] at answered
      split at answered
      · cases answered
      · cases answered
    rw [List.getElem?_append_left old] at answered
    rw [List.getElem?_append_left (ok.length ▸ old)] at asked
    exact ok.answered slot target request response asked answered
  phase := (ok.safe phase).2

/-! ## Soundness

Each lemma treats one part of the bookkeeping for all moves.  In all of them the
step goes from `source` to `source.push label next`. -/

section Soundness

variable {label : Label Node Req Err Event}
variable {source : NetworkWorld Node Store Req Resp Err Event}
variable {next : Network Node Store Req Resp Err}

theorem Holds.push_inv (holds : Holds contract setting source)
    (sound : contract.Sound setting)
    (onward : contract.Onward setting label source (source.push label next))
    (moves : setting.service.Moves source.state label next) :
    contract.Inv (source.push label next) := by
  have quiet (isQuiet : Service.Quiet source.state label) :
      contract.Inv (source.push label next) :=
    sound.inv_quiet label source _ onward isQuiet
  have quietStep {index : Nat}
      {execution : Execution Node Store Req Resp Err}
      {prog : Prog Node Store Req Resp Err Resp}
      (found : source.state.executions[index]? = some execution)
      (phase : execution.phase = .running prog)
      (notAtomic : ∀ act further, prog ≠ .atomic act further) :
      ¬ Service.ActsAt source.state index := by
    intro given
    obtain ⟨other, act, further, foundOther, phaseOther⟩ := given
    rw [found] at foundOther
    cases foundOther
    rw [phase] at phaseOther
    cases phaseOther
    exact notAtomic act further rfl
  cases moves with
  | perform found phase =>
      exact
        ((holds.phase _ _ found).safe phase source _ .refl onward.reachable
          onward.inv found rfl rfl rfl phase onward.step.1).1
  | env node event => exact sound.inv_env node event source _ onward
  | send found phase =>
      exact quiet (quietStep found phase (by intro _ _ same; cases same))
  | resume found phase filled =>
      exact quiet (quietStep found phase (by intro _ _ same; cases same))
  | answer found phase =>
      exact quiet (quietStep found phase (by intro _ _ same; cases same))
  | issue node request => exact quiet trivial
  | deliver found callerFound => exact quiet trivial
  | lose inRange => exact quiet trivial
  | fail error pending => exact quiet trivial
  | misread finds => exact quiet trivial

/-- A changed execution of a settled network, in terms of the network before. -/
theorem settle_phase {network : Network Node Store Req Resp Err}
    {call : CallId} {result : Except Err Resp}
    {world : NetworkWorld Node Store Req Resp Err Event}
    (ok : ∀ index execution,
      network.executions[index]? = some execution →
      PhaseOk contract setting index execution world)
    (justified : ∀ caller target request response,
      network.executions[call.execution]? = some caller →
      caller.round = call.round →
      caller.requests[call.slot]? = some (target, request) →
      result = .ok response →
      contract.Post caller.root target request response world)
    (index : Nat) (execution : Execution Node Store Req Resp Err)
    (found :
      (network.settle call result).executions[index]? = some execution) :
    PhaseOk contract setting index execution world := by
  cases pending : network.isPending call with
  | false =>
      rw [Network.settle_of_not_pending pending] at found
      exact ok index execution found
  | true =>
      obtain ⟨caller, callerFound, sameRound, _, shape⟩ :=
        Network.settle_of_pending result pending
      rw [shape] at found
      rcases Network.setExecution_cases found with ⟨same, replaced⟩ | ⟨_, old⟩
      · subst same
        rw [replaced]
        refine (ok _ caller callerFound).settle call.slot result ?_
        intro target request response asked answered
        exact justified caller target request response callerFound sameRound
          asked answered
      · exact ok index execution old

/-- An execution ends, and its caller gets the response. -/
theorem Holds.phase_of_answer (holds : Holds contract setting source)
    {world : NetworkWorld Node Store Req Resp Err Event}
    (unmoved : ∀ (other : Nat) (old : Execution Node Store Req Resp Err),
      source.state.executions[other]? = some old →
      PhaseOk contract setting other old world)
    {mover : Nat} {ended : Execution Node Store Req Resp Err} {response : Resp}
    (foundMover : source.state.executions[mover]? = some ended)
    (phase : ended.phase = .running (.done response))
    (index : Nat) (execution : Execution Node Store Req Resp Err)
    (found :
      (source.state.answer mover ended response).executions[index]? =
        some execution) :
    PhaseOk contract setting index execution world := by
  have before := unmoved _ _ foundMover
  have posted :
      contract.Post ended.root ended.node ended.request response world :=
    before.safe phase
  have endedOk (other : Nat) (old : Execution Node Store Req Resp Err)
      (oldFound :
        (source.state.setExecution mover
          { ended with phase := .finished response }).executions[other]? =
          some old) :
      PhaseOk contract setting other old world := by
    rcases Network.setExecution_cases oldFound with ⟨same, moved⟩ | ⟨_, old⟩
    · subst same
      rw [moved]
      exact
        { length := before.length
          answered := before.answered
          phase := posted }
    · exact unmoved _ _ old
  simp only [Network.answer] at found
  split at found
  · rename_i call callerIs
    refine settle_phase endedOk ?_ index execution found
    intro caller target request given callerFound sameRound asked answered
    cases answered
    -- The slot holds the request of the execution that has just ended.
    obtain ⟨linked, linkedFound, sameRoot, _, slots⟩ :=
      Network.Linked.persists
        (holds.linked _ _ call foundMover callerIs)
        (Network.Persists.of_setExecution foundMover
          (.of_phase phase (.finished response)))
    rw [callerFound] at linkedFound
    cases linkedFound
    rw [slots sameRound] at asked
    cases asked
    rw [sameRoot]
    exact posted
  · exact endedOk index execution found

/-- Every execution stays in a phase that its contract allows. -/
theorem Holds.push_phase (holds : Holds contract setting source)
    (sound : contract.Sound setting)
    (onward : contract.Onward setting label source (source.push label next))
    (moves : setting.service.Moves source.state label next)
    (index : Nat) (execution : Execution Node Store Req Resp Err)
    (found : next.executions[index]? = some execution) :
    PhaseOk contract setting index execution (source.push label next) := by
  have inv := holds.push_inv sound onward moves
  have ahead : contract.Future setting source (source.push label next) :=
    Relation.ReflTransGen.single ⟨label, onward⟩
  have unmoved (other : Nat) (old : Execution Node Store Req Resp Err)
      (oldFound : source.state.executions[other]? = some old) :
      PhaseOk contract setting other old (source.push label next) :=
    (holds.phase other old oldFound).onward sound onward
  cases moves with
  | issue node request =>
      rcases Network.spawn_cases found with ⟨same, added⟩ | old
      · subst same
        rw [added]
        exact .fresh rfl rfl
          (sound.handler_safe _ _ _ _ _ inv
            (sound.issue_pre node request source _ onward))
      · exact unmoved index execution old
  | perform foundMover phase =>
      rcases Network.setExecution_cases found with ⟨same, moved⟩ | ⟨_, old⟩
      · subst same
        rw [moved]
        have before := unmoved _ _ foundMover
        exact
          { length := before.length
            answered := before.answered
            phase :=
              ((holds.phase _ _ foundMover).safe phase source _ .refl
                onward.reachable onward.inv foundMover rfl rfl rfl phase
                onward.step.1).2 }
      · exact unmoved index execution old
  | send foundMover phase =>
      rcases Network.setExecution_cases found with ⟨same, moved⟩ | ⟨_, old⟩
      · subst same
        rw [moved]
        exact (unmoved _ _ foundMover).send phase
      · exact unmoved index execution old
  | @resume mover resumed further outcomes foundMover phase filled =>
      rcases Network.setExecution_cases found with ⟨same, moved⟩ | ⟨_, old⟩
      · subst same
        rw [moved]
        have before := unmoved _ _ foundMover
        refine .fresh rfl rfl (before.safe phase _ outcomes .refl ?_)
        refine ⟨by simpa [filled] using before.length, ?_⟩
        intro slot target request response asked answered
        exact before.answered slot target request response asked
          (by simp [filled, answered])
      · exact unmoved index execution old
  | answer foundMover phase =>
      exact holds.phase_of_answer unmoved foundMover phase index execution found
  | @deliver position message caller taken callerFound =>
      rcases Network.spawn_cases found with ⟨same, added⟩ | old
      · subst same
        rw [added]
        obtain ⟨root, linked, pre⟩ :=
          holds.message message (List.mem_of_getElem? taken)
        obtain ⟨other, otherFound, sameRoot, _⟩ := linked
        rw [callerFound] at otherFound
        cases otherFound
        subst sameRoot
        exact .fresh rfl rfl
          (sound.handler_safe _ _ _ _ _ inv
            (sound.pre_stable _ _ _ _ _ _ onward pre))
      · exact unmoved index execution old
  | lose inRange => exact unmoved index execution found
  | @fail call error pending =>
      refine settle_phase unmoved ?_ index execution found
      intro _ _ _ _ _ _ _ impossible
      cases impossible
  | @misread call position misreading finds =>
      refine settle_phase unmoved ?_ index execution found
      intro caller target request response callerFound _ asked isOk
      obtain ⟨foundToo, _, askedToo, _⟩ := Network.of_misreading? finds
      rw [callerFound] at foundToo
      cases foundToo
      rw [asked] at askedToo
      cases askedToo
      cases isOk
      exact sound.misread_post call position source _ misreading onward finds
  | env node event => exact unmoved index execution found

theorem Holds.push_message (holds : Holds contract setting source)
    (sound : contract.Sound setting)
    (onward : contract.Onward setting label source (source.push label next))
    (moves : setting.service.Moves source.state label next)
    (message : Message Node Req) (member : message ∈ next.inFlight) :
    ∃ root,
      next.Linked message.caller root message.target message.request ∧
        contract.Pre root message.target message.request
          (source.push label next) := by
  have old (oldMember : message ∈ source.state.inFlight) :
      ∃ root,
        next.Linked message.caller root message.target message.request ∧
          contract.Pre root message.target message.request
            (source.push label next) := by
    obtain ⟨root, linked, pre⟩ := holds.message message oldMember
    exact ⟨root, linked.persists moves.persists,
      sound.pre_stable _ _ _ _ _ _ onward pre⟩
  cases moves with
  | @send mover sender requests further found phase =>
      rcases List.mem_append.mp member with oldMember | sent
      · exact old oldMember
      · obtain ⟨offset, entry, callerIs⟩ := Network.mem_batch sent
        refine ⟨sender.root, ?_, ?_⟩
        · rw [callerIs]
          refine ⟨_, Network.setExecution_self found, rfl, Nat.le_refl _,
            fun _ => ?_⟩
          rw [List.getElem?_append_right (Nat.le_add_right _ _),
            Nat.add_sub_cancel_left]
          exact entry
        · exact sound.pre_stable _ _ _ _ _ _ onward
            (((holds.phase _ _ found).safe phase).1 _ _
              (List.mem_of_getElem? entry))
  | answer found phase => exact old (by simpa using member)
  | fail error pending => exact old (by simpa using member)
  | misread finds => exact old (by simpa using member)
  | deliver taken callerFound =>
      exact old (List.mem_of_mem_eraseIdx member)
  | lose inRange => exact old (List.mem_of_mem_eraseIdx member)
  | issue node request => exact old member
  | perform found phase => exact old member
  | resume found phase filled => exact old member
  | env node event => exact old member

/-- The step lemma: one step keeps the whole bookkeeping. -/
theorem Holds.push (holds : Holds contract setting source)
    (sound : contract.Sound setting)
    (onward : contract.Onward setting label source (source.push label next)) :
    Holds contract setting (source.push label next) := by
  have moves : setting.service.Moves source.state label next :=
    Setting.moves onward.step
  refine
    { inv := holds.push_inv sound onward moves
      phase := holds.push_phase sound onward moves
      client := ?_
      linked := ?_
      message := holds.push_message sound onward moves }
  · intro index execution found noCaller
    rcases moves.origin found with
      ⟨old, oldFound, evolves⟩ | ⟨node, request, _, _, added⟩ |
        ⟨message, caller, _, _, added⟩
    · rw [evolves.root]
      exact holds.client index old oldFound
        (evolves.caller.symm.trans noCaller)
    · rw [added]
      rfl
    · rw [added] at noCaller
      cases noCaller
  · intro index execution call found callerIs
    rcases moves.origin found with
      ⟨old, oldFound, evolves⟩ | ⟨node, request, _, _, added⟩ |
        ⟨message, caller, member, callerFound, added⟩
    · rw [evolves.root, evolves.node, evolves.request]
      exact (holds.linked index old call oldFound
        (evolves.caller.symm.trans callerIs)).persists moves.persists
    · rw [added] at callerIs
      cases callerIs
    · rw [added] at callerIs ⊢
      cases callerIs
      obtain ⟨root, linked, _⟩ := holds.message message member
      obtain ⟨other, otherFound, sameRoot, waits⟩ := linked
      have sameCaller : other = caller := by
        rw [callerFound] at otherFound
        cases otherFound
        rfl
      subst sameCaller
      exact Network.Linked.persists ⟨other, otherFound, rfl, waits⟩
        moves.persists

end Soundness

/-- The rule of contracts: a sound contract holds in every reachable world. -/
theorem Contract.Sound.holds (sound : contract.Sound setting)
    {world : NetworkWorld Node Store Req Resp Err Event}
    (reachable : setting.Reachable world) :
    Holds contract setting world := by
  refine System.Reachable.invariant reachable (Holds contract setting) ?_ ?_
  · rintro state rfl
    exact
      { inv := sound.inv_boot
        phase := fun index execution found => by
          simp [Service.initial] at found
        client := fun index execution found => by
          simp [Service.initial] at found
        linked := fun index execution call found => by
          simp [Service.initial] at found
        message := fun message member => by
          simp [Service.initial] at member }
  · intro label source target reached holds step
    have shape := step.2.2
    rw [shape] at step ⊢
    exact holds.push sound ⟨reached, holds.inv, step⟩

/-- What a handler has answered satisfies its postcondition. -/
theorem Contract.Sound.post (sound : contract.Sound setting)
    {world : NetworkWorld Node Store Req Resp Err Event}
    (reachable : setting.Reachable world) {index : Nat}
    {execution : Execution Node Store Req Resp Err} {response : Resp}
    (found : world.state.executions[index]? = some execution)
    (ended : execution.phase = .finished response) :
    contract.Post execution.root execution.node execution.request response
      world := by
  have ok := ((sound.holds reachable).phase index execution found).phase
  simpa only [PhaseSafe, ended] using ok

/-- What a handler has sent satisfies its precondition. -/
theorem Contract.Sound.sent (sound : contract.Sound setting)
    {world : NetworkWorld Node Store Req Resp Err Event}
    (reachable : setting.Reachable world)
    {network : Network Node Store Req Resp Err} {index : Nat}
    {sender : Execution Node Store Req Resp Err}
    {requests : List (Node × Req)} {further : Prog Node Store Req Resp Err Resp}
    (member : (network, .step index) ∈ world.trace)
    (found : network.executions[index]? = some sender)
    (phase : sender.phase = .running (.spawn requests further))
    {target : Node} {called : Req} (sent : (target, called) ∈ requests) :
    contract.Pre sender.root target called world := by
  revert member
  refine System.Reachable.invariant reachable
    (fun world => (network, .step index) ∈ world.trace →
      contract.Pre sender.root target called world) ?_ ?_
  · intro state _ member
    cases member
  · intro label source next reached before step member
    have holds := sound.holds reached
    have onward : contract.Onward setting label source next :=
      ⟨reached, holds.inv, step⟩
    refine sound.pre_stable _ _ _ _ _ _ onward ?_
    rw [step.2.2] at member
    rcases List.mem_cons.mp member with here | earlier
    · cases here
      exact ((holds.phase index sender found).safe phase).1 target called sent
    · exact before earlier

end

end HautePerformance.Library.Rpc
