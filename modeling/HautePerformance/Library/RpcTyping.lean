import HautePerformance.Library.RpcFrame

/-!
# Typing of requests and programs

A typing says which requests a node may receive and which programs may be met
while it serves one.  The programs must be closed under execution and may spawn
well-typed requests only.  Every network that a run reaches is then well typed:
the counterpart of type preservation, and the way to know which action an
execution is about to perform.
-/

namespace HautePerformance.Library.Rpc

variable {Node Store Req Resp Err Event : Type}

/-- One move of a program takes it to another. -/
inductive Prog.Continues {Result : Type} :
    Prog Node Store Req Resp Err Result →
    Prog Node Store Req Resp Err Result → Prop
  | atomic (act : Store → Store)
      (next : Store → Prog Node Store Req Resp Err Result) (store : Store) :
      Continues (.atomic act next) (next store)
  | spawn (requests : List (Node × Req))
      (next : Prog Node Store Req Resp Err Result) :
      Continues (.spawn requests next) next
  | join (next : List (Except Err Resp) → Prog Node Store Req Resp Err Result)
      (outcomes : List (Except Err Resp)) :
      Continues (.join next) (next outcomes)

namespace Prog

variable {Result Mapped : Type}

/-- Every atomic action of the program is in `acts` and every request that it
spawns is in `calls`, whatever the stores and the outcomes it meets. -/
def Within (acts : (Store → Store) → Prop) (calls : Node → Req → Prop) :
    Prog Node Store Req Resp Err Result → Prop
  | .done _ => True
  | .atomic act next => acts act ∧ ∀ store, Within acts calls (next store)
  | .spawn requests next =>
      (∀ target called, (target, called) ∈ requests → calls target called) ∧
        Within acts calls next
  | .join next => ∀ outcomes, Within acts calls (next outcomes)

/-- Every result of the program has the property, whatever the stores and the
outcomes it meets. -/
def Returns (property : Result → Prop) :
    Prog Node Store Req Resp Err Result → Prop
  | .done result => property result
  | .atomic _ next => ∀ store, Returns property (next store)
  | .spawn _ next => Returns property next
  | .join next => ∀ outcomes, Returns property (next outcomes)

/-- No atomic action at all. -/
abbrev Actless (prog : Prog Node Store Req Resp Err Result) : Prop :=
  prog.Within (fun _ => False) (fun _ _ => True)

/-- At most one atomic action, and only as the first move. -/
def ActsOnce : Prog Node Store Req Resp Err Result → Prop
  | .atomic _ next => ∀ store, (next store).Actless
  | other => other.Actless

variable {acts : (Store → Store) → Prop} {calls : Node → Req → Prop}

theorem Within.continues {before prog : Prog Node Store Req Resp Err Result}
    (within : before.Within acts calls) (continues : before.Continues prog) :
    prog.Within acts calls := by
  cases continues with
  | atomic act next store => exact within.2 store
  | spawn requests next => exact within.2
  | join next outcomes => exact within outcomes

theorem Returns.continues {property : Result → Prop}
    {before prog : Prog Node Store Req Resp Err Result}
    (returns : before.Returns property) (continues : before.Continues prog) :
    prog.Returns property := by
  cases continues with
  | atomic act next store => exact returns store
  | spawn requests next => exact returns
  | join next outcomes => exact returns outcomes

theorem Within.mono {moreActs : (Store → Store) → Prop}
    {moreCalls : Node → Req → Prop}
    {prog : Prog Node Store Req Resp Err Result}
    (within : prog.Within acts calls)
    (weakenActs : ∀ act, acts act → moreActs act)
    (weakenCalls : ∀ target called,
      calls target called → moreCalls target called) :
    prog.Within moreActs moreCalls := by
  induction prog with
  | done result => trivial
  | atomic act next inductionHypothesis =>
      exact
        ⟨weakenActs act within.1,
          fun store => inductionHypothesis store (within.2 store)⟩
  | spawn requests next inductionHypothesis =>
      exact
        ⟨fun target called member =>
            weakenCalls target called (within.1 target called member),
          inductionHypothesis within.2⟩
  | join next inductionHypothesis =>
      exact fun outcomes => inductionHypothesis outcomes (within outcomes)

/-- Nothing is asked of the program. -/
theorem within_top (prog : Prog Node Store Req Resp Err Result) :
    prog.Within (fun _ => True) (fun _ _ => True) := by
  induction prog with
  | done result => trivial
  | atomic act next inductionHypothesis => exact ⟨trivial, inductionHypothesis⟩
  | spawn requests next inductionHypothesis =>
      exact ⟨fun _ _ _ => trivial, inductionHypothesis⟩
  | join next inductionHypothesis => exact inductionHypothesis

theorem Within.map {prog : Prog Node Store Req Resp Err Result}
    (f : Result → Mapped) (within : prog.Within acts calls) :
    (prog.map f).Within acts calls := by
  induction prog with
  | done result => trivial
  | atomic act next inductionHypothesis =>
      exact ⟨within.1, fun store => inductionHypothesis store (within.2 store)⟩
  | spawn requests next inductionHypothesis =>
      exact ⟨within.1, inductionHypothesis within.2⟩
  | join next inductionHypothesis =>
      exact fun outcomes => inductionHypothesis outcomes (within outcomes)

theorem Actless.actsOnce {prog : Prog Node Store Req Resp Err Result}
    (actless : prog.Actless) : prog.ActsOnce := by
  cases prog with
  | done result => trivial
  | atomic act next => exact actless.1.elim
  | spawn requests next => exact actless
  | join next => exact actless

theorem ActsOnce.continues {before prog : Prog Node Store Req Resp Err Result}
    (once : before.ActsOnce) (continues : before.Continues prog) :
    prog.Actless := by
  cases continues with
  | atomic act next store => exact once store
  | spawn requests next => exact once.2
  | join next outcomes => exact once outcomes

/-- A program that acts once and does not begin with its action is past it. -/
theorem ActsOnce.actless {prog : Prog Node Store Req Resp Err Result}
    (once : prog.ActsOnce) (past : ∀ act next, prog ≠ .atomic act next) :
    prog.Actless := by
  cases prog with
  | done result => trivial
  | atomic act next => exact (past act next rfl).elim
  | spawn requests next => exact once
  | join next => exact once

theorem ActsOnce.map {prog : Prog Node Store Req Resp Err Result}
    (f : Result → Mapped) (once : prog.ActsOnce) : (prog.map f).ActsOnce := by
  cases prog with
  | done result => trivial
  | atomic act next => exact fun store => Within.map f (once store)
  | spawn requests next => exact ⟨fun _ _ _ => trivial, Within.map f once.2⟩
  | join next => exact fun outcomes => Within.map f (once outcomes)

end Prog

/-- A changed execution differs from the old one by an outcome at most. -/
theorem Network.settle_cases {network : Network Node Store Req Resp Err}
    {call : CallId} {result : Except Err Resp} {index : Nat}
    {execution : Execution Node Store Req Resp Err}
    (found :
      (network.settle call result).executions[index]? = some execution) :
    ∃ old results,
      network.executions[index]? = some old ∧
        execution = { old with results := results } := by
  cases pending : network.isPending call with
  | false =>
      rw [settle_of_not_pending pending] at found
      exact ⟨execution, execution.results, found, rfl⟩
  | true =>
      obtain ⟨caller, callerFound, _, _, shape⟩ :=
        settle_of_pending result pending
      rw [shape] at found
      rcases setExecution_cases found with ⟨same, replaced⟩ | ⟨_, old⟩
      · exact ⟨caller, _, same ▸ callerFound, replaced⟩
      · exact ⟨execution, execution.results, old, rfl⟩

/-- An execution that still runs after an answer is not the one that ended. -/
theorem Network.answer_cases {network : Network Node Store Req Resp Err}
    {mover index : Nat} {ended execution : Execution Node Store Req Resp Err}
    {response : Resp} {prog : Prog Node Store Req Resp Err Resp}
    (found :
      (network.answer mover ended response).executions[index]? =
        some execution)
    (phase : execution.phase = .running prog) :
    ∃ old results,
      network.executions[index]? = some old ∧
        execution = { old with results := results } := by
  have beforeEnd {other : Execution Node Store Req Resp Err}
      (running : other.phase = .running prog)
      (otherFound :
        (network.setExecution mover
          { ended with phase := .finished response }).executions[index]? =
            some other) :
      network.executions[index]? = some other := by
    rcases Network.setExecution_cases otherFound with ⟨_, moved⟩ | ⟨_, old⟩
    · rw [moved] at running
      cases running
    · exact old
  unfold Network.answer at found
  split at found
  · obtain ⟨old, results, oldFound, shape⟩ := Network.settle_cases found
    rw [shape] at phase
    exact ⟨old, results, beforeEnd phase oldFound, shape⟩
  · exact ⟨execution, execution.results, beforeEnd phase found, rfl⟩

section

variable [DecidableEq Node]
variable {service : Service Node Store Req Resp Err Event}
variable {network target : Network Node Store Req Resp Err}
variable {label : Label Node Req Err Event}

/-- Where the program of a running execution comes from: nothing has happened to
it, it has made one move, or it is the handler of a new execution. -/
theorem Service.Moves.running_cases
    (moves : service.Moves network label target) {index : Nat}
    {execution : Execution Node Store Req Resp Err}
    {prog : Prog Node Store Req Resp Err Resp}
    (found : target.executions[index]? = some execution)
    (phase : execution.phase = .running prog) :
    (∃ old,
      network.executions[index]? = some old ∧
        old.node = execution.node ∧
        old.request = execution.request ∧
        old.phase = .running prog) ∨
      (∃ old before,
        network.executions[index]? = some old ∧
          old.node = execution.node ∧
          old.request = execution.request ∧
          old.phase = .running before ∧
          before.Continues prog) ∨
      (index = network.executions.length ∧
        label = .issue execution.node execution.request ∧
        prog = service.handler execution.node execution.request) ∨
      ∃ message,
        index = network.executions.length ∧
          message ∈ network.inFlight ∧
          message.target = execution.node ∧
          message.request = execution.request ∧
          prog = service.handler execution.node execution.request := by
  have unchanged (old : network.executions[index]? = some execution) :
      ∃ old,
        network.executions[index]? = some old ∧
          old.node = execution.node ∧
          old.request = execution.request ∧
          old.phase = .running prog :=
    ⟨execution, old, rfl, rfl, phase⟩
  cases moves with
  | issue node request =>
      rcases Network.spawn_cases found with ⟨isNew, added⟩ | old
      · rw [added] at phase
        cases phase
        rw [added]
        exact Or.inr (Or.inr (Or.inl ⟨isNew, rfl, rfl⟩))
      · exact Or.inl (unchanged old)
  | @perform _ mover _ _ foundMover phaseMover =>
      rcases Network.setExecution_cases found with ⟨same, moved⟩ | ⟨_, old⟩
      · rw [moved] at phase ⊢
        cases phase
        exact Or.inr (Or.inl
          ⟨mover, _, same ▸ foundMover, rfl, rfl, phaseMover, .atomic _ _ _⟩)
      · exact Or.inl (unchanged old)
  | @send _ mover _ _ foundMover phaseMover =>
      rcases Network.setExecution_cases found with ⟨same, moved⟩ | ⟨_, old⟩
      · rw [moved] at phase ⊢
        cases phase
        exact Or.inr (Or.inl
          ⟨mover, _, same ▸ foundMover, rfl, rfl, phaseMover, .spawn _ _⟩)
      · exact Or.inl (unchanged old)
  | @resume _ mover _ _ foundMover phaseMover filled =>
      rcases Network.setExecution_cases found with ⟨same, moved⟩ | ⟨_, old⟩
      · rw [moved] at phase ⊢
        cases phase
        exact Or.inr (Or.inl
          ⟨mover, _, same ▸ foundMover, rfl, rfl, phaseMover, .join _ _⟩)
      · exact Or.inl (unchanged old)
  | answer foundMover phaseMover =>
      obtain ⟨old, results, oldFound, shape⟩ := Network.answer_cases found phase
      rw [shape] at phase ⊢
      exact Or.inl ⟨old, oldFound, rfl, rfl, phase⟩
  | deliver taken callerFound =>
      rcases Network.spawn_cases found with ⟨isNew, added⟩ | old
      · rw [added] at phase
        cases phase
        rw [added]
        exact Or.inr (Or.inr (Or.inr
          ⟨_, isNew, List.mem_of_getElem? taken, rfl, rfl, rfl⟩))
      · exact Or.inl (unchanged old)
  | lose inRange => exact Or.inl (unchanged found)
  | fail error pending =>
      obtain ⟨old, results, oldFound, shape⟩ := Network.settle_cases found
      rw [shape] at phase ⊢
      exact Or.inl ⟨old, oldFound, rfl, rfl, phase⟩
  | misread finds =>
      obtain ⟨old, results, oldFound, shape⟩ := Network.settle_cases found
      rw [shape] at phase ⊢
      exact Or.inl ⟨old, oldFound, rfl, rfl, phase⟩
  | env node event => exact Or.inl (unchanged found)

/-- Where a message in flight comes from. -/
theorem Service.Moves.message_cases
    (moves : service.Moves network label target)
    {message : Message Node Req} (member : message ∈ target.inFlight) :
    message ∈ network.inFlight ∨
      ∃ (sender : Execution Node Store Req Resp Err)
        (requests : List (Node × Req))
        (next : Prog Node Store Req Resp Err Resp),
        network.executions[message.caller.execution]? = some sender ∧
          sender.phase = .running (.spawn requests next) ∧
          (message.target, message.request) ∈ requests := by
  cases moves with
  | send found phase =>
      rcases List.mem_append.mp member with old | sent
      · exact Or.inl old
      · obtain ⟨offset, entry, caller⟩ := Network.mem_batch sent
        refine Or.inr ⟨_, _, _, ?_, phase, List.mem_of_getElem? entry⟩
        rw [caller]
        exact found
  | answer found phase => exact Or.inl (by simpa using member)
  | fail error pending => exact Or.inl (by simpa using member)
  | misread finds => exact Or.inl (by simpa using member)
  | deliver taken callerFound =>
      exact Or.inl (List.mem_of_mem_eraseIdx member)
  | lose inRange => exact Or.inl (List.mem_of_mem_eraseIdx member)
  | issue node request => exact Or.inl member
  | perform found phase => exact Or.inl member
  | resume found phase filled => exact Or.inl member
  | env node event => exact Or.inl member

/-- Which requests occur, and which programs are met while one is served. -/
structure Setting.Typing (setting : Setting Node Store Req Resp Err Event) where
  Fits : Node → Req → Prop
  Good : Node → Req → Prog Node Store Req Resp Err Resp → Prop
  issued : ∀ {network node request},
    setting.allowed network (.issue node request) → Fits node request
  handler : ∀ {node request},
    Fits node request →
    Good node request (setting.service.handler node request)
  continues : ∀ {node request before prog},
    Good node request before → before.Continues prog → Good node request prog
  spawned : ∀ {node request requests next},
    Good node request (.spawn requests next) →
    ∀ target called, (target, called) ∈ requests → Fits target called

/-- The network respects the typing. -/
structure Setting.Typing.Typed
    {setting : Setting Node Store Req Resp Err Event}
    (typing : setting.Typing) (network : Network Node Store Req Resp Err) :
    Prop where
  fits : ∀ {index : Nat} {execution : Execution Node Store Req Resp Err},
    network.executions[index]? = some execution →
    typing.Fits execution.node execution.request
  good : ∀ {index : Nat} {execution : Execution Node Store Req Resp Err}
    {prog : Prog Node Store Req Resp Err Resp},
    network.executions[index]? = some execution →
    execution.phase = .running prog →
    typing.Good execution.node execution.request prog
  message : ∀ {message : Message Node Req},
    message ∈ network.inFlight → typing.Fits message.target message.request

namespace Setting.Typing

variable {setting : Setting Node Store Req Resp Err Event}
variable (typing : setting.Typing)

/-- One allowed step preserves the typing. -/
theorem Typed.step {typing : setting.Typing}
    {source next : Network Node Store Req Resp Err}
    (typed : typing.Typed source)
    (allowed : setting.allowed source label)
    (moves : setting.service.Moves source label next) :
    typing.Typed next where
  fits := by
    intro index execution found
    rcases moves.origin found with
      ⟨old, oldFound, evolves⟩ | ⟨node, request, issue, _, added⟩ |
        ⟨message, caller, member, _, added⟩
    · rw [evolves.node, evolves.request]
      exact typed.fits oldFound
    · rw [issue] at allowed
      rw [added]
      exact typing.issued allowed
    · rw [added]
      exact typed.message member
  good := by
    intro index execution prog found phase
    rcases moves.running_cases found phase with
      ⟨old, oldFound, sameNode, sameRequest, oldPhase⟩ |
        ⟨old, before, oldFound, sameNode, sameRequest, oldPhase, continues⟩ |
          ⟨_, issue, shape⟩ |
            ⟨message, _, member, sameNode, sameRequest, shape⟩
    · rw [← sameNode, ← sameRequest]
      exact typed.good oldFound oldPhase
    · rw [← sameNode, ← sameRequest]
      exact typing.continues (typed.good oldFound oldPhase) continues
    · rw [issue] at allowed
      rw [shape]
      exact typing.handler (typing.issued allowed)
    · rw [shape]
      refine typing.handler ?_
      rw [← sameNode, ← sameRequest]
      exact typed.message member
  message := by
    intro message member
    rcases moves.message_cases member with
      old | ⟨sender, requests, further, found, phase, entry⟩
    · exact typed.message old
    · exact typing.spawned (typed.good found phase) _ _ entry

/-- Every reachable network is well typed. -/
theorem typed {world : NetworkWorld Node Store Req Resp Err Event}
    (reachable : setting.Reachable world) : typing.Typed world.state := by
  refine System.Reachable.state_invariant reachable typing.Typed ?_ ?_
  · rintro network rfl
    exact
      { fits := fun found => by simp [Service.initial] at found
        good := fun found => by simp [Service.initial] at found
        message := fun member => by simp [Service.initial] at member }
  · intro label source next typed allowed executed
    exact typed.step allowed (Service.moves_of_exec executed)

end Setting.Typing

/-- Every execution serves a client request from which its own request descends. -/
structure Network.Rooted (descends : Req → Req → Prop)
    (network : Network Node Store Req Resp Err) : Prop where
  client : ∀ {index : Nat} {execution : Execution Node Store Req Resp Err},
    network.executions[index]? = some execution →
    execution.caller = none → execution.root = index
  origin : ∀ {index : Nat} {execution : Execution Node Store Req Resp Err},
    network.executions[index]? = some execution →
    ∃ origin : Execution Node Store Req Resp Err,
      network.executions[execution.root]? = some origin ∧
        origin.caller = none ∧
        descends origin.request execution.request
  message : ∀ {message : Message Node Req},
    message ∈ network.inFlight →
    ∃ caller origin : Execution Node Store Req Resp Err,
      network.executions[message.caller.execution]? = some caller ∧
        network.executions[caller.root]? = some origin ∧
        origin.caller = none ∧
        descends origin.request message.request

namespace Setting.Typing

variable {setting : Setting Node Store Req Resp Err Event}
variable (typing : setting.Typing) {descends : Req → Req → Prop}

/-- Descent from the client request is kept when every spawned request descends
from what its sender's request descends from. -/
theorem rooted (refl : ∀ request, descends request request)
    (handedOn : ∀ {root node request requests next},
      descends root request →
      typing.Good node request (.spawn requests next) →
      ∀ target called, (target, called) ∈ requests → descends root called)
    {world : NetworkWorld Node Store Req Resp Err Event}
    (reachable : setting.Reachable world) :
    world.state.Rooted descends := by
  refine System.Reachable.invariant reachable
    (fun world => world.state.Rooted descends) ?_ ?_
  · rintro network rfl
    exact
      { client := fun found => by simp [Service.initial] at found
        origin := fun found => by simp [Service.initial] at found
        message := fun member => by simp [Service.initial] at member }
  · intro label source next reached rooted step
    have moves := Setting.moves step
    have typed := typing.typed reached
    -- An execution that serves as origin is found again.
    have persists {index : Nat}
        {request : Req} {origin : Execution Node Store Req Resp Err}
        (found : source.state.executions[index]? = some origin)
        (isClient : origin.caller = none)
        (descent : descends origin.request request) :
        ∃ later : Execution Node Store Req Resp Err,
          next.state.executions[index]? = some later ∧
            later.caller = none ∧ descends later.request request := by
      obtain ⟨later, foundLater, evolves⟩ := moves.persists index origin found
      exact ⟨later, foundLater, evolves.caller.trans isClient,
        evolves.request ▸ descent⟩
    refine { client := ?_, origin := ?_, message := ?_ }
    · intro index execution found isClient
      rcases moves.origin found with
        ⟨old, oldFound, evolves⟩ | ⟨node, request, _, _, added⟩ |
          ⟨message, caller, _, _, added⟩
      · rw [evolves.root]
        exact rooted.client oldFound (evolves.caller.symm.trans isClient)
      · rw [added]
        rfl
      · rw [added] at isClient
        cases isClient
    · intro index execution found
      rcases moves.origin found with
        ⟨old, oldFound, evolves⟩ | ⟨node, request, _, _, added⟩ |
          ⟨message, caller, member, callerFound, added⟩
      · obtain ⟨origin, originFound, isClient, descent⟩ :=
          rooted.origin oldFound
        rw [evolves.root, evolves.request]
        exact persists originFound isClient descent
      · rw [added] at found ⊢
        exact ⟨_, found, rfl, refl request⟩
      · obtain ⟨sender, origin, senderFound, originFound, isClient, descent⟩ :=
          rooted.message member
        rw [callerFound] at senderFound
        cases senderFound
        rw [added]
        exact persists originFound isClient descent
    · intro message member
      rcases moves.message_cases member with
        old | ⟨sender, requests, further, senderFound, phase, entry⟩
      · obtain ⟨sender, origin, senderFound, originFound, isClient, descent⟩ :=
          rooted.message old
        obtain ⟨later, foundLater, evolves⟩ :=
          moves.persists _ sender senderFound
        obtain ⟨laterOrigin, laterOriginFound, stillClient, laterDescent⟩ :=
          persists originFound isClient descent
        exact ⟨later, laterOrigin, foundLater,
          evolves.root ▸ laterOriginFound, stillClient, laterDescent⟩
      · obtain ⟨origin, originFound, isClient, descent⟩ :=
          rooted.origin senderFound
        obtain ⟨later, foundLater, evolves⟩ :=
          moves.persists _ sender senderFound
        obtain ⟨laterOrigin, laterOriginFound, stillClient, laterDescent⟩ :=
          persists originFound isClient
            (handedOn descent (typed.good senderFound phase) _ _ entry)
        exact ⟨later, laterOrigin, foundLater,
          evolves.root ▸ laterOriginFound, stillClient, laterDescent⟩

end Setting.Typing

end

end HautePerformance.Library.Rpc
