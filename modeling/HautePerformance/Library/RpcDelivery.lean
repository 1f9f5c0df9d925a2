import HautePerformance.Library.RpcTyping

/-!
# Requests that are still to be served

A request is owed to a node when the next move of some execution sends it, when
it is in flight, or when it has been delivered and its handler has not begun to
move.  As long as no message is lost, a request stays owed until its handler
makes its first move; when nothing runs and nothing is in flight, nothing is
owed.
-/

namespace HautePerformance.Library.Rpc

variable {Node Store Req Resp Err Event : Type}

namespace Network

variable {network : Network Node Store Req Resp Err}

/-- An outcome changes an execution in its results at most. -/
theorem settle_found {call : CallId} {result : Except Err Resp}
    {index : Nat} {execution : Execution Node Store Req Resp Err}
    (found : network.executions[index]? = some execution) :
    ∃ results,
      (network.settle call result).executions[index]? =
        some { execution with results := results } := by
  cases pending : network.isPending call with
  | false =>
      rw [settle_of_not_pending pending]
      exact ⟨execution.results, found⟩
  | true =>
      obtain ⟨caller, callerFound, _, _, shape⟩ :=
        settle_of_pending result pending
      rw [shape]
      by_cases same : index = call.execution
      · subst same
        rw [callerFound] at found
        cases found
        exact ⟨_, setExecution_self callerFound⟩
      · exact ⟨execution.results, by rw [setExecution_ne same]; exact found⟩

/-- Each spawned request has its message. -/
theorem mem_batch_of_mem (index round slot : Nat)
    {requests : List (Node × Req)} {target : Node} {request : Req}
    (member : (target, request) ∈ requests) :
    ∃ message,
      message ∈ batch index round slot requests ∧
        message.target = target ∧ message.request = request := by
  obtain ⟨offset, entry⟩ := List.getElem?_of_mem member
  refine
    ⟨{ caller := ⟨index, round, slot + offset⟩
       target := target
       request := request }, ?_, rfl, rfl⟩
  simp only [batch, List.mem_map]
  refine ⟨((target, request), slot + offset), ?_, rfl⟩
  rw [List.mk_mem_zipIdx_iff_le_and_getElem?_sub]
  exact ⟨Nat.le_add_right _ _, by rw [Nat.add_sub_cancel_left]; exact entry⟩

/-- Every execution has responded and no request is in flight. -/
def Quiescent (network : Network Node Store Req Resp Err) : Prop :=
  network.inFlight = [] ∧
    ∀ (index : Nat) (execution : Execution Node Store Req Resp Err),
      network.executions[index]? = some execution →
      ∃ response, execution.phase = .finished response

/-- The same, computed. -/
def isQuiescent (network : Network Node Store Req Resp Err) : Bool :=
  network.inFlight.isEmpty &&
    network.executions.all fun execution => execution.response?.isSome

theorem quiescent_of_isQuiescent (quiescent : network.isQuiescent = true) :
    network.Quiescent := by
  simp only [isQuiescent, Bool.and_eq_true, List.isEmpty_iff,
    List.all_eq_true] at quiescent
  refine ⟨quiescent.1, fun index execution found => ?_⟩
  obtain ⟨response, ended⟩ :=
    Option.isSome_iff_exists.mp
      (quiescent.2 execution (List.mem_of_getElem? found))
  exact ⟨response, Execution.phase_of_response? ended⟩

end Network

section

variable [DecidableEq Node]
variable {service : Service Node Store Req Resp Err Event}
variable {network next : Network Node Store Req Resp Err}
variable {label : Label Node Req Err Event}

/-- A running execution keeps its program until it moves. -/
theorem Service.Moves.running_or_steps
    (moves : service.Moves network label next) {index : Nat}
    {execution : Execution Node Store Req Resp Err}
    {prog : Prog Node Store Req Resp Err Resp}
    (found : network.executions[index]? = some execution)
    (phase : execution.phase = .running prog) :
    (∃ later,
      next.executions[index]? = some later ∧
        later.node = execution.node ∧
        later.request = execution.request ∧
        later.phase = .running prog) ∨
      label = .step index := by
  have unmoved {mover : Nat}
      {replacement : Execution Node Store Req Resp Err}
      (different : index ≠ mover) :
      (network.setExecution mover replacement).executions[index]? =
        some execution := by
    rw [Network.setExecution_ne different]
    exact found
  have settled {other : Network Node Store Req Resp Err} {call : CallId}
      {result : Except Err Resp}
      (stillFound : other.executions[index]? = some execution) :
      ∃ later,
        (other.settle call result).executions[index]? = some later ∧
          later.node = execution.node ∧
          later.request = execution.request ∧
          later.phase = .running prog := by
    obtain ⟨results, foundLater⟩ := Network.settle_found stillFound
    exact ⟨_, foundLater, rfl, rfl, phase⟩
  cases moves with
  | issue node request =>
      exact Or.inl ⟨_, Network.spawn_old found, rfl, rfl, phase⟩
  | @perform mover _ _ _ foundMover phaseMover =>
      by_cases same : index = mover
      · exact Or.inr (by rw [same])
      · exact Or.inl ⟨_, unmoved same, rfl, rfl, phase⟩
  | @send mover _ _ _ foundMover phaseMover =>
      by_cases same : index = mover
      · exact Or.inr (by rw [same])
      · exact Or.inl ⟨_, unmoved same, rfl, rfl, phase⟩
  | @resume mover _ _ _ foundMover phaseMover filled =>
      by_cases same : index = mover
      · exact Or.inr (by rw [same])
      · exact Or.inl ⟨_, unmoved same, rfl, rfl, phase⟩
  | @answer mover _ _ foundMover phaseMover =>
      by_cases same : index = mover
      · exact Or.inr (by rw [same])
      · refine Or.inl ?_
        unfold Network.answer
        split
        · exact settled (unmoved same)
        · exact ⟨_, unmoved same, rfl, rfl, phase⟩
  | deliver taken callerFound =>
      exact Or.inl ⟨_, Network.spawn_old found, rfl, rfl, phase⟩
  | lose inRange => exact Or.inl ⟨_, found, rfl, rfl, phase⟩
  | fail error pending => exact Or.inl (settled found)
  | misread finds => exact Or.inl (settled found)
  | env node event => exact Or.inl ⟨_, found, rfl, rfl, phase⟩

/-- A message in flight stays there until it is delivered or lost. -/
theorem Service.Moves.inFlight_cases
    (moves : service.Moves network label next)
    (kept : ∀ position, label ≠ .lose position)
    {message : Message Node Req} (member : message ∈ network.inFlight) :
    message ∈ next.inFlight ∨
      ∃ (index : Nat) (execution : Execution Node Store Req Resp Err),
        next.executions[index]? = some execution ∧
          execution.node = message.target ∧
          execution.request = message.request ∧
          execution.phase =
            .running (service.handler message.target message.request) := by
  cases moves with
  | send found phase => exact Or.inl (List.mem_append_left _ member)
  | @deliver position delivered caller taken callerFound =>
      obtain ⟨other, atOther⟩ := List.getElem?_of_mem member
      by_cases same : other = position
      · subst same
        rw [taken] at atOther
        cases atOther
        exact Or.inr ⟨_, _, Network.spawn_new _, rfl, rfl, rfl⟩
      · refine Or.inl (List.mem_eraseIdx_iff_getElem?.mpr ⟨other, same, atOther⟩)
  | lose inRange => exact (kept _ rfl).elim
  | answer found phase => exact Or.inl (by simpa using member)
  | fail error pending => exact Or.inl (by simpa using member)
  | misread finds => exact Or.inl (by simpa using member)
  | issue node request => exact Or.inl member
  | perform found phase => exact Or.inl member
  | resume found phase filled => exact Or.inl member
  | env node event => exact Or.inl member

/-- The request is still to be served by the node. -/
inductive Service.Owed (service : Service Node Store Req Resp Err Event)
    (network : Network Node Store Req Resp Err) (target : Node)
    (request : Req) : Prop
  | unsent {index : Nat} {execution : Execution Node Store Req Resp Err}
      {requests : List (Node × Req)}
      {next : Prog Node Store Req Resp Err Resp} :
      network.executions[index]? = some execution →
      execution.phase = .running (.spawn requests next) →
      (target, request) ∈ requests →
      Owed service network target request
  | sent {message : Message Node Req} :
      message ∈ network.inFlight →
      message.target = target →
      message.request = request →
      Owed service network target request
  | delivered {index : Nat} {execution : Execution Node Store Req Resp Err} :
      network.executions[index]? = some execution →
      execution.node = target →
      execution.request = request →
      execution.phase = .running (service.handler target request) →
      Owed service network target request

/-- One step without loss: the request stays owed, or its handler makes its first
move. -/
theorem Service.Owed.step {target : Node} {request : Req}
    (owed : service.Owed network target request)
    (moves : service.Moves network label next)
    (kept : ∀ position, label ≠ .lose position) :
    service.Owed next target request ∨
      ∃ index execution,
        label = .step index ∧
          network.executions[index]? = some execution ∧
          execution.node = target ∧
          execution.request = request ∧
          execution.phase = .running (service.handler target request) := by
  cases owed with
  | unsent found phase member =>
      rename_i index sender requests further
      rcases moves.running_or_steps found phase with
        ⟨later, foundLater, _, _, phaseLater⟩ | steps
      · exact Or.inl (.unsent foundLater phaseLater member)
      · subst steps
        -- The step of the sender is the sending.
        have onlyMove : next = network.send index sender requests further :=
          moves.eq_send found phase
        obtain ⟨message, inBatch, sameTarget, sameRequest⟩ :=
          Network.mem_batch_of_mem index sender.round sender.requests.length
            member
        have inFlight : message ∈ next.inFlight := by
          rw [onlyMove]
          exact List.mem_append_right _ inBatch
        exact Or.inl (.sent inFlight sameTarget sameRequest)
  | sent member sameTarget sameRequest =>
      subst sameTarget
      subst sameRequest
      rcases moves.inFlight_cases kept member with
        still | ⟨index, execution, found, sameNode, sameRequest, phase⟩
      · exact Or.inl (.sent still rfl rfl)
      · exact Or.inl (.delivered found sameNode sameRequest phase)
  | delivered found sameNode sameRequest phase =>
      rename_i index execution
      rcases moves.running_or_steps found phase with
        ⟨later, foundLater, laterNode, laterRequest, phaseLater⟩ | steps
      · exact Or.inl (.delivered foundLater (laterNode.trans sameNode)
          (laterRequest.trans sameRequest) phaseLater)
      · exact Or.inr
          ⟨index, execution, steps, found, sameNode, sameRequest, phase⟩

omit [DecidableEq Node] in
/-- At rest nothing is owed. -/
theorem Service.not_owed_of_quiescent (quiescent : network.Quiescent)
    (target : Node) (request : Req) :
    ¬ service.Owed network target request := by
  intro owed
  cases owed with
  | unsent found phase member =>
      obtain ⟨response, ended⟩ := quiescent.2 _ _ found
      rw [phase] at ended
      cases ended
  | sent member sameTarget sameRequest =>
      rw [quiescent.1] at member
      cases member
  | delivered found sameNode sameRequest phase =>
      obtain ⟨response, ended⟩ := quiescent.2 _ _ found
      rw [phase] at ended
      cases ended

end

end HautePerformance.Library.Rpc
