import HautePerformance.Library.Transition
import Mathlib.Logic.Function.Basic
import Mathlib.Data.List.Basic

/-!
# Handlers that call each other over a network

A handler serves one request on one node.  It is a tree of atomic actions on the
node's own store, of calls to other nodes that it spawns without waiting, and of
joins, where it waits until each call spawned since the last join has been
answered or has failed.

The network semantics lets any number of handler executions proceed in any
order.  A request message may be delivered at any later time or be lost, and a
call may fail at any time without its message being withdrawn: the request may
still be served after its caller has given up.  The response to it is then left on
the connection between the two nodes, and a later call on that connection may take
it for its own.
-/

namespace HautePerformance.Library.Rpc

/-- A handler program.  After an atomic action the program continues with the
store as it was before the action; after a join it continues with the outcomes of
the calls, in the order in which they were spawned. -/
inductive Prog (Node Store Req Resp Err : Type) (Result : Type) : Type
  | done (result : Result)
  | atomic (act : Store → Store)
      (next : Store → Prog Node Store Req Resp Err Result)
  | spawn (requests : List (Node × Req))
      (next : Prog Node Store Req Resp Err Result)
  | join (next : List (Except Err Resp) → Prog Node Store Req Resp Err Result)

namespace Prog

variable {Node Store Req Resp Err Result Mapped : Type}

/-- Post-process the result of a program. -/
def map (f : Result → Mapped) :
    Prog Node Store Req Resp Err Result → Prog Node Store Req Resp Err Mapped
  | .done result => .done (f result)
  | .atomic act next => .atomic act fun store => map f (next store)
  | .spawn requests next => .spawn requests (map f next)
  | .join next => .join fun outcomes => map f (next outcomes)

/-- Call one node and wait for the outcome.  The join yields exactly one outcome;
`missing` is never used. -/
def call (target : Node) (request : Req) (missing : Except Err Resp)
    (next : Except Err Resp → Prog Node Store Req Resp Err Result) :
    Prog Node Store Req Resp Err Result :=
  .spawn [(target, request)] (.join fun outcomes => next (outcomes.headD missing))

@[simp]
theorem map_join (f : Result → Mapped)
    (next : List (Except Err Resp) → Prog Node Store Req Resp Err Result) :
    map f (.join next) = .join fun outcomes => map f (next outcomes) :=
  rfl

end Prog

/-- The call number `slot` of the round `round` of a handler execution; a round
ends with a join. -/
structure CallId where
  execution : Nat
  round : Nat
  slot : Nat
  deriving DecidableEq, Repr

/-- A request on its way to a node. -/
structure Message (Node Req : Type) where
  caller : CallId
  target : Node
  request : Req

/-- A response that came after its caller had given up: it stays on the connection
of the caller's node to the node that served the request. -/
structure Unread (Node Resp : Type) where
  reader : Node
  source : Node
  response : Resp

/-- Where a handler execution stands. -/
inductive Phase (Node Store Req Resp Err : Type) : Type
  | running (prog : Prog Node Store Req Resp Err Resp)
  | finished (response : Resp)

/-- One execution of a handler.  `root` is the client request on whose behalf it
runs: the index of the execution that has no caller.  `requests` are the calls
spawned in the current round and `results` their outcomes so far. -/
structure Execution (Node Store Req Resp Err : Type) where
  node : Node
  request : Req
  caller : Option CallId
  root : Nat
  round : Nat
  requests : List (Node × Req)
  results : List (Option (Except Err Resp))
  phase : Phase Node Store Req Resp Err

namespace Execution

variable {Node Store Req Resp Err : Type}

/-- The next move is an atomic action. -/
def isActing (execution : Execution Node Store Req Resp Err) : Bool :=
  match execution.phase with
  | .running (.atomic _ _) => true
  | _ => false

/-- The response, once there is one. -/
def response? (execution : Execution Node Store Req Resp Err) : Option Resp :=
  match execution.phase with
  | .running _ => none
  | .finished response => some response

theorem isActing_of_phase {execution : Execution Node Store Req Resp Err}
    {act : Store → Store} {next : Store → Prog Node Store Req Resp Err Resp}
    (phase : execution.phase = .running (.atomic act next)) :
    execution.isActing = true := by
  simp [isActing, phase]

theorem not_isActing_of_phase {execution : Execution Node Store Req Resp Err}
    (past : ∀ act next, execution.phase ≠ .running (.atomic act next)) :
    execution.isActing = false := by
  unfold isActing
  split
  · rename_i act next phase
    exact (past act next phase).elim
  · rfl

theorem exists_phase_of_isActing
    {execution : Execution Node Store Req Resp Err}
    (acting : execution.isActing = true) :
    ∃ act next, execution.phase = .running (.atomic act next) := by
  unfold isActing at acting
  split at acting
  · rename_i act next phase
    exact ⟨act, next, phase⟩
  · cases acting

theorem phase_of_response? {execution : Execution Node Store Req Resp Err}
    {response : Resp} (ended : execution.response? = some response) :
    execution.phase = .finished response := by
  unfold response? at ended
  split at ended
  · cases ended
  · rename_i given phase
    cases ended
    exact phase

end Execution

/-- The nodes' stores, all executions begun so far, the requests in flight and the
responses that nobody waits for any more. -/
structure Network (Node Store Req Resp Err : Type) where
  stores : Node → Store
  executions : List (Execution Node Store Req Resp Err)
  inFlight : List (Message Node Req)
  unread : List (Unread Node Resp)

/-- A pending call and the response, to the request of an earlier call, that it
finds on its connection. -/
structure Misreading (Node Store Req Resp Err : Type) where
  caller : Execution Node Store Req Resp Err
  target : Node
  request : Req
  response : Resp

/-- All nondeterminism of the network. -/
inductive Label (Node Req Err Event : Type) : Type
  | issue (node : Node) (request : Req)
  | step (execution : Nat)
  | deliver (position : Nat)
  | lose (position : Nat)
  | fail (call : CallId) (error : Err)
  | misread (call : CallId) (position : Nat)
  | env (node : Node) (event : Event)
  deriving DecidableEq, Repr

/-- What runs on the nodes: the handlers, the events of a node's environment
(its clock, its background tasks) and the stores at start-up. -/
structure Service (Node Store Req Resp Err Event : Type) where
  handler : Node → Req → Prog Node Store Req Resp Err Resp
  environment : Event → Store → Store
  boot : Node → Store

/-- The list of the values, when every slot is filled. -/
def gather {α : Type} : List (Option α) → Option (List α)
  | [] => some []
  | none :: _ => none
  | some value :: rest => (gather rest).map (value :: ·)

theorem gather_eq_some {α : Type} :
    ∀ {slots : List (Option α)} {values : List α},
      gather slots = some values → slots = values.map some
  | [], values, gathered => by
      simp only [gather, Option.some.injEq] at gathered
      simp [← gathered]
  | none :: rest, values, gathered => by
      simp [gather] at gathered
  | some value :: rest, values, gathered => by
      simp only [gather, Option.map_eq_some_iff] at gathered
      obtain ⟨tail, gatheredTail, shape⟩ := gathered
      rw [← shape, gather_eq_some gatheredTail]
      rfl

/-- The outcome of a single call, when it is a response. -/
theorem first_of_headD_ok {Resp Err : Type}
    {outcomes : List (Except Err Resp)} {error : Err} {response : Resp}
    (isOk : outcomes.headD (.error error) = .ok response) :
    outcomes[0]? = some (.ok response) := by
  cases outcomes with
  | nil => simp at isOk
  | cons outcome rest =>
      simp only [List.headD_cons] at isOk
      simp [isOk]

/-- The slot exists and has no result yet. -/
def isOpen {α : Type} (slots : List (Option α)) (slot : Nat) : Bool :=
  match slots[slot]? with
  | some none => true
  | _ => false

namespace Network

variable {Node Store Req Resp Err Event : Type} [DecidableEq Node]

/-- The execution that the label lets perform an atomic action. -/
def acting? (network : Network Node Store Req Resp Err) :
    Label Node Req Err Event → Option (Execution Node Store Req Resp Err)
  | .step index => (network.executions[index]?).filter Execution.isActing
  | _ => none

/-- Replace one execution. -/
def setExecution (network : Network Node Store Req Resp Err) (index : Nat)
    (execution : Execution Node Store Req Resp Err) :
    Network Node Store Req Resp Err :=
  { network with executions := network.executions.set index execution }

/-- Begin one more execution. -/
def spawn (network : Network Node Store Req Resp Err)
    (execution : Execution Node Store Req Resp Err) :
    Network Node Store Req Resp Err :=
  { network with executions := network.executions ++ [execution] }

/-- An atomic action on the store of the execution's node. -/
def perform (network : Network Node Store Req Resp Err) (index : Nat)
    (execution : Execution Node Store Req Resp Err) (act : Store → Store)
    (next : Store → Prog Node Store Req Resp Err Resp) :
    Network Node Store Req Resp Err :=
  { network.setExecution index
      { execution with
        phase := .running (next (network.stores execution.node)) } with
    stores :=
      Function.update network.stores execution.node
        (act (network.stores execution.node)) }

/-- The messages of calls that take the slots from `slot` on. -/
def batch (index round slot : Nat) (requests : List (Node × Req)) :
    List (Message Node Req) :=
  (requests.zipIdx slot).map fun entry =>
    { caller := ⟨index, round, entry.2⟩
      target := entry.1.1
      request := entry.1.2 }

/-- Spawn calls and go on. -/
def send (network : Network Node Store Req Resp Err) (index : Nat)
    (execution : Execution Node Store Req Resp Err)
    (requests : List (Node × Req))
    (next : Prog Node Store Req Resp Err Resp) :
    Network Node Store Req Resp Err :=
  { network.setExecution index
      { execution with
        requests := execution.requests ++ requests
        results := execution.results ++ List.replicate requests.length none
        phase := .running next } with
    inFlight :=
      network.inFlight ++
        batch index execution.round execution.requests.length requests }

/-- Go on with the outcomes of all the calls of the round. -/
def resume (network : Network Node Store Req Resp Err) (index : Nat)
    (execution : Execution Node Store Req Resp Err)
    (next : List (Except Err Resp) → Prog Node Store Req Resp Err Resp)
    (outcomes : List (Except Err Resp)) : Network Node Store Req Resp Err :=
  network.setExecution index
    { execution with
      round := execution.round + 1
      requests := []
      results := []
      phase := .running (next outcomes) }

/-- The call has no outcome yet and its round goes on. -/
def isPending (network : Network Node Store Req Resp Err) (call : CallId) :
    Bool :=
  match network.executions[call.execution]? with
  | some caller =>
      caller.round == call.round && isOpen caller.results call.slot
  | none => false

/-- Give a call its outcome; a call that is not pending ignores it. -/
def settle (network : Network Node Store Req Resp Err) (call : CallId)
    (result : Except Err Resp) : Network Node Store Req Resp Err :=
  match network.executions[call.execution]? with
  | some caller =>
      if caller.round == call.round && isOpen caller.results call.slot then
        network.setExecution call.execution
          { caller with results := caller.results.set call.slot (some result) }
      else network
  | none => network

/-- What a response leaves on the connection of its call: nothing, when the call is
still pending. -/
def leftover (network : Network Node Store Req Resp Err) (call : CallId)
    (source : Node) (response : Resp) : List (Unread Node Resp) :=
  match network.executions[call.execution]? with
  | some caller =>
      if network.isPending call then [] else [⟨caller.node, source, response⟩]
  | none => []

/-- End an execution and hand its response to the caller, if it has one; a caller
that has given up does not read it. -/
def answer (network : Network Node Store Req Resp Err) (index : Nat)
    (execution : Execution Node Store Req Resp Err) (response : Resp) :
    Network Node Store Req Resp Err :=
  let ended :=
    network.setExecution index { execution with phase := .finished response }
  match execution.caller with
  | some call =>
      { ended.settle call (.ok response) with
        unread :=
          network.unread ++ ended.leftover call execution.node response }
  | none => ended

/-- What a pending call finds at a position among the unread responses, when it is
one of its own connection. -/
def misreading? (network : Network Node Store Req Resp Err) (call : CallId)
    (position : Nat) : Option (Misreading Node Store Req Resp Err) :=
  match network.executions[call.execution]?, network.unread[position]? with
  | some caller, some left =>
      match caller.requests[call.slot]? with
      | some (target, request) =>
          if network.isPending call = true ∧ left.reader = caller.node ∧
              left.source = target then
            some ⟨caller, target, request, left.response⟩
          else none
      | none => none
  | _, _ => none

/-- What the label lets a call take for the response to its request. -/
def misreads? (network : Network Node Store Req Resp Err) :
    Label Node Req Err Event → Option (Misreading Node Store Req Resp Err)
  | .misread call position => network.misreading? call position
  | _ => none

/-- A call takes the unread response at a position for its own. -/
def take (network : Network Node Store Req Resp Err) (call : CallId)
    (position : Nat) (response : Resp) : Network Node Store Req Resp Err :=
  { network.settle call (.ok response) with
    unread := network.unread.eraseIdx position }

/-- Take the message at a position out of the network. -/
def withdraw (network : Network Node Store Req Resp Err) (position : Nat) :
    Network Node Store Req Resp Err :=
  { network with inFlight := network.inFlight.eraseIdx position }

end Network

namespace Service

variable {Node Store Req Resp Err Event : Type} [DecidableEq Node]
variable (service : Service Node Store Req Resp Err Event)

/-- The execution begun by a client request. -/
def clientExecution (index : Nat) (node : Node) (request : Req) :
    Execution Node Store Req Resp Err :=
  { node := node
    request := request
    caller := none
    root := index
    round := 0
    requests := []
    results := []
    phase := .running (service.handler node request) }

/-- The execution begun by a delivered message. -/
def servedExecution (root : Nat) (message : Message Node Req) :
    Execution Node Store Req Resp Err :=
  { node := message.target
    request := message.request
    caller := some message.caller
    root := root
    round := 0
    requests := []
    results := []
    phase := .running (service.handler message.target message.request) }

/-- One move of an execution. -/
def advance (network : Network Node Store Req Resp Err) (index : Nat) :
    Option (Network Node Store Req Resp Err) :=
  match network.executions[index]? with
  | none => none
  | some execution =>
      match execution.phase with
      | .running (.done response) =>
          some (network.answer index execution response)
      | .running (.atomic act next) =>
          some (network.perform index execution act next)
      | .running (.spawn requests next) =>
          some (network.send index execution requests next)
      | .running (.join next) =>
          (gather execution.results).map
            (network.resume index execution next)
      | .finished _ => none

/-- The executable semantics of the network. -/
def exec (network : Network Node Store Req Resp Err) :
    Label Node Req Err Event → Option (Network Node Store Req Resp Err)
  | .issue node request =>
      some (network.spawn
        (service.clientExecution network.executions.length node request))
  | .step index => advance network index
  | .deliver position =>
      match network.inFlight[position]? with
      | none => none
      | some message =>
          (network.executions[message.caller.execution]?).map fun caller =>
            (network.withdraw position).spawn
              (service.servedExecution caller.root message)
  | .lose position =>
      if position < network.inFlight.length then
        some (network.withdraw position)
      else none
  | .fail call error =>
      if network.isPending call then
        some (network.settle call (.error error))
      else none
  | .misread call position =>
      (network.misreading? call position).map fun misreading =>
        network.take call position misreading.response
  | .env node event =>
      some { network with
        stores :=
          Function.update network.stores node
            (service.environment event (network.stores node)) }

/-- The network at start-up. -/
def initial : Network Node Store Req Resp Err :=
  { stores := service.boot, executions := [], inFlight := [], unread := [] }

/-- The transition system of a service. -/
def system :
    System (Network Node Store Req Resp Err) (Label Node Req Err Event) where
  init network := network = service.initial
  exec := service.exec

/-! ## What one step can do -/

/-- The moves of the network, one constructor for each kind of move, with
everything its guard checks. -/
inductive Moves :
    Network Node Store Req Resp Err →
    Label Node Req Err Event →
    Network Node Store Req Resp Err → Prop
  | issue {network} (node : Node) (request : Req) :
      Moves network (.issue node request)
        (network.spawn
          (service.clientExecution network.executions.length node request))
  | perform {network index execution act next} :
      network.executions[index]? = some execution →
      execution.phase = .running (.atomic act next) →
      Moves network (.step index) (network.perform index execution act next)
  | send {network index execution requests next} :
      network.executions[index]? = some execution →
      execution.phase = .running (.spawn requests next) →
      Moves network (.step index) (network.send index execution requests next)
  | resume {network index execution next outcomes} :
      network.executions[index]? = some execution →
      execution.phase = .running (.join next) →
      execution.results = outcomes.map some →
      Moves network (.step index)
        (network.resume index execution next outcomes)
  | answer {network index execution response} :
      network.executions[index]? = some execution →
      execution.phase = .running (.done response) →
      Moves network (.step index) (network.answer index execution response)
  | deliver {network position message caller} :
      network.inFlight[position]? = some message →
      network.executions[message.caller.execution]? = some caller →
      Moves network (.deliver position)
        ((network.withdraw position).spawn
          (service.servedExecution caller.root message))
  | lose {network position} :
      position < network.inFlight.length →
      Moves network (.lose position) (network.withdraw position)
  | fail {network call} (error : Err) :
      network.isPending call = true →
      Moves network (.fail call error) (network.settle call (.error error))
  | misread {network call position misreading} :
      network.misreading? call position = some misreading →
      Moves network (.misread call position)
        (network.take call position misreading.response)
  | env {network} (node : Node) (event : Event) :
      Moves network (.env node event)
        { network with
          stores :=
            Function.update network.stores node
              (service.environment event (network.stores node)) }

variable {service}

theorem moves_of_advance {network target : Network Node Store Req Resp Err}
    {index : Nat} (executed : advance network index = some target) :
    service.Moves network (.step index) target := by
  unfold advance at executed
  split at executed
  · cases executed
  · rename_i execution found
    split at executed
    · rename_i response phase
      cases executed
      exact Moves.answer found phase
    · rename_i act next phase
      cases executed
      exact Moves.perform found phase
    · rename_i requests next phase
      cases executed
      exact Moves.send found phase
    · rename_i next phase
      simp only [Option.map_eq_some_iff] at executed
      obtain ⟨outcomes, gathered, shape⟩ := executed
      exact shape ▸ Moves.resume found phase (gather_eq_some gathered)
    · cases executed

/-- Inversion of the executable step function. -/
theorem moves_of_exec {network target : Network Node Store Req Resp Err}
    {label : Label Node Req Err Event}
    (executed : service.exec network label = some target) :
    service.Moves network label target := by
  cases label with
  | issue node request =>
      simp only [exec, Option.some.injEq] at executed
      exact executed ▸ Moves.issue node request
  | step index =>
      exact moves_of_advance executed
  | deliver position =>
      simp only [exec] at executed
      split at executed
      · cases executed
      · rename_i message found
        simp only [Option.map_eq_some_iff] at executed
        obtain ⟨caller, callerFound, shape⟩ := executed
        exact shape ▸ Moves.deliver found callerFound
  | lose position =>
      simp only [exec] at executed
      split at executed
      · rename_i inRange
        cases executed
        exact Moves.lose inRange
      · cases executed
  | fail call error =>
      simp only [exec] at executed
      split at executed
      · rename_i pending
        cases executed
        exact Moves.fail error pending
      · cases executed
  | misread call position =>
      simp only [exec, Option.map_eq_some_iff] at executed
      obtain ⟨misreading, finds, shape⟩ := executed
      exact shape ▸ Moves.misread finds
  | env node event =>
      simp only [exec, Option.some.injEq] at executed
      exact executed ▸ Moves.env node event

end Service

end HautePerformance.Library.Rpc
