import Mathlib.Algebra.BigOperators.Group.Finset.Piecewise
import Mathlib.Algebra.GroupWithZero.Nat
import Mathlib.Algebra.Order.BigOperators.Group.List
import Mathlib.Algebra.Order.Group.Nat
import Mathlib.Data.List.Perm.Basic
import HautePerformance.Library.RpcTyping

/-!
# What one client request can cost

A tally gives each atomic action and each sent request a cost.  The costs of the
moves that are made on behalf of one client request add up along a run, over all
nodes and all executions, in whatever order they are interleaved.

The bound is found handler by handler.  A request has a price, and the handler
affords it: whatever the stores and the outcomes that it meets, the price covers
its own moves and the prices of the requests that it sends.  The rule
`Tally.spent_le` says that a client request then never costs more than its price.
-/

namespace HautePerformance.Library.Rpc

variable {Node Store Req Resp Err Event : Type}

/-- The cost of an atomic action while a request is served, and of sending a
request while another is served. -/
structure Tally (Req : Type) where
  act : Req → Nat
  send : Req → Req → Nat

/-- The cost of the next move of an execution. -/
def Execution.cost (tally : Tally Req)
    (execution : Execution Node Store Req Resp Err) : Nat :=
  match execution.phase with
  | .running (.atomic _ _) => tally.act execution.request
  | .running (.spawn requests _) =>
      (requests.map fun sent => tally.send execution.request sent.2).sum
  | _ => 0

/-- The cost of a step for a client request. -/
def Network.cost (network : Network Node Store Req Resp Err) (tally : Tally Req)
    (root : Nat) : Label Node Req Err Event → Nat
  | .step index =>
      match network.executions[index]? with
      | some execution =>
          if execution.root = root then execution.cost tally else 0
      | none => 0
  | _ => 0

/-- The cost of a run for a client request. -/
def Tally.spent (tally : Tally Req) (root : Nat)
    (world : NetworkWorld Node Store Req Resp Err Event) : Nat :=
  (world.trace.map fun step => step.1.cost tally root step.2).sum

theorem Tally.spent_push (tally : Tally Req) (root : Nat)
    (world : NetworkWorld Node Store Req Resp Err Event)
    (label : Label Node Req Err Event)
    (target : Network Node Store Req Resp Err) :
    tally.spent root (world.push label target) =
      world.state.cost tally root label + tally.spent root world := by
  simp [spent, World.push]

theorem Network.cost_of_other (tally : Tally Req) {root index : Nat}
    {network : Network Node Store Req Resp Err}
    {execution : Execution Node Store Req Resp Err}
    (found : network.executions[index]? = some execution)
    (other : execution.root ≠ root) :
    network.cost tally root
      (.step index : Label Node Req Err Event) = 0 := by
  simp [cost, found, other]

theorem Network.cost_of_root (tally : Tally Req) {index : Nat}
    {network : Network Node Store Req Resp Err}
    {execution : Execution Node Store Req Resp Err}
    (found : network.executions[index]? = some execution) :
    network.cost tally execution.root
      (.step index : Label Node Req Err Event) = execution.cost tally := by
  simp [cost, found]

/-! ## Programs that stay within a budget -/

section

variable {Result Mapped : Type}

/-- Whatever the program meets while it serves the request, its own moves and the
prices of the requests that it sends stay within the budget. -/
def Prog.Affords (tally : Tally Req) (fits : Node → Req → Prop)
    (price : Node → Req → Nat) (serving : Req) :
    Nat → Prog Node Store Req Resp Err Result → Prop
  | _, .done _ => True
  | budget, .atomic _ next =>
      ∃ rest,
        tally.act serving + rest ≤ budget ∧
          ∀ store, Affords tally fits price serving rest (next store)
  | budget, .spawn requests next =>
      ∃ rest,
        (requests.map fun sent => tally.send serving sent.2).sum +
            (requests.map fun sent => price sent.1 sent.2).sum + rest ≤
          budget ∧
        (∀ target called, (target, called) ∈ requests → fits target called) ∧
        Affords tally fits price serving rest next
  | budget, .join next =>
      ∀ outcomes, Affords tally fits price serving budget (next outcomes)

theorem Prog.Affords.map {tally : Tally Req} {fits : Node → Req → Prop}
    {price : Node → Req → Nat} {serving : Req} (f : Result → Mapped)
    {prog : Prog Node Store Req Resp Err Result} :
    ∀ {budget : Nat},
      prog.Affords tally fits price serving budget →
      (prog.map f).Affords tally fits price serving budget := by
  induction prog with
  | done result => exact fun _ => trivial
  | atomic act next inductionHypothesis =>
      rintro budget ⟨rest, enough, further⟩
      exact ⟨rest, enough, fun store => inductionHypothesis store (further store)⟩
  | spawn requests next inductionHypothesis =>
      rintro budget ⟨rest, enough, fit, further⟩
      exact ⟨rest, enough, fit, inductionHypothesis further⟩
  | join next inductionHypothesis =>
      intro budget affords outcomes
      exact inductionHypothesis outcomes (affords outcomes)

end

/-! ## The accounts of a client request -/

/-- The message was sent on behalf of the client request. -/
def Network.concerns (network : Network Node Store Req Resp Err) (root : Nat)
    (message : Message Node Req) : Bool :=
  (network.executions[message.caller.execution]?).any (·.root == root)

/-- The price of a message, for the client request behind it. -/
def Network.due (network : Network Node Store Req Resp Err)
    (price : Node → Req → Nat) (root : Nat) (message : Message Node Req) : Nat :=
  if network.concerns root message then price message.target message.request
  else 0

/-- The prices of all messages in flight. -/
def Network.owed (network : Network Node Store Req Resp Err)
    (price : Node → Req → Nat) (root : Nat) : Nat :=
  (network.inFlight.map (network.due price root)).sum

theorem Network.concerns_iff {network : Network Node Store Req Resp Err}
    {root : Nat} {message : Message Node Req}
    {caller : Execution Node Store Req Resp Err}
    (found : network.executions[message.caller.execution]? = some caller) :
    network.concerns root message = true ↔ caller.root = root := by
  simp [concerns, found]

/-- Who sent a message does not change. -/
theorem Network.Persists.due_eq {network target : Network Node Store Req Resp Err}
    (persists : network.Persists target) (price : Node → Req → Nat) (root : Nat)
    {message : Message Node Req} {caller : Execution Node Store Req Resp Err}
    (found : network.executions[message.caller.execution]? = some caller) :
    target.due price root message = network.due price root message := by
  obtain ⟨later, foundLater, evolves⟩ := persists _ caller found
  have sameRoot : later.root = caller.root := evolves.root
  simp [due, concerns, found, foundLater, sameRoot]

/-- Every running execution of the client request has a budget that its program
affords, every message in flight fits, and what has been spent, the budgets and
the prices of the messages stay within the limit.  Before the request is issued
the whole limit is reserved. -/
structure Tally.Accounts (tally : Tally Req) (fits : Node → Req → Prop)
    (price : Node → Req → Nat) (root limit : Nat) (budget : Nat → Nat)
    (world : NetworkWorld Node Store Req Resp Err Event) : Prop where
  funded : ∀ {index : Nat} {execution : Execution Node Store Req Resp Err}
    {prog : Prog Node Store Req Resp Err Resp},
    world.state.executions[index]? = some execution →
    execution.root = root →
    execution.phase = .running prog →
    prog.Affords tally fits price execution.request (budget index)
  message : ∀ {message : Message Node Req},
    message ∈ world.state.inFlight →
    ∃ caller,
      world.state.executions[message.caller.execution]? = some caller ∧
        (caller.root = root → fits message.target message.request)
  balance :
    tally.spent root world +
        ∑ index ∈ Finset.range world.state.executions.length, budget index +
        world.state.owed price root +
        (if world.state.executions.length ≤ root then limit else 0) ≤
      limit

/-! ## One step -/

/-- Change one of the budgets. -/
theorem sum_update_add (budget : Nat → Nat) {length index : Nat}
    (inRange : index < length) (amount : Nat) :
    (∑ i ∈ Finset.range length, Function.update budget index amount i) +
        budget index =
      (∑ i ∈ Finset.range length, budget i) + amount := by
  have member : index ∈ Finset.range length := Finset.mem_range.mpr inRange
  have changed := Finset.sum_update_of_mem member budget amount
  have unchanged := Finset.sum_eq_add_sum_sdiff_singleton_of_mem member budget
  omega

/-- Add one more budget. -/
theorem sum_update_succ (budget : Nat → Nat) (length amount : Nat) :
    ∑ i ∈ Finset.range (length + 1), Function.update budget length amount i =
      (∑ i ∈ Finset.range length, budget i) + amount := by
  have outside : length ∉ Finset.range length := by simp
  rw [Finset.sum_range_succ, Finset.sum_update_of_notMem outside,
    Function.update_self]

/-- The prices of the messages of one round. -/
theorem due_batch (price : Node → Req → Nat) (root : Nat)
    {network : Network Node Store Req Resp Err} {index : Nat}
    {mover : Execution Node Store Req Resp Err}
    (found : network.executions[index]? = some mover)
    (round slot : Nat) (requests : List (Node × Req)) :
    ((Network.batch index round slot requests).map
        (network.due price root)).sum =
      if mover.root = root then
        (requests.map fun sent => price sent.1 sent.2).sum
      else 0 := by
  have each (entry : (Node × Req) × Nat) :
      network.due price root
          { caller := ⟨index, round, entry.2⟩
            target := entry.1.1
            request := entry.1.2 } =
        if mover.root = root then price entry.1.1 entry.1.2 else 0 := by
    simp [Network.due, Network.concerns, found]
  have listed :
      (requests.zipIdx slot).map (fun entry => price entry.1.1 entry.1.2) =
        requests.map fun sent => price sent.1 sent.2 := by
    have firsts := List.zipIdx_map_fst slot requests
    conv_rhs => rw [← firsts, List.map_map]
    rfl
  by_cases isRoot : mover.root = root
  · simp [Network.batch, Function.comp_def, each, isRoot, listed]
  · simp [Network.batch, Function.comp_def, each, isRoot]

/-- Without the message at a position less is owed. -/
theorem owed_withdraw (price : Node → Req → Nat) (root : Nat)
    {network : Network Node Store Req Resp Err} {position : Nat}
    {message : Message Node Req}
    (taken : network.inFlight[position]? = some message) :
    network.due price root message +
        ((network.withdraw position).inFlight.map
          (network.due price root)).sum =
      network.owed price root := by
  obtain ⟨inRange, here⟩ := List.getElem?_eq_some_iff.mp taken
  have permuted :=
    (List.getElem_cons_eraseIdx_perm inRange).map (network.due price root)
  rw [here] at permuted
  exact permuted.sum_eq

namespace Tally.Accounts

variable {tally : Tally Req} {fits : Node → Req → Prop}
variable {price : Node → Req → Nat} {root : Nat}
variable {limit : Nat} {budget : Nat → Nat}
variable {source : NetworkWorld Node Store Req Resp Err Event}
variable {next : Network Node Store Req Resp Err}
variable {label : Label Node Req Err Event}

/-- What is owed for the messages that stay is what was owed for them. -/
theorem owed_eq (accounts : tally.Accounts fits price root limit budget source)
    (persists : source.state.Persists next)
    {messages : List (Message Node Req)}
    (old : ∀ message, message ∈ messages → message ∈ source.state.inFlight) :
    (messages.map (next.due price root)).sum =
      (messages.map (source.state.due price root)).sum := by
  refine congrArg List.sum (List.map_congr_left fun message member => ?_)
  obtain ⟨caller, found, _⟩ := accounts.message (old message member)
  exact persists.due_eq price root found

/-- Messages that stay still fit. -/
theorem message_of_old
    (accounts : tally.Accounts fits price root limit budget source)
    (persists : source.state.Persists next) {message : Message Node Req}
    (old : message ∈ source.state.inFlight) :
    ∃ caller,
      next.executions[message.caller.execution]? = some caller ∧
        (caller.root = root → fits message.target message.request) := by
  obtain ⟨caller, found, fit⟩ := accounts.message old
  obtain ⟨later, foundLater, evolves⟩ := persists _ caller found
  exact ⟨later, foundLater, fun sameRoot => fit (evolves.root.symm.trans sameRoot)⟩

/-- A free step that neither begins an execution nor moves a running program. -/
theorem idle (accounts : tally.Accounts fits price root limit budget source)
    (persists : source.state.Persists next)
    (free : source.state.cost tally root label = 0)
    (sameLength : next.executions.length = source.state.executions.length)
    (stays : next.inFlight.Sublist source.state.inFlight)
    (funded : ∀ {index : Nat} {execution : Execution Node Store Req Resp Err}
      {prog : Prog Node Store Req Resp Err Resp},
      next.executions[index]? = some execution →
      execution.phase = .running prog →
      ∃ old,
        source.state.executions[index]? = some old ∧
          old.root = execution.root ∧
          old.request = execution.request ∧
          old.phase = .running prog) :
    tally.Accounts fits price root limit budget (source.push label next) where
  funded := by
    intro index execution prog found sameRoot phase
    obtain ⟨old, oldFound, oldRoot, oldRequest, oldPhase⟩ := funded found phase
    rw [← oldRequest]
    exact accounts.funded oldFound (oldRoot.trans sameRoot) oldPhase
  message := fun member =>
    accounts.message_of_old persists (stays.subset member)
  balance := by
    have before := accounts.balance
    have owed : next.owed price root ≤ source.state.owed price root := by
      unfold Network.owed
      rw [accounts.owed_eq persists fun message member => stays.subset member]
      exact (stays.map _).sum_le_sum fun _ _ => Nat.zero_le _
    rw [Tally.spent_push, free, World.push_state, sameLength]
    omega

/-- An execution moves: its budget pays for the move, for the messages that it
sends and for the rest of its program. -/
theorem moved (accounts : tally.Accounts fits price root limit budget source)
    {index : Nat} {mover replacement : Execution Node Store Req Resp Err}
    {sent : List (Message Node Req)} (rest : Nat)
    (found : source.state.executions[index]? = some mover)
    (persists : source.state.Persists next)
    (shape :
      next.executions = (source.state.setExecution index replacement).executions)
    (sameRoot : replacement.root = mover.root)
    (inFlight : next.inFlight = source.state.inFlight ++ sent)
    (fit : ∀ message, message ∈ sent →
      message.caller.execution = index ∧
        (mover.root = root → fits message.target message.request))
    (pays :
      source.state.cost tally root label +
          (sent.map (next.due price root)).sum + rest ≤
        budget index)
    (funded : ∀ {prog : Prog Node Store Req Resp Err Resp},
      mover.root = root →
      replacement.phase = .running prog →
      prog.Affords tally fits price replacement.request rest) :
    tally.Accounts fits price root limit (Function.update budget index rest)
      (source.push label next) where
  funded := by
    intro other execution prog foundOther isRoot phase
    rw [World.push_state, shape] at foundOther
    rcases Network.setExecution_cases foundOther with ⟨same, replaced⟩ | ⟨ne, old⟩
    · subst same replaced
      rw [Function.update_self]
      exact funded (sameRoot.symm.trans isRoot) phase
    · rw [Function.update_of_ne ne]
      exact accounts.funded old isRoot phase
  message := by
    intro message member
    rw [World.push_state, inFlight] at member
    rcases List.mem_append.mp member with old | new
    · exact accounts.message_of_old persists old
    · obtain ⟨callerIs, fitsNow⟩ := fit message new
      refine ⟨replacement, ?_, fun isRoot => fitsNow (sameRoot.symm.trans isRoot)⟩
      rw [World.push_state, shape, callerIs]
      exact Network.setExecution_self found
  balance := by
    have before := accounts.balance
    have inRange : index < source.state.executions.length :=
      (List.getElem?_eq_some_iff.mp found).1
    have sameLength :
        next.executions.length = source.state.executions.length := by
      rw [shape]
      simp [Network.setExecution]
    have changed := sum_update_add budget inRange rest
    have owed :
        next.owed price root =
          source.state.owed price root +
            (sent.map (next.due price root)).sum := by
      unfold Network.owed
      rw [inFlight, List.map_append, List.sum_append,
        accounts.owed_eq persists fun message member => member]
    rw [Tally.spent_push, World.push_state, sameLength, owed]
    omega

/-- An execution sends, and pays for the messages if it is on behalf of the client
request. -/
theorem send {index : Nat}
    {mover : Execution Node Store Req Resp Err} {requests : List (Node × Req)}
    {further : Prog Node Store Req Resp Err Resp}
    (accounts : tally.Accounts fits price root limit budget source)
    (persists :
      source.state.Persists (source.state.send index mover requests further))
    (found : source.state.executions[index]? = some mover)
    (phase : mover.phase = .running (.spawn requests further)) :
    ∃ later,
      tally.Accounts fits price root limit later
        (source.push (.step index : Label Node Req Err Event)
          (source.state.send index mover requests further)) := by
  have sender :
      ∃ replacement,
        (source.state.send index mover requests further).executions[index]? =
            some replacement ∧
          replacement.root = mover.root :=
    ⟨_, Network.setExecution_self found, rfl⟩
  obtain ⟨replacement, sending, sameRoot⟩ := sender
  by_cases isRoot : mover.root = root
  · subst isRoot
    obtain ⟨rest, enough, fit, affords⟩ := accounts.funded found rfl phase
    refine ⟨_, accounts.moved rest found persists rfl rfl rfl ?_ ?_ ?_⟩
    · intro message member
      obtain ⟨offset, entry, callerIs⟩ := Network.mem_batch member
      exact
        ⟨by rw [callerIs],
          fun _ => fit _ _ (List.mem_of_getElem? entry)⟩
    · rw [Network.cost_of_root tally found,
        due_batch price _ sending, if_pos sameRoot]
      simpa [Execution.cost, phase] using enough
    · intro prog _ running
      cases running
      exact affords
  · refine ⟨_, accounts.moved (budget index) found persists rfl rfl rfl ?_
      ?_ fun same => (isRoot same).elim⟩
    · intro message member
      obtain ⟨offset, entry, callerIs⟩ := Network.mem_batch member
      exact ⟨by rw [callerIs], fun same => (isRoot same).elim⟩
    · rw [Network.cost_of_other tally found isRoot,
        due_batch price _ sending, if_neg (sameRoot ▸ isRoot)]
      omega

/-- A new execution takes over what is reserved or owed for it. -/
theorem begun (accounts : tally.Accounts fits price root limit budget source)
    {added : Execution Node Store Req Resp Err} (amount : Nat)
    (free : source.state.cost tally root label = 0)
    (shape : next.executions = (source.state.spawn added).executions)
    (stays : ∀ message, message ∈ next.inFlight →
      message ∈ source.state.inFlight)
    (covered :
      (next.inFlight.map (source.state.due price root)).sum + amount +
          (if source.state.executions.length + 1 ≤ root then limit else 0) ≤
        source.state.owed price root +
          (if source.state.executions.length ≤ root then limit else 0))
    (funded : ∀ {prog : Prog Node Store Req Resp Err Resp},
      added.root = root →
      added.phase = .running prog →
      prog.Affords tally fits price added.request amount) :
    tally.Accounts fits price root limit
      (Function.update budget source.state.executions.length amount)
      (source.push label next) := by
  have persists : source.state.Persists next :=
    (Network.Persists.of_spawn added).trans (.of_executions_eq shape)
  refine { funded := ?_, message := ?_, balance := ?_ }
  · intro index execution prog found isRoot phase
    rw [World.push_state, shape] at found
    rcases Network.spawn_cases found with ⟨same, isAdded⟩ | old
    · subst same isAdded
      rw [Function.update_self]
      exact funded isRoot phase
    · have inRange := (List.getElem?_eq_some_iff.mp old).1
      rw [Function.update_of_ne (Nat.ne_of_lt inRange)]
      exact accounts.funded old isRoot phase
  · exact fun member => accounts.message_of_old persists (stays _ member)
  · have before := accounts.balance
    have longer :
        next.executions.length = source.state.executions.length + 1 := by
      rw [shape]
      simp [Network.spawn]
    have owed :
        next.owed price root =
          (next.inFlight.map (source.state.due price root)).sum :=
      accounts.owed_eq persists stays
    rw [Tally.spent_push, free, World.push_state, longer, sum_update_succ, owed]
    omega

end Tally.Accounts

/-! ## The whole run -/

section

variable [DecidableEq Node]

/-- The price of each request that fits covers its handler. -/
def Tally.Prices (tally : Tally Req)
    (service : Service Node Store Req Resp Err Event)
    (fits : Node → Req → Prop) (price : Node → Req → Nat) : Prop :=
  ∀ node request,
    fits node request →
    (service.handler node request).Affords tally fits price request
      (price node request)

variable {service : Service Node Store Req Resp Err Event}
variable {tally : Tally Req} {fits : Node → Req → Prop}
variable {price : Node → Req → Nat} {root : Nat} {node : Node} {request : Req}
variable {budget : Nat → Nat}
variable {source : NetworkWorld Node Store Req Resp Err Event}
variable {next : Network Node Store Req Resp Err}
variable {label : Label Node Req Err Event}

/-- Less is reserved once one more execution has begun. -/
theorem reserved_le (length root limit : Nat) :
    (if length + 1 ≤ root then limit else 0) ≤
      if length ≤ root then limit else 0 := by
  split_ifs <;> omega

/-- An execution acts, and pays for it if it is on behalf of the client request. -/
theorem Tally.Accounts.perform {limit index : Nat}
    {mover : Execution Node Store Req Resp Err} {act : Store → Store}
    {further : Store → Prog Node Store Req Resp Err Resp}
    (accounts : tally.Accounts fits price root limit budget source)
    (persists :
      source.state.Persists (source.state.perform index mover act further))
    (found : source.state.executions[index]? = some mover)
    (phase : mover.phase = .running (.atomic act further)) :
    ∃ later,
      tally.Accounts fits price root limit later
        (source.push (.step index : Label Node Req Err Event)
          (source.state.perform index mover act further)) := by
  by_cases isRoot : mover.root = root
  · subst isRoot
    obtain ⟨rest, enough, affords⟩ := accounts.funded found rfl phase
    refine ⟨_, accounts.moved rest found persists rfl rfl
      (List.append_nil _).symm nofun ?_ ?_⟩
    · rw [Network.cost_of_root tally found]
      simpa [Execution.cost, phase] using enough
    · intro prog _ running
      cases running
      exact affords _
  · refine ⟨_, accounts.moved (budget index) found persists rfl rfl
      (List.append_nil _).symm nofun ?_ fun same => (isRoot same).elim⟩
    simp [Network.cost_of_other tally found isRoot]

/-- The step lemma: some budgets keep the accounts of the client request. -/
theorem Tally.Accounts.push
    (accounts :
      tally.Accounts fits price root (price node request) budget source)
    (prices : tally.Prices service fits price)
    (fitting : fits node request)
    (opens : Opens root node request source.state label)
    (moves : service.Moves source.state label next) :
    ∃ later,
      tally.Accounts fits price root (price node request) later
        (source.push label next) := by
  have persists := moves.persists
  cases moves with
  | issue issuedAt issued =>
      by_cases isRoot : source.state.executions.length = root
      · have isOrigin : issuedAt = node ∧ issued = request := opens isRoot
        obtain ⟨rfl, rfl⟩ := isOrigin
        refine ⟨_, accounts.begun (price issuedAt issued) rfl rfl
          (fun _ member => member) ?_ ?_⟩
        · rw [if_neg (by omega), if_pos (by omega)]
          exact Nat.le_of_eq rfl
        · intro prog _ phase
          cases phase
          exact prices issuedAt issued fitting
      · refine ⟨_, accounts.begun 0 rfl rfl (fun _ member => member) ?_ ?_⟩
        · exact Nat.add_le_add_left (reserved_le _ _ _) _
        · intro prog same _
          exact (isRoot same).elim
  | perform found phase => exact accounts.perform persists found phase
  | send found phase => exact accounts.send persists found phase
  | @resume index mover further outcomes found phase filled =>
      have free :
          source.state.cost tally root
            (.step index : Label Node Req Err Event) = 0 := by
        simp [Network.cost, Execution.cost, found, phase]
      refine ⟨_, accounts.moved (budget index) found persists rfl rfl
        (List.append_nil _).symm nofun ?_ ?_⟩
      · simp [free]
      · intro prog isRoot running
        cases running
        exact accounts.funded found isRoot phase outcomes
  | @answer index mover response found phase =>
      have free :
          source.state.cost tally root
            (.step index : Label Node Req Err Event) = 0 := by
        simp [Network.cost, Execution.cost, found, phase]
      refine ⟨_, accounts.idle persists free (Network.answer_length _ _ _)
        (by rw [Network.answer_inFlight]) ?_⟩
      intro other execution prog foundOther running
      obtain ⟨old, results, oldFound, shape⟩ :=
        Network.answer_cases foundOther running
      rw [shape] at running ⊢
      exact ⟨old, oldFound, rfl, rfl, running⟩
  | @deliver position message caller taken callerFound =>
      have paid := owed_withdraw price root taken
      have inFlight := List.mem_of_getElem? taken
      refine ⟨_, accounts.begun (source.state.due price root message) rfl rfl
        (fun _ member => List.mem_of_mem_eraseIdx member) ?_ ?_⟩
      · rw [← paid, Nat.add_comm (source.state.due price root message)]
        exact Nat.add_le_add_left (reserved_le _ _ _) _
      · intro prog isRoot running
        cases running
        obtain ⟨other, otherFound, fit⟩ := accounts.message inFlight
        rw [callerFound] at otherFound
        cases otherFound
        have due :
            source.state.due price root message =
              price message.target message.request :=
          if_pos ((Network.concerns_iff callerFound).mpr isRoot)
        rw [due]
        exact prices message.target message.request (fit isRoot)
  | @lose position inRange =>
      exact ⟨_, accounts.idle persists rfl rfl (List.eraseIdx_sublist ..)
        fun found phase => ⟨_, found, rfl, rfl, phase⟩⟩
  | @fail call error pending =>
      refine ⟨_, accounts.idle persists rfl (Network.settle_length _ _)
        (by rw [Network.settle_inFlight]) ?_⟩
      intro other execution prog foundOther running
      obtain ⟨old, results, oldFound, shape⟩ := Network.settle_cases foundOther
      rw [shape] at running ⊢
      exact ⟨old, oldFound, rfl, rfl, running⟩
  | @misread call position misreading finds =>
      refine ⟨_, accounts.idle persists rfl (Network.take_length _ _ _)
        (by rw [Network.take_inFlight]) ?_⟩
      intro other execution prog foundOther running
      obtain ⟨old, results, oldFound, shape⟩ := Network.settle_cases foundOther
      rw [shape] at running ⊢
      exact ⟨old, oldFound, rfl, rfl, running⟩
  | env name event =>
      exact ⟨_, accounts.idle persists rfl rfl (List.Sublist.refl _)
        fun found phase => ⟨_, found, rfl, rfl, phase⟩⟩

end

end HautePerformance.Library.Rpc
