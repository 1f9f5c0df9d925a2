import HautePerformance.Demos.BufferWakeUps
import HautePerformance.Library.MonitorResiduals

/-!
# Producers and consumers of the ring buffer

The threads of `demo_fonctionnelle` in `exo05_ringbuffer.rs`: producers push their
messages, and a refused one is a panic; consumers pop until they are told that the
buffer is closed; `main` joins the producers, closes the buffer, and joins the
consumers.  The loop of a consumer has no bound in the source.  Here it has one that
no consumer reaches: a message more than there are.
-/

namespace HautePerformance.Demos.RingBuffer

open Library

variable {T : Type} {n capacity : Nat}

inductive Role (T : Type) where
  | producer (messages : List T)
  | consumer
  | closer

/-- `b.push(v).expect(..)` for each message. -/
def produce : List T → BufferProgram T
  | [] => .done
  | v :: rest =>
      .perform (.push v) fun (result : Except BufferError Unit) =>
        match result with
        | .ok _ => produce rest
        | .error _ => .done

/-- The loop of a consumer. -/
def consume : Nat → BufferProgram T
  | 0 => .done
  | bound + 1 =>
      .perform .pop fun (result : Except BufferError T) =>
        match result with
        | .ok _ => consume bound
        | .error .closed => .done

/-- What `main` does when it has joined the producers. -/
def closing : BufferProgram T :=
  .perform .close fun _ => .done

namespace Role

def messages : Role T → List T
  | .producer messages => messages
  | .consumer => []
  | .closer => []

def isProducer : Role T → Bool
  | .producer _ => true
  | _ => false

def isCloser : Role T → Bool
  | .closer => true
  | _ => false

def program (bound : Nat) : Role T → BufferProgram T
  | .producer messages => produce messages
  | .consumer => consume bound
  | .closer => closing

end Role

/-- All the messages. -/
def messages (roles : Fin n → Role T) : Multiset T :=
  gathered fun thread => (roles thread).messages

def programs (roles : Fin n → Role T) (thread : Fin n) : BufferProgram T :=
  (roles thread).program (Multiset.card (messages roles) + 1)

def Finished : Status Condvar (@BufferResult T) → Bool
  | .awake .done => true
  | _ => false

/-- `main` closes the buffer when it has joined the producers. -/
def Joins (roles : Fin n → Role T) (pool : BufferPool T n) : MonitorLabel n → Prop
  | .enter thread =>
      (roles thread).isCloser = true →
        ∀ other, (roles other).isProducer = true → Finished (pool.status other) = true
  | _ => True

instance (roles : Fin n → Role T) (pool : BufferPool T n) (label : MonitorLabel n) :
    Decidable (Joins roles pool label) :=
  match label with
  | .enter _ => inferInstanceAs (Decidable (_ → ∀ _, _ → _))
  | .notify _ _ => isTrue trivial
  | .finish _ => isTrue trivial
  | .wake _ => isTrue trivial

/-- No thread can take a step but wake up for no reason. -/
def Stopped (roles : Fin n → Role T) (pool : BufferPool T n) : Prop :=
  ∀ label, (∀ thread, label ≠ .wake thread) → Joins roles pool label →
    monitor.exec pool label = none

/-! ## Sections -/

/-- A producer is let in as long as the buffer is open. -/
theorem push_of_open {value : T} {guard after : Inner T}
    {result : Except BufferError Unit} {notifications : List (Notification Condvar)}
    (isOpen : guard.closed = false)
    (ran : push value guard = (after, .leave result notifications)) :
    result = .ok () ∧ after = { guard with queue := guard.queue ++ [value] } := by
  unfold push at ran
  split at ran
  · cases ran
  · rw [if_neg (by simp [isOpen])] at ran
    cases ran
    exact ⟨rfl, rfl⟩

/-- A consumer takes the oldest message, or is told that the buffer is closed when it
is, and empty. -/
theorem pop_cases {guard after : Inner T} {result : Except BufferError T}
    {notifications : List (Notification Condvar)}
    (ran : pop guard = (after, .leave result notifications)) :
    (∃ v rest, guard.queue = v :: rest ∧ result = .ok v ∧
        after = { guard with queue := rest }) ∨
      (guard.queue = [] ∧ guard.closed = true ∧ result = .error .closed ∧
        after = guard) := by
  unfold pop at ran
  split at ran
  · cases ran
  · rename_i notWaiting
    split at ran
    · rename_i v rest holds
      cases ran
      exact Or.inl ⟨v, rest, holds, rfl, rfl⟩
    · rename_i empty
      cases ran
      have isClosed : guard.closed = true := by simpa [empty] using notWaiting
      exact Or.inr ⟨empty, isClosed, rfl, rfl⟩

/-! ## What the threads have left -/

/-- The messages that are left to push, and where the threads are in their loops. -/
structure Transfer (roles : Fin n → Role T) (left : Fin n → List T)
    (residual : Fin n → BufferProgram T) (guard : Inner T) (past : List (Exchange T)) :
    Prop where
  produces : ∀ thread, (roles thread).isProducer = true →
    residual thread = produce (left thread)
  others : ∀ thread, (roles thread).isProducer = false → left thread = []
  consumes : ∀ thread, roles thread = .consumer →
    (∃ bound, residual thread = consume bound ∧
      Multiset.card (messages roles) <
        bound + (past.filterMap returnedValue).length) ∨
    (residual thread = .done ∧ guard.closed = true ∧ guard.queue = [])
  closes : ∀ thread, roles thread = .closer →
    residual thread = closing ∨ (residual thread = .done ∧ guard.closed = true)
  accounted :
    (past.filterMap acceptedValue : Multiset T) + gathered left = messages roles
  closed : guard.closed = true → ∀ thread, left thread = []
  pushes : ∀ exchange value, exchange ∈ past → exchange.1 = .push value →
    acceptedValue exchange = some value

namespace Transfer

variable {roles : Fin n → Role T} {left : Fin n → List T}
variable {residual : Fin n → BufferProgram T} {guard after : Inner T}
variable {past : List (Exchange T)} {thread : Fin n}

theorem start (created : new capacity = some guard) :
    Transfer roles (fun thread => (roles thread).messages) (programs roles) guard [] where
  produces := by
    intro thread isProducer
    rw [programs]
    cases role : roles thread with
    | producer messages => rfl
    | consumer =>
        rw [role] at isProducer
        cases isProducer
    | closer =>
        rw [role] at isProducer
        cases isProducer
  others := by
    intro thread notProducer
    cases role : roles thread with
    | producer messages =>
        rw [role] at notProducer
        cases notProducer
    | consumer => rfl
    | closer => rfl
  consumes := by
    intro thread role
    refine Or.inl ⟨Multiset.card (messages roles) + 1, ?_, ?_⟩
    · rw [programs, role]
      rfl
    · exact Nat.lt_succ_self _
  closes := by
    intro thread role
    refine Or.inl ?_
    rw [programs, role]
    rfl
  accounted := zero_add _
  closed := by
    intro isClosed
    simp only [new, Option.ite_none_right_eq_some, Option.some.injEq] at created
    rw [← created.2] at isClosed
    cases isClosed
  pushes := by
    intro exchange value member
    cases member

theorem ne_of_roles {other : Fin n} {role otherRole : Role T} (isRole : roles thread = role)
    (isOther : roles other = otherRole) (different : otherRole ≠ role) :
    other ≠ thread := by
  rintro rfl
  exact different (isOther.symm.trans isRole)

theorem ne_of_isProducer {other : Fin n} (isProducer : (roles thread).isProducer = true)
    (notProducer : (roles other).isProducer = false) : other ≠ thread := by
  rintro rfl
  rw [isProducer] at notProducer
  cases notProducer

/-- A section more returns no fewer messages. -/
theorem enough_kept {bound : Nat} (last : Exchange T)
    (enough : Multiset.card (messages roles) <
      bound + (past.filterMap returnedValue).length) :
    Multiset.card (messages roles) <
      bound + ((past ++ [last]).filterMap returnedValue).length := by
  rw [List.filterMap_append, List.length_append]
  omega

/-- A producer has pushed its next message. -/
theorem push (transfer : Transfer roles left residual guard past)
    (isProducer : (roles thread).isProducer = true) {v : T} {rest : List T}
    (next : left thread = v :: rest) (isOpen : guard.closed = false) :
    Transfer roles (Function.update left thread rest)
      (Function.update residual thread (produce rest))
      { guard with queue := guard.queue ++ [v] }
      (past ++ [⟨.push v, (.ok () : Except BufferError Unit)⟩]) where
  produces := by
    intro other role
    by_cases same : other = thread
    · subst same
      rw [Function.update_self, Function.update_self]
    · rw [Function.update_of_ne same, Function.update_of_ne same]
      exact transfer.produces other role
  others := by
    intro other role
    rw [Function.update_of_ne (ne_of_isProducer isProducer role)]
    exact transfer.others other role
  consumes := by
    intro other role
    have notProducer : (roles other).isProducer = false := by
      rw [role]
      rfl
    rw [Function.update_of_ne (ne_of_isProducer isProducer notProducer)]
    rcases transfer.consumes other role with ⟨bound, going, enough⟩ | ⟨_, isClosed, _⟩
    · exact Or.inl ⟨bound, going, enough_kept _ enough⟩
    · rw [isOpen] at isClosed
      cases isClosed
  closes := by
    intro other role
    have notProducer : (roles other).isProducer = false := by
      rw [role]
      rfl
    rw [Function.update_of_ne (ne_of_isProducer isProducer notProducer)]
    exact transfer.closes other role
  accounted := by
    have taken := gathered_update next
    rw [List.filterMap_append, ← transfer.accounted, ← taken, ← Multiset.coe_add,
      add_assoc]
    rfl
  closed := by
    intro isClosed
    rw [isOpen] at isClosed
    cases isClosed
  pushes := by
    intro exchange value member isPush
    rcases List.mem_append.mp member with earlier | last
    · exact transfer.pushes exchange value earlier isPush
    · rw [List.mem_singleton.mp last] at isPush ⊢
      cases isPush
      rfl

/-- A section of another thread than a producer. -/
theorem others_kept (transfer : Transfer roles left residual guard past)
    (notProducer : (roles thread).isProducer = false) (program : BufferProgram T) :
    ∀ other, (roles other).isProducer = true →
      Function.update residual thread program other = produce (left other) := by
  intro other role
  rw [Function.update_of_ne (ne_of_isProducer role notProducer).symm]
  exact transfer.produces other role

theorem pushes_kept (transfer : Transfer roles left residual guard past)
    {last : Exchange T} (notPush : ∀ value, last.1 ≠ .push value) :
    ∀ exchange value, exchange ∈ past ++ [last] → exchange.1 = .push value →
      acceptedValue exchange = some value := by
  intro exchange value member isPush
  rcases List.mem_append.mp member with earlier | isLast
  · exact transfer.pushes exchange value earlier isPush
  · rw [List.mem_singleton.mp isLast] at isPush
    exact absurd isPush (notPush value)

/-- A consumer has popped a message. -/
theorem take (transfer : Transfer roles left residual guard past)
    (role : roles thread = .consumer) {bound : Nat}
    (enough : Multiset.card (messages roles) <
      bound + 1 + (past.filterMap returnedValue).length) {v : T} {rest : List T}
    (holds : guard.queue = v :: rest) :
    Transfer roles left (Function.update residual thread (consume bound))
      { guard with queue := rest }
      (past ++ [⟨.pop, (.ok v : Except BufferError T)⟩]) where
  produces := transfer.others_kept (by rw [role]; rfl) _
  others := transfer.others
  consumes := by
    intro other otherRole
    by_cases same : other = thread
    · subst same
      refine Or.inl ⟨bound, Function.update_self .., ?_⟩
      have oneMore : returnedValue (⟨.pop, (.ok v : Except BufferError T)⟩ : Exchange T) =
          some v := rfl
      simp only [List.filterMap_append, List.filterMap_cons, oneMore,
        List.filterMap_nil, List.length_append, List.length_singleton]
      omega
    · rw [Function.update_of_ne same]
      rcases transfer.consumes other otherRole with
        ⟨whole, goesOn, enough⟩ | ⟨_, _, empty⟩
      · exact Or.inl ⟨whole, goesOn, enough_kept _ enough⟩
      · rw [holds] at empty
        cases empty
  closes := by
    intro other otherRole
    rw [Function.update_of_ne (ne_of_roles role otherRole (by simp))]
    exact transfer.closes other otherRole
  accounted := by
    have nothing : acceptedValue (⟨.pop, (.ok v : Except BufferError T)⟩ : Exchange T) =
        none := rfl
    simpa [List.filterMap_append, nothing] using transfer.accounted
  closed := transfer.closed
  pushes := transfer.pushes_kept (by simp)

/-- A consumer is told that the buffer is closed. -/
theorem leave (transfer : Transfer roles left residual guard past)
    (role : roles thread = .consumer) (isClosed : guard.closed = true)
    (empty : guard.queue = []) :
    Transfer roles left (Function.update residual thread .done) guard
      (past ++ [⟨.pop, (.error .closed : Except BufferError T)⟩]) where
  produces := transfer.others_kept (by rw [role]; rfl) _
  others := transfer.others
  consumes := by
    intro other otherRole
    by_cases same : other = thread
    · subst same
      exact Or.inr ⟨Function.update_self .., isClosed, empty⟩
    · rw [Function.update_of_ne same]
      refine (transfer.consumes other otherRole).imp ?_ id
      rintro ⟨bound, going, enough⟩
      exact ⟨bound, going, enough_kept _ enough⟩
  closes := by
    intro other otherRole
    rw [Function.update_of_ne (ne_of_roles role otherRole (by simp))]
    exact transfer.closes other otherRole
  accounted := by
    have nothing :
        acceptedValue (⟨.pop, (.error .closed : Except BufferError T)⟩ : Exchange T) =
          none := rfl
    simpa [List.filterMap_append, nothing] using transfer.accounted
  closed := transfer.closed
  pushes := transfer.pushes_kept (by simp)

/-- `main` closes the buffer. -/
theorem close (transfer : Transfer roles left residual guard past)
    (role : roles thread = .closer) (nothingLeft : ∀ other, left other = []) :
    Transfer roles left (Function.update residual thread .done)
      { guard with closed := true } (past ++ [⟨.close, ()⟩]) where
  produces := transfer.others_kept (by rw [role]; rfl) _
  others := transfer.others
  consumes := by
    intro other otherRole
    rw [Function.update_of_ne (ne_of_roles role otherRole (by simp))]
    rcases transfer.consumes other otherRole with
      ⟨bound, going, enough⟩ | ⟨finished, _, empty⟩
    · exact Or.inl ⟨bound, going, enough_kept _ enough⟩
    · exact Or.inr ⟨finished, rfl, empty⟩
  closes := by
    intro other otherRole
    by_cases same : other = thread
    · subst same
      exact Or.inr ⟨Function.update_self .., rfl⟩
    · rw [Function.update_of_ne same]
      exact (transfer.closes other otherRole).imp id fun finished => ⟨finished.1, rfl⟩
  accounted := by
    have nothing : acceptedValue (⟨.close, ()⟩ : Exchange T) = none := rfl
    simpa [List.filterMap_append, nothing] using transfer.accounted
  closed := fun _ => nothingLeft
  pushes := transfer.pushes_kept (by simp)

end Transfer

/-! ## A run -/

theorem eq_done_of_finished {status : Status Condvar (@BufferResult T)}
    (finished : Finished status = true) : status = .awake .done := by
  cases status with
  | awake program =>
      cases program with
      | done => rfl
      | perform call next => cases finished
  | asleep call condition next => cases finished
  | leaving notifications program => cases finished

theorem eq_nil_of_produce_eq_done {left : List T} (finished : produce left = .done) :
    left = [] := by
  cases left with
  | nil => rfl
  | cons v rest => cases finished

section Runs

variable {roles : Fin n → Role T} {world : BufferWorld T n}

/-- The section of any thread keeps the books. -/
theorem transfer_leave {pool : BufferPool T n} {left : Fin n → List T}
    {past : List (Exchange T)} {thread : Fin n} {call : BufferCall T}
    {next : BufferResult call → BufferProgram T} {after : Inner T}
    {result : BufferResult call} {notifications : List (Notification Condvar)}
    (admitted : Joins roles pool (.enter thread))
    (transfer : Transfer roles left pool.residual pool.state past)
    (going : pool.residual thread = .perform call next)
    (ran : monitor.run call pool.state = (after, .leave result notifications)) :
    ∃ left, Transfer roles left
      (Function.update pool.residual thread (next result)) after
      (past ++ [⟨call, result⟩]) := by
  cases role : roles thread with
  | producer whole =>
      have isProducer : (roles thread).isProducer = true := by
        rw [role]
        rfl
      have produces := transfer.produces thread isProducer
      rw [going] at produces
      cases remaining : left thread with
      | nil =>
          rw [remaining] at produces
          cases produces
      | cons v rest =>
          rw [remaining] at produces
          cases produces
          have isOpen : pool.state.closed = false := by
            cases closed : pool.state.closed with
            | false => rfl
            | true =>
                rw [transfer.closed closed thread] at remaining
                cases remaining
          obtain ⟨rfl, rfl⟩ := push_of_open isOpen ran
          exact ⟨_, transfer.push isProducer remaining isOpen⟩
  | consumer =>
      rcases transfer.consumes thread role with
        ⟨bound, consumes, enough⟩ | ⟨finished, _, _⟩
      · rw [going] at consumes
        cases bound with
        | zero => cases consumes
        | succ bound =>
            cases consumes
            rcases pop_cases ran with ⟨v, rest, holds, rfl, rfl⟩ | ⟨empty, isClosed, rfl, rfl⟩
            · exact ⟨left, transfer.take role enough holds⟩
            · exact ⟨left, transfer.leave role isClosed empty⟩
      · rw [going] at finished
        cases finished
  | closer =>
      rcases transfer.closes thread role with closes | ⟨finished, _⟩
      · rw [going] at closes
        cases closes
        cases ran
        refine ⟨left, transfer.close role fun other => ?_⟩
        cases otherRole : (roles other).isProducer with
        | false => exact transfer.others other otherRole
        | true =>
            have joined := admitted (by rw [role]; rfl) other otherRole
            have produces := transfer.produces other otherRole
            rw [MonitorPool.residual, eq_done_of_finished joined] at produces
            exact eq_nil_of_produce_eq_done produces.symm
      · rw [going] at finished
        cases finished

theorem transfer_of_reachable
    (reachable :
      (system T capacity (programs roles)).Reachable (Joins roles) world) :
    ∃ left, Transfer roles left world.state.residual world.state.state
      (monitor.sections world.trace) := by
  refine Monitor.residual_invariant reachable
    (fun residual guard past => ∃ left, Transfer roles left residual guard past) ?_ ?_ ?_
  · exact fun guard created => ⟨_, Transfer.start created⟩
  · rintro residual call guard slept condition past kept ran
    rw [(waits_of_run ran).1]
    exact kept
  · rintro pool thread call next after result notifications past admitted
      ⟨left, transfer⟩ going ran
    exact transfer_leave admitted transfer going ran

/-- A thread of a pool that has stopped has finished or is asleep, or it is `main` and
waits for a producer. -/
theorem kept_of_stopped {pool : BufferPool T n} (stopped : Stopped roles pool)
    (thread : Fin n) :
    (pool.status thread).Resting ∨
      (roles thread).isCloser = true ∧
        (∃ other, (roles other).isProducer = true ∧
          Finished (pool.status other) = false) ∧
        ∃ call next, pool.status thread = .awake (.perform call next) := by
  cases here : pool.status thread with
  | asleep call condition next => exact Or.inl trivial
  | leaving notifications program =>
      have isLeaving : (pool.status thread).Leaving := by
        rw [here]
        trivial
      obtain ⟨label, noWakeUp, noEntry, goesOn⟩ :=
        (@monitor T).exists_exec_of_leaving isLeaving
      refine absurd (stopped label noWakeUp ?_) goesOn
      cases label with
      | enter other => exact absurd rfl (noEntry other)
      | _ => trivial
  | awake program =>
      cases program with
      | done => exact Or.inl trivial
      | perform call next =>
          refine Or.inr ?_
          have goesOn : monitor.exec pool (.enter thread) ≠ none := by
            simp only [Monitor.exec, here]
            split <;> simp
          have kept : ¬ Joins roles pool (.enter thread) := fun joins =>
            goesOn (stopped _ (by simp) joins)
          simp only [Joins, Classical.not_imp, not_forall, Bool.not_eq_true] at kept
          obtain ⟨isCloser, other, isProducer, unfinished⟩ := kept
          exact ⟨isCloser, ⟨other, isProducer, unfinished⟩, call, next, rfl⟩

theorem stopped_of_finished {pool : BufferPool T n}
    (finished : ∀ thread, Finished (pool.status thread) = true) :
    Stopped roles pool := by
  intro label noWakeUp _
  have done : ∀ thread, pool.status thread = .awake .done := fun thread =>
    eq_done_of_finished (finished thread)
  cases label with
  | enter thread => simp only [Monitor.exec, done thread]
  | notify thread woken => simp only [Monitor.exec, done thread]
  | finish thread => simp only [Monitor.exec, done thread]
  | wake thread => exact absurd rfl (noWakeUp thread)

theorem isCloser_iff {role : Role T} : role.isCloser = true ↔ role = .closer := by
  cases role <;> simp [Role.isCloser]

/-- Who is asleep when all have stopped waits for what there is none of. -/
theorem no_supply_of_stopped
    (reachable :
      (system T capacity (programs roles)).Reachable (Joins roles) world)
    (stopped : Stopped roles world.state) {thread : Fin n} {call : BufferCall T}
    {condition : Condvar} {next : BufferResult call → BufferProgram T}
    (asleep : world.state.status thread = .asleep call condition next) :
    waitsOn call = some condition ∧ supply condition world.state.state = 0 := by
  obtain ⟨left, transfer⟩ := transfer_of_reachable reachable
  have accounted :=
    accounted_of_reachable (reachable.mono fun _ _ _ => trivial)
  refine Monitor.no_supply_of_kept accounted ?_ asleep
  intro other
  refine (kept_of_stopped stopped other).imp id ?_
  rintro ⟨isCloser, _, kept, after, ready⟩
  refine ⟨kept, after, ready, ?_⟩
  have residual : world.state.residual other = .perform kept after := by
    rw [MonitorPool.residual, ready]
    rfl
  rcases transfer.closes other (isCloser_iff.mp isCloser) with closes | ⟨finished, _⟩
  · rw [residual] at closes
    cases closes
    rfl
  · rw [residual] at finished
    cases finished

/-- Nobody is asleep at a closed buffer. -/
theorem open_of_asleep_stopped
    (reachable :
      (system T capacity (programs roles)).Reachable (Joins roles) world)
    (stopped : Stopped roles world.state) {thread : Fin n} {call : BufferCall T}
    {condition : Condvar} {next : BufferResult call → BufferProgram T}
    (asleep : world.state.status thread = .asleep call condition next) :
    world.state.state.closed = false := by
  have noSupply := (no_supply_of_stopped reachable stopped asleep).2
  cases isOpen : world.state.state.closed with
  | false => rfl
  | true =>
      rw [supply_closed isOpen] at noSupply
      cases noSupply

/-- No more messages are taken than there are. -/
theorem returned_le_messages
    (reachable :
      (system T capacity (programs roles)).Reachable (Joins roles) world) :
    (returned world.trace).length ≤ Multiset.card (messages roles) := by
  obtain ⟨left, transfer⟩ := transfer_of_reachable reachable
  have ledger := ledger_of_reachable (reachable.mono fun _ _ _ => trivial)
  have order := congrArg List.length ledger.order
  have accounted := congrArg Multiset.card transfer.accounted
  rw [List.length_append] at order
  rw [Multiset.card_add, Multiset.coe_card] at accounted
  show ((monitor.sections world.trace).filterMap returnedValue).length ≤ _
  omega

/-- A consumer that has left its loop has found the buffer closed and empty. -/
theorem closed_of_consumer_done
    (reachable :
      (system T capacity (programs roles)).Reachable (Joins roles) world)
    {thread : Fin n} (role : roles thread = .consumer)
    (finished : world.state.residual thread = .done) :
    world.state.state.closed = true ∧ world.state.state.queue = [] := by
  obtain ⟨left, transfer⟩ := transfer_of_reachable reachable
  rcases transfer.consumes thread role with ⟨bound, consumes, enough⟩ | ⟨_, closed⟩
  · have atMost :
        ((monitor.sections world.trace).filterMap returnedValue).length ≤
          Multiset.card (messages roles) :=
      returned_le_messages reachable
    rw [finished] at consumes
    cases bound with
    | zero => omega
    | succ bound => cases consumes
  · exact closed

/-- A thread other than `main` has finished, or is asleep in a call. -/
theorem asleep_of_stopped
    {pool : BufferPool T n} (stopped : Stopped roles pool) (thread : Fin n)
    (notCloser : (roles thread).isCloser = false) :
    pool.status thread = .awake .done ∨
      ∃ call condition next, pool.status thread = .asleep call condition next := by
  rcases kept_of_stopped stopped thread with resting | ⟨isCloser, _⟩
  · exact resting.finished_or_asleep
  · rw [notCloser] at isCloser
    cases isCloser

/-- A consumer is stuck at an open buffer when the buffer is empty. -/
theorem empty_of_open_stopped
    (reachable :
      (system T capacity (programs roles)).Reachable (Joins roles) world)
    (stopped : Stopped roles world.state) {consumer : Fin n}
    (role : roles consumer = .consumer)
    (isOpen : world.state.state.closed = false) :
    world.state.state.queue = [] := by
  obtain ⟨left, transfer⟩ := transfer_of_reachable reachable
  rcases asleep_of_stopped stopped consumer (by rw [role]; rfl) with
    finished | ⟨call, condition, next, asleep⟩
  · have isDone : world.state.residual consumer = .done := by
      rw [MonitorPool.residual, finished]
      rfl
    exact (closed_of_consumer_done reachable role isDone).2
  · obtain ⟨waitsThere, noSupply⟩ := no_supply_of_stopped reachable stopped asleep
    have rest : world.state.residual consumer = .perform call next := by
      rw [MonitorPool.residual, asleep]
      rfl
    rcases transfer.consumes consumer role with ⟨bound, consumes, _⟩ | ⟨isDone, _⟩
    · rw [rest] at consumes
      cases bound with
      | zero => cases consumes
      | succ bound =>
          cases consumes
          cases waitsThere
          rw [supply_notEmpty isOpen] at noSupply
          exact List.length_eq_zero_iff.mp (by exact_mod_cast noSupply)
    · rw [rest] at isDone
      cases isDone

/-- `main` is kept from an open buffer by a producer, which is stuck when the buffer
is full. -/
theorem full_of_open_stopped
    (reachable :
      (system T capacity (programs roles)).Reachable (Joins roles) world)
    (stopped : Stopped roles world.state) {closer : Fin n}
    (role : roles closer = .closer) (isOpen : world.state.state.closed = false) :
    world.state.state.queue.length = capacity := by
  obtain ⟨left, transfer⟩ := transfer_of_reachable reachable
  have ledger := ledger_of_reachable (reachable.mono fun _ _ _ => trivial)
  have notClosed : world.state.residual closer = closing := by
    rcases transfer.closes closer role with closes | ⟨_, isClosed⟩
    · exact closes
    · rw [isOpen] at isClosed
      cases isClosed
  have someUnfinished : ∃ other, (roles other).isProducer = true ∧
      Finished (world.state.status other) = false := by
    rcases kept_of_stopped stopped closer with resting | ⟨_, unfinished, _⟩
    · rcases resting.finished_or_asleep with finished | ⟨call, condition, next, asleep⟩
      · rw [MonitorPool.residual, finished] at notClosed
        cases notClosed
      · have waitsThere := (no_supply_of_stopped reachable stopped asleep).1
        rw [MonitorPool.residual, asleep] at notClosed
        cases notClosed
        cases waitsThere
    · exact unfinished
  obtain ⟨producer, isProducer, unfinished⟩ := someUnfinished
  have notCloser : (roles producer).isCloser = false := by
    cases producerRole : roles producer with
    | producer messages => rfl
    | consumer => rfl
    | closer =>
        rw [producerRole] at isProducer
        cases isProducer
  rcases asleep_of_stopped stopped producer notCloser with
    finished | ⟨call, condition, next, asleep⟩
  · rw [finished] at unfinished
    cases unfinished
  · obtain ⟨waitsThere, noSupply⟩ := no_supply_of_stopped reachable stopped asleep
    have produces := transfer.produces producer isProducer
    rw [MonitorPool.residual, asleep] at produces
    cases remaining : left producer with
    | nil =>
        rw [remaining] at produces
        cases produces
    | cons v rest =>
        rw [remaining] at produces
        cases produces
        cases waitsThere
        rw [supply_notFull isOpen] at noSupply
        have noRoom :
            world.state.state.capacity - world.state.state.queue.length = 0 := by
          exact_mod_cast noSupply
        have bounded := ledger.bounded
        have sameCapacity := ledger.sameCapacity
        omega

/-- When all have stopped, `main` has closed the buffer: an open one would be empty and
full. -/
theorem closed_of_stopped
    (reachable :
      (system T capacity (programs roles)).Reachable (Joins roles) world)
    (stopped : Stopped roles world.state) {consumer closer : Fin n}
    (isConsumer : roles consumer = .consumer) (isCloser : roles closer = .closer) :
    world.state.state.closed = true := by
  have ledger := ledger_of_reachable (reachable.mono fun _ _ _ => trivial)
  cases isOpen : world.state.state.closed with
  | true => rfl
  | false =>
      have empty := empty_of_open_stopped reachable stopped isConsumer isOpen
      have full := full_of_open_stopped reachable stopped isCloser isOpen
      have positive := ledger.positive
      rw [empty, List.length_nil] at full
      omega

/-- At a closed buffer all have finished. -/
theorem finished_of_closed_stopped
    (reachable :
      (system T capacity (programs roles)).Reachable (Joins roles) world)
    (stopped : Stopped roles world.state)
    (isClosed : world.state.state.closed = true) (thread : Fin n) :
    world.state.status thread = .awake .done := by
  obtain ⟨left, transfer⟩ := transfer_of_reachable reachable
  have nobodyAsleep : ∀ other,
      (world.state.status other).Resting → world.state.status other = .awake .done := by
    intro other resting
    rcases resting.finished_or_asleep with finished | ⟨call, condition, next, asleep⟩
    · exact finished
    · have isOpen := open_of_asleep_stopped reachable stopped asleep
      rw [isClosed] at isOpen
      cases isOpen
  rcases kept_of_stopped stopped thread with
    resting | ⟨_, ⟨producer, isProducer, unfinished⟩, _⟩
  · exact nobodyAsleep thread resting
  · exfalso
    have produces := transfer.produces producer isProducer
    rw [transfer.closed isClosed producer] at produces
    rcases kept_of_stopped stopped producer with resting | ⟨_, _, call, next, ready⟩
    · rw [nobodyAsleep producer resting] at unfinished
      cases unfinished
    · rw [MonitorPool.residual, ready] at produces
      cases produces

/-- No push is refused, no consumer leaves before the buffer is closed and empty, and
the threads cannot get stuck: when none can go on, all have finished, and the consumers
have taken the messages that there are, each of them once. -/
theorem transfer_completes
    (reachable :
      (system T capacity (programs roles)).Reachable (Joins roles) world)
    (someConsumer : ∃ consumer, roles consumer = .consumer)
    (someCloser : ∃ closer, roles closer = .closer) :
    (∀ exchange value, exchange ∈ monitor.sections world.trace →
        exchange.1 = .push value → acceptedValue exchange = some value) ∧
      (∀ thread, roles thread = .consumer →
        world.state.status thread = .awake .done →
        world.state.state.closed = true ∧ world.state.state.queue = []) ∧
      (Stopped roles world.state →
        (∀ thread, world.state.status thread = .awake .done) ∧
          (returned world.trace : Multiset T) = messages roles) := by
  obtain ⟨left, transfer⟩ := transfer_of_reachable reachable
  have ledger := ledger_of_reachable (reachable.mono fun _ _ _ => trivial)
  have consumersLeave : ∀ thread, roles thread = .consumer →
      world.state.status thread = .awake .done →
      world.state.state.closed = true ∧ world.state.state.queue = [] := by
    intro thread role finished
    refine closed_of_consumer_done reachable role ?_
    rw [MonitorPool.residual, finished]
    rfl
  refine ⟨transfer.pushes, consumersLeave, fun stopped => ?_⟩
  obtain ⟨consumer, isConsumer⟩ := someConsumer
  obtain ⟨closer, isCloser⟩ := someCloser
  have isClosed := closed_of_stopped reachable stopped isConsumer isCloser
  have finished := finished_of_closed_stopped reachable stopped isClosed
  refine ⟨finished, ?_⟩
  have order := ledger.order
  rw [(consumersLeave consumer isConsumer (finished consumer)).2, List.append_nil] at order
  have accounted := transfer.accounted
  rw [gathered_eq_zero (transfer.closed isClosed), add_zero] at accounted
  rw [returned, order, accounted]

/-- A producer, a consumer and `main` on a buffer for one message: the producer sleeps
until the consumer has taken the first of two. -/
theorem transfer_completes_two_messages :
    ∃ world : BufferWorld Nat 3, (returned world.trace : Multiset Nat) = {7, 8} := by
  obtain ⟨world, reachable, checked⟩ :=
    System.exists_reachable_of_replay
      (system Nat 1 (programs ![.producer [7, 8], .consumer, .closer]))
      (Joins ![.producer [7, 8], .consumer, .closer])
      (MonitorPool.start (⟨[], 1, false⟩ : Inner Nat)
        (programs ![.producer [7, 8], .consumer, .closer]))
      [.enter 0, .notify 0 none, .finish 0, .enter 0, .enter 1, .notify 1 (some 0),
        .finish 1, .enter 0, .notify 0 none, .finish 0, .enter 1, .notify 1 none,
        .finish 1, .enter 2, .notify 2 none, .notify 2 none, .finish 2, .enter 1,
        .finish 1]
      (fun pool label => decide (Joins ![.producer [7, 8], .consumer, .closer] pool label))
      (fun world => decide (∀ thread, Finished (world.state.status thread) = true))
      ⟨_, rfl, rfl⟩ (fun _ _ => of_decide_eq_true) (by decide +kernel)
  have finished := of_decide_eq_true checked
  have completes := transfer_completes reachable ⟨1, rfl⟩ ⟨2, rfl⟩
  exact ⟨world, (completes.2.2 (stopped_of_finished finished)).2⟩

end Runs

end HautePerformance.Demos.RingBuffer
