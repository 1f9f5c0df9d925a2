import HautePerformance.Demos.BufferOrder

/-!
# Closing the ring buffer

After `close` nothing gets in any more, what is in the buffer is handed out in order,
and from then on every call says that the buffer is closed.  Before `close` no call
says so, except that `try_push` uses the same error for a full buffer.
-/

namespace HautePerformance.Demos

open Library

namespace RingBuffer

variable {T : Type}

/-! ## What is meant -/

/-- What a call that takes a value has found. -/
def taking : Exchange T → Option (Except BufferError (Option T))
  | ⟨.pop, result⟩ => some (result.map some)
  | ⟨.tryPop, result⟩ => some result
  | _ => none

/-- The call has returned `Err(BufferError::Closed)`. -/
def reportsClosed : Exchange T → Bool
  | ⟨.push _, .error .closed⟩ => true
  | ⟨.pop, .error .closed⟩ => true
  | ⟨.tryPush _, .error .closed⟩ => true
  | ⟨.tryPop, .error .closed⟩ => true
  | _ => false

/-- What so many calls that take a value find in a closed buffer: the values in
order, and then that it is closed. -/
def drained (queue : List T) (count : Nat) :
    List (Except BufferError (Option T)) :=
  (queue.take count).map (fun value => .ok (some value)) ++
    List.replicate (count - queue.length) (.error .closed)

variable {n : Nat}

/-- `close` is among the sections left so far. -/
def WasClosed (trace : List (BufferPool T n × MonitorLabel n)) : Prop :=
  ∃ exchange, exchange ∈ monitor.sections trace ∧ exchange.1 = .close

/-- The protocol, step by step in the order of the lock. -/
structure CloseProtocol (trace : List (BufferPool T n × MonitorLabel n)) :
    Prop where
  /-- Nothing gets in after `close`. -/
  refuses : ∀ later pool label before exchange,
    trace = later ++ (pool, label) :: before →
    monitor.left? pool label = some exchange →
    WasClosed before →
    acceptedValue exchange = none
  /-- The values present at `close` are handed out, in order. -/
  drains : ∀ later pool label before,
    trace = later ++ (pool, label) :: before →
    monitor.left? pool label = some ⟨.close, ()⟩ →
    (monitor.sections later).filterMap taking =
      drained pool.state.queue
        ((monitor.sections later).filterMap taking).length
  /-- No call waits after `close`. -/
  prompt : ∀ later pool thread call next before,
    trace = later ++ (pool, .enter thread) :: before →
    pool.status thread = .awake (.perform call next) →
    WasClosed before →
    (monitor.left? pool (.enter thread)).isSome = true
  /-- A call that takes a value says that the buffer is closed only when it is empty
  and closed. -/
  emptyAndClosed : ∀ pool label exchange,
    (pool, label) ∈ trace →
    monitor.left? pool label = some exchange →
    taking exchange = some (.error .closed) →
    pool.state.queue = [] ∧ pool.state.closed = true
  /-- No call says that the buffer is closed before it is. -/
  truthful : ∀ later pool label before exchange,
    trace = later ++ (pool, label) :: before →
    monitor.left? pool label = some exchange →
    reportsClosed exchange = true →
    WasClosed before

/-- A `try_push` gets the lock of a buffer that is open and full. -/
def tryPushMeetsFull (pool : BufferPool T n) : MonitorLabel n → Bool
  | .enter thread =>
      match pool.status thread with
      | .awake (.perform (.tryPush _) _) =>
          !pool.state.closed && pool.state.queue.length == pool.state.capacity
      | _ => false
  | _ => false

/-- No `try_push` meets a buffer that is open and full. -/
def RoomForTryPush (trace : List (BufferPool T n × MonitorLabel n)) : Prop :=
  ∀ step, step ∈ trace → tryPushMeetsFull step.1 step.2 = false

theorem tryPushMeetsFull_iff {pool : BufferPool T n} {label : MonitorLabel n} :
    tryPushMeetsFull pool label = true ↔
      ∃ thread value next,
        label = .enter thread ∧
          pool.status thread = .awake (.perform (.tryPush value) next) ∧
          pool.state.closed = false ∧
          pool.state.queue.length = pool.state.capacity := by
  constructor
  · intro meets
    unfold tryPushMeetsFull at meets
    split at meets
    · rename_i thread
      split at meets
      · rename_i value next ready
        simp only [Bool.and_eq_true, Bool.not_eq_true', beq_iff_eq] at meets
        exact ⟨thread, value, next, rfl, ready, meets⟩
      · cases meets
    · cases meets
  · rintro ⟨thread, value, next, rfl, ready, isOpen, isFull⟩
    simp [tryPushMeetsFull, ready, isOpen, isFull]

/-! ## What a section reports -/

variable {guard after : Inner T} {call : BufferCall T}
variable {result : BufferResult call}
variable {notifications : List (Notification Condvar)}

/-- What a call finds that takes a value from a closed buffer. -/
def drawn (queue : List T) : Except BufferError (Option T) :=
  match queue with
  | value :: _ => .ok (some value)
  | [] => .error .closed

theorem drained_succ (queue : List T) :
    ∀ count,
      drained queue (count + 1) =
        drained queue count ++ [drawn (queue.drop count)] := by
  induction queue with
  | nil =>
      intro count
      simp only [drained, List.take_nil, List.map_nil, List.nil_append,
        List.length_nil, Nat.sub_zero, List.drop_nil, drawn]
      exact List.replicate_succ'
  | cons value rest inductionHypothesis =>
      intro count
      cases count with
      | zero => simp [drained, drawn]
      | succ count =>
          have others := inductionHypothesis count
          simp only [drained, List.take_succ_cons, List.map_cons,
            List.cons_append, List.length_cons, Nat.add_sub_add_right,
            List.drop_succ_cons] at others ⊢
          rw [others]

/-- A call says that the buffer is closed when it is, and `try_push` also when the
buffer is full. -/
theorem closed_of_reportsClosed
    (ran : monitor.run call guard = (after, .leave result notifications))
    (reports : reportsClosed ⟨call, result⟩ = true) :
    guard.closed = true ∨
      ∃ value, call = .tryPush value ∧ guard.queue.length = guard.capacity := by
  cases call with
  | push value =>
      simp only [monitor, push] at ran
      split at ran
      · cases ran
      · split at ran
        · rename_i isClosed
          exact Or.inl isClosed
        · cases ran
          cases reports
  | pop =>
      simp only [monitor, pop] at ran
      split at ran
      · cases ran
      · rename_i notWaiting
        split at ran
        · cases ran
          cases reports
        · rename_i empty
          have isClosed : guard.closed = true := by
            simpa [empty] using notWaiting
          exact Or.inl isClosed
  | tryPush value =>
      simp only [monitor, tryPush] at ran
      split at ran
      · rename_i isClosed
        exact Or.inl isClosed
      · split at ran
        · rename_i full
          exact Or.inr ⟨value, rfl, full⟩
        · cases ran
          cases reports
  | tryPop =>
      simp only [monitor, tryPop] at ran
      split at ran
      · cases ran
        cases reports
      · split at ran
        · rename_i isClosed
          exact Or.inl isClosed
        · cases ran
          cases reports
  | close =>
      cases ran
      cases reports

/-- A call that takes a value finds the oldest one, and none in an empty buffer. -/
theorem taking_cases
    (ran : monitor.run call guard = (after, .leave result notifications))
    {found : Except BufferError (Option T)}
    (takes : taking ⟨call, result⟩ = some found) :
    (∃ value rest,
        guard.queue = value :: rest ∧ found = .ok (some value) ∧
          after = { guard with queue := rest }) ∨
      guard.queue = [] ∧ after = guard ∧
        (guard.closed = true ∧ found = .error .closed ∨
          guard.closed = false ∧ found = .ok none) := by
  cases call with
  | push value => cases takes
  | tryPush value => cases takes
  | close => cases takes
  | pop =>
      simp only [monitor, pop] at ran
      split at ran
      · cases ran
      · rename_i notWaiting
        split at ran
        · rename_i value rest holds
          cases ran
          cases takes
          exact Or.inl ⟨value, rest, holds, rfl, rfl⟩
        · rename_i empty
          cases ran
          cases takes
          have isClosed : guard.closed = true := by
            simpa [empty] using notWaiting
          exact Or.inr ⟨empty, rfl, Or.inl ⟨isClosed, rfl⟩⟩
  | tryPop =>
      simp only [monitor, tryPop] at ran
      split at ran
      · rename_i value rest holds
        cases ran
        cases takes
        exact Or.inl ⟨value, rest, holds, rfl, rfl⟩
      · rename_i empty
        split at ran
        · rename_i isClosed
          cases ran
          cases takes
          exact Or.inr ⟨empty, rfl, Or.inl ⟨isClosed, rfl⟩⟩
        · rename_i isOpen
          cases ran
          cases takes
          exact Or.inr ⟨empty, rfl, Or.inr ⟨by simpa using isOpen, rfl⟩⟩

/-- A call that does not take leaves the values in a closed buffer alone. -/
theorem queue_kept_of_closed
    (leaves : Leaves guard ⟨call, result⟩ after notifications)
    (isClosed : guard.closed = true)
    (takesNothing : taking ⟨call, result⟩ = none) :
    after.queue = guard.queue := by
  cases leaves with
  | accept _ _ _ _ isOpen _ =>
      rw [isClosed] at isOpen
      cases isOpen
  | hand _ returns _ _ _ =>
      cases call with
      | push value => cases returns
      | tryPush value => cases returns
      | close => cases returns
      | pop => cases takesNothing
      | tryPop => cases takesNothing
  | refuse _ _ _ _ => rfl
  | close => rfl

/-- The flag is raised by `close`, and by nothing else. -/
theorem Leaves.closed_iff {exchange : Exchange T}
    (leaves : Leaves guard exchange after notifications) :
    after.closed = true ↔ guard.closed = true ∨ exchange.1 = .close := by
  cases leaves with
  | accept _ _ notClose _ _ _ => simp [notClose]
  | hand _ _ notClose _ _ => simp [notClose]
  | refuse _ _ notClose _ => simp [notClose]
  | close => simp

/-! ## Along a run -/

variable {capacity : Nat} {programs : Fin n → BufferProgram T}
variable {world : BufferWorld T n}

/-- The flag tells whether `close` has been called. -/
theorem closed_iff_wasClosed
    (reachable : (system T capacity programs).Reachable (fun _ _ => True) world) :
    world.state.state.closed = true ↔ WasClosed world.trace := by
  refine Monitor.sections_invariant reachable
    (fun guard past => guard.closed = true ↔
      ∃ exchange, exchange ∈ past ∧ exchange.1 = .close) ?_ ?_ ?_
  · intro guard created
    simp only [new, Option.ite_none_right_eq_some, Option.some.injEq] at created
    rw [← created.2]
    simp
  · intro call guard slept condition past flag ran
    rw [(waits_of_run ran).1]
    exact flag
  · intro call guard after result notifications past flag ran
    rw [(leaves_of_run ran).closed_iff, flag]
    simp [or_and_right, exists_or]

/-- What is left of the values that were there at `close`, and what the calls since
then have found. -/
structure Draining (queue : List T) (state : Inner T)
    (past : List (Exchange T)) : Prop where
  isClosed : state.closed = true
  rest : state.queue = queue.drop (past.filterMap taking).length
  found : past.filterMap taking =
    drained queue (past.filterMap taking).length

/-- A section that is left in a closed buffer. -/
theorem Draining.leave {queue : List T} {past : List (Exchange T)}
    (draining : Draining queue guard past)
    (ran : monitor.run call guard = (after, .leave result notifications)) :
    Draining queue after (past ++ [⟨call, result⟩]) := by
  have leaves := leaves_of_run ran
  have isClosed : after.closed = true :=
    leaves.closed_iff.mpr (Or.inl draining.isClosed)
  cases takes : taking ⟨call, result⟩ with
  | none =>
      have sameQueue := queue_kept_of_closed leaves draining.isClosed takes
      have sameFound :
          (past ++ [(⟨call, result⟩ : Exchange T)]).filterMap taking =
            past.filterMap taking := by
        simp [List.filterMap_append, takes]
      refine ⟨isClosed, ?_, ?_⟩
      · rw [sameFound, sameQueue]
        exact draining.rest
      · rw [sameFound]
        exact draining.found
  | some found =>
      have oneMore :
          (past ++ [(⟨call, result⟩ : Exchange T)]).filterMap taking =
            past.filterMap taking ++ [found] := by
        simp [List.filterMap_append, takes]
      have length :
          ((past ++ [(⟨call, result⟩ : Exchange T)]).filterMap taking).length =
            (past.filterMap taking).length + 1 := by
        rw [oneMore, List.length_append, List.length_singleton]
      have isDrawn :
          found = drawn guard.queue ∧ after.queue = guard.queue.tail := by
        rcases taking_cases ran takes with
          ⟨value, rest, holds, isFound, rfl⟩ |
          ⟨empty, rfl, ⟨_, isFound⟩ | ⟨isOpen, _⟩⟩
        · rw [holds, isFound]
          exact ⟨rfl, rfl⟩
        · rw [empty, isFound]
          exact ⟨rfl, rfl⟩
        · rw [draining.isClosed] at isOpen
          cases isOpen
      refine ⟨isClosed, ?_, ?_⟩
      · rw [length, isDrawn.2, draining.rest, List.tail_drop]
      · rw [length, drained_succ, ← draining.found, ← draining.rest,
          ← isDrawn.1]
        exact oneMore

/-- After `close` the buffer is being drained. -/
theorem draining_of_reachable
    (reachable : (system T capacity programs).Reachable (fun _ _ => True) world)
    {later before : List (BufferPool T n × MonitorLabel n)}
    {pool : BufferPool T n} {label : MonitorLabel n}
    (recorded : world.trace = later ++ (pool, label) :: before)
    (closes : monitor.left? pool label = some ⟨.close, ()⟩) :
    Draining pool.state.queue world.state.state (monitor.sections later) := by
  induction reachable generalizing later with
  | start _ => simp at recorded
  | @next source target step reached stepped inductionHypothesis =>
      have moves := Monitor.moves_of_exec stepped.2.1
      rw [stepped.2.2] at recorded
      cases later with
      | nil =>
          -- The last step of the run is the call of `close` itself.
          cases recorded
          rcases Monitor.section_of_moves moves with
            ⟨call, result, notifications, ran, left⟩ | ⟨_, _, _, left⟩ |
            ⟨_, left⟩
          · rw [closes] at left
            cases left
            have closed :
                ({ source.state.state with closed := true } : Inner T) =
                  target.state.state :=
              congrArg Prod.fst ran
            rw [← closed]
            exact ⟨rfl, rfl, by simp [Monitor.sections, drained]⟩
          · rw [closes] at left
            cases left
          · rw [closes] at left
            cases left
      | cons last rest =>
          injection recorded with isLast recorded
          subst isLast
          have draining := inductionHypothesis recorded
          rw [Monitor.sections]
          rcases Monitor.section_of_moves moves with
            ⟨call, result, notifications, ran, left⟩ |
            ⟨call, condition, ran, left⟩ | ⟨same, left⟩
          · rw [left]
            exact draining.leave ran
          · rw [left, (waits_of_run ran).1, Option.toList_none, List.append_nil]
            exact draining
          · rw [left, same, Option.toList_none, List.append_nil]
            exact draining

/-- No section waits in a closed buffer. -/
theorem left?_isSome_of_closed {pool : BufferPool T n} {thread : Fin n}
    {next : BufferResult call → BufferProgram T}
    (ready : pool.status thread = .awake (.perform call next))
    (isClosed : pool.state.closed = true) :
    (monitor.left? pool (.enter thread)).isSome = true := by
  simp only [Monitor.left?, ready]
  cases ran : monitor.run call pool.state with
  | mk slept ended =>
      cases ended with
      | leave result notifications => rfl
      | wait condition =>
          have waits := (waits_of_run ran).2
          cases waits with
          | push isOpen _ =>
              rw [isClosed] at isOpen
              cases isOpen
          | pop isOpen _ =>
              rw [isClosed] at isOpen
              cases isOpen

/-- A `try_push` that meets an open and full buffer breaks the protocol. -/
theorem roomForTryPush_of_protocol
    (reachable : (system T capacity programs).Reachable (fun _ _ => True) world)
    (protocol : CloseProtocol world.trace) : RoomForTryPush world.trace := by
  rintro ⟨pool, label⟩ member
  refine Bool.eq_false_iff.mpr fun meets => ?_
  have meetsFull : tryPushMeetsFull pool label = true := meets
  obtain ⟨thread, value, next, rfl, ready, isOpen, isFull⟩ :=
    tryPushMeetsFull_iff.mp meetsFull
  obtain ⟨later, before, recorded⟩ := List.append_of_mem member
  have left : monitor.left? pool (.enter thread) =
      some ⟨.tryPush value, .error .closed⟩ := by
    simp [Monitor.left?, ready, monitor, tryPush, isOpen, isFull]
  have wasClosed : WasClosed before :=
    protocol.truthful later pool _ before _ recorded left rfl
  have isClosed : pool.state.closed = true :=
    (closed_iff_wasClosed (reachable.earlier recorded)).mpr wasClosed
  rw [isOpen] at isClosed
  cases isClosed

/-- The protocol is kept if and only if no `try_push` meets a buffer that is open
and full. -/
theorem close_protocol_iff
    (reachable : (system T capacity programs).Reachable (fun _ _ => True) world) :
    CloseProtocol world.trace ↔ RoomForTryPush world.trace := by
  constructor
  · intro protocol
    exact roomForTryPush_of_protocol reachable protocol
  · intro room
    constructor
    · rintro later pool label before ⟨call, result⟩ recorded left wasClosed
      obtain ⟨thread, next, state, notifications, _, _, ran⟩ :=
        Monitor.run_of_left? left
      have isClosed : pool.state.closed = true :=
        (closed_iff_wasClosed (reachable.earlier recorded)).mpr wasClosed
      cases leaves_of_run ran with
      | accept _ _ _ _ isOpen _ =>
          rw [isClosed] at isOpen
          cases isOpen
      | hand acceptsNothing _ _ _ _ => exact acceptsNothing
      | refuse acceptsNothing _ _ _ => exact acceptsNothing
      | close => rfl
    · intro later pool label before recorded closes
      exact (draining_of_reachable reachable recorded closes).found
    · intro later pool thread call next before recorded ready wasClosed
      exact left?_isSome_of_closed ready
        ((closed_iff_wasClosed (reachable.earlier recorded)).mpr wasClosed)
    · rintro pool label ⟨call, result⟩ member left takes
      obtain ⟨thread, next, state, notifications, _, _, ran⟩ :=
        Monitor.run_of_left? left
      rcases taking_cases ran takes with
        ⟨value, rest, _, isFound, _⟩ |
        ⟨empty, _, ⟨isClosed, _⟩ | ⟨_, isFound⟩⟩
      · cases isFound
      · exact ⟨empty, isClosed⟩
      · cases isFound
    · rintro later pool label before ⟨call, result⟩ recorded left reports
      obtain ⟨thread, next, state, notifications, isEnter, ready, ran⟩ :=
        Monitor.run_of_left? left
      have member : (pool, label) ∈ world.trace := by
        rw [recorded]
        exact List.mem_append_right later List.mem_cons_self
      have sinceClose := closed_iff_wasClosed (reachable.earlier recorded)
      rcases closed_of_reportsClosed ran reports with
        isClosed | ⟨value, isTryPush, isFull⟩
      · exact sinceClose.mp isClosed
      · cases isOpen : pool.state.closed with
        | true => exact sinceClose.mp isOpen
        | false =>
            subst isEnter isTryPush
            have meets : tryPushMeetsFull pool (.enter thread) = true :=
              tryPushMeetsFull_iff.mpr
                ⟨thread, value, next, rfl, ready, isOpen, isFull⟩
            have roomHere := room _ member
            rw [meets] at roomHere
            cases roomHere

/-- A producer that closes the buffer behind its value, and a consumer. -/
def closingPrograms : Fin 2 → BufferProgram Nat
  | 0 => .perform (.push 7) fun _ => .perform .close fun _ => .done
  | 1 => .perform .tryPop fun _ => .perform .pop fun _ => .done

theorem close_protocol_last_value :
    ∃ world : BufferWorld Nat 2,
      CloseProtocol world.trace ∧
        (monitor.sections world.trace).filterMap taking =
          [.ok (some 7), .error .closed] := by
  obtain ⟨world, reachable, checked⟩ :=
    System.exists_reachable_of_replay (system Nat 1 closingPrograms)
      (fun _ _ => True)
      (MonitorPool.start { queue := [], capacity := 1, closed := false }
        closingPrograms)
      [.enter 0, .notify 0 none, .finish 0, .enter 0, .enter 1,
        .notify 1 none, .finish 1, .enter 1]
      (fun _ _ => true)
      (fun world =>
        world.trace.all (fun step => !tryPushMeetsFull step.1 step.2) &&
          decide ((monitor.sections world.trace).filterMap taking =
            [.ok (some 7), .error .closed]))
      ⟨_, rfl, rfl⟩ (fun _ _ _ => trivial) (by decide +kernel)
  simp only [Bool.and_eq_true, List.all_eq_true, Bool.not_eq_true',
    decide_eq_true_eq] at checked
  exact ⟨world, (close_protocol_iff reachable).mpr checked.1, checked.2⟩

/-- One thread that does not wait for room. -/
def impatientPrograms : Fin 1 → BufferProgram Nat
  | _ => .perform (.tryPush 7) fun _ => .perform (.tryPush 8) fun _ => .done

/-- The second `try_push` finds the buffer full, and reports that it is closed. -/
theorem full_reported_as_closed :
    ¬ ∀ world : BufferWorld Nat 1,
      (system Nat 1 impatientPrograms).Reachable (fun _ _ => True) world →
      CloseProtocol world.trace := by
  intro protocol
  obtain ⟨world, reachable, checked⟩ :=
    System.exists_reachable_of_replay (system Nat 1 impatientPrograms)
      (fun _ _ => True)
      (MonitorPool.start { queue := [], capacity := 1, closed := false }
        impatientPrograms)
      [.enter 0, .notify 0 none, .finish 0, .enter 0]
      (fun _ _ => true)
      (fun world =>
        world.trace.any (fun step => tryPushMeetsFull step.1 step.2))
      ⟨_, rfl, rfl⟩ (fun _ _ _ => trivial) (by decide +kernel)
  obtain ⟨step, member, meets⟩ := List.any_eq_true.mp checked
  have room :=
    roomForTryPush_of_protocol reachable (protocol world reachable) step member
  rw [meets] at room
  cases room

end RingBuffer

end HautePerformance.Demos
