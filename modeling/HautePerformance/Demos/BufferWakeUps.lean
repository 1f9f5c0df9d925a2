import HautePerformance.Library.MonitorWakeUps
import HautePerformance.Demos.BufferOrder

/-!
# The ring buffer loses no wake-up

A consumer is supplied by the values in the buffer, a producer by its free places,
and both without a bound once the buffer is closed.  `push` and `pop` wake one
thread for each place or value they add, and `close` wakes everybody, so when no
thread can take a step, whoever is asleep has nothing to do.
-/

namespace HautePerformance.Demos

open Library

namespace RingBuffer

variable {T : Type}

/-- How many threads asleep on the condition variable could go on. -/
def supply : Condvar → Inner T → ℕ∞
  | .notFull, guard =>
      if guard.closed then ⊤
      else ((guard.capacity - guard.queue.length : ℕ) : ℕ∞)
  | .notEmpty, guard =>
      if guard.closed then ⊤ else (guard.queue.length : ℕ∞)

theorem supply_notFull {guard : Inner T} (isOpen : guard.closed = false) :
    supply .notFull guard =
      ((guard.capacity - guard.queue.length : ℕ) : ℕ∞) := by
  simp [supply, isOpen]

theorem supply_notEmpty {guard : Inner T} (isOpen : guard.closed = false) :
    supply .notEmpty guard = (guard.queue.length : ℕ∞) := by
  simp [supply, isOpen]

theorem supply_closed {guard : Inner T} (isClosed : guard.closed = true)
    (condition : Condvar) : supply condition guard = ⊤ := by
  cases condition <;> simp [supply, isClosed]

theorem demand_le_one (call : BufferCall T) (condition : Condvar) :
    demand waitsOn call condition ≤ 1 := by
  unfold demand
  split <;> omega

/-- A value that is put in takes a place, and its notification pays for it. -/
theorem supply_accept {guard : Inner T} (isOpen : guard.closed = false)
    (room : guard.queue.length < guard.capacity) (value : T)
    (condition : Condvar) {taken : Nat} (atMostOne : taken ≤ 1)
    (fromProducers : condition = .notEmpty → taken = 0) :
    supply condition { guard with queue := guard.queue ++ [value] } + taken ≤
      supply condition guard +
        [Notification.one Condvar.notEmpty].count (.one condition) := by
  have oneMore :
      (guard.queue ++ [value]).length = guard.queue.length + 1 := by
    rw [List.length_append, List.length_singleton]
  cases condition with
  | notFull =>
      rw [supply_notFull isOpen, supply_notFull (by exact isOpen)]
      have places :
          guard.capacity - (guard.queue ++ [value]).length + taken ≤
            guard.capacity - guard.queue.length +
              [Notification.one Condvar.notEmpty].count (.one .notFull) := by
        omega
      exact_mod_cast places
  | notEmpty =>
      rw [supply_notEmpty isOpen, supply_notEmpty (by exact isOpen),
        fromProducers rfl]
      have values :
          (guard.queue ++ [value]).length + 0 ≤
            guard.queue.length +
              [Notification.one Condvar.notEmpty].count (.one .notEmpty) := by
        rw [oneMore, List.count_singleton_self, Nat.add_zero]
      exact_mod_cast values

/-- A value that is taken out leaves a place, and its notification pays for it. -/
theorem supply_hand {guard : Inner T} {value : T} {rest : List T}
    (holds : guard.queue = value :: rest) (condition : Condvar) {taken : Nat}
    (atMostOne : taken ≤ 1) (fromConsumers : condition = .notFull → taken = 0) :
    supply condition { guard with queue := rest } + taken ≤
      supply condition guard +
        [Notification.one Condvar.notFull].count (.one condition) := by
  have oneLess : guard.queue.length = rest.length + 1 := by
    rw [holds, List.length_cons]
  by_cases isClosed : guard.closed = true
  · rw [supply_closed isClosed, top_add]
    exact le_top
  · have isOpen : guard.closed = false := by simpa using isClosed
    cases condition with
    | notFull =>
        rw [supply_notFull isOpen, supply_notFull (by exact isOpen),
          fromConsumers rfl]
        have places :
            guard.capacity - rest.length + 0 ≤
              guard.capacity - guard.queue.length +
                [Notification.one Condvar.notFull].count (.one .notFull) := by
          rw [List.count_singleton_self]
          omega
        exact_mod_cast places
    | notEmpty =>
        rw [supply_notEmpty isOpen, supply_notEmpty (by exact isOpen)]
        have values :
            rest.length + taken ≤
              guard.queue.length +
                [Notification.one Condvar.notFull].count (.one .notEmpty) := by
          omega
        exact_mod_cast values

/-- A section pays for what it adds to a supply. -/
theorem Leaves.pays {guard after : Inner T} {exchange : Exchange T}
    {notifications : List (Notification Condvar)}
    (leaves : Leaves guard exchange after notifications)
    (bounded : guard.queue.length ≤ guard.capacity) (condition : Condvar) :
    .all condition ∈ notifications ∨
      supply condition after + demand waitsOn exchange.1 condition ≤
        supply condition guard + notifications.count (.one condition) := by
  have atMostOne := demand_le_one exchange.1 condition
  cases leaves with
  | accept _ _ _ notConsumer isOpen notFull =>
      have room : guard.queue.length < guard.capacity :=
        lt_of_le_of_ne bounded notFull
      refine Or.inr (supply_accept isOpen room _ condition atMostOne ?_)
      rintro rfl
      exact if_neg notConsumer
  | hand _ _ _ notProducer holds =>
      refine Or.inr (supply_hand holds condition atMostOne ?_)
      rintro rfl
      exact if_neg notProducer
  | refuse _ _ _ unconcerned =>
      refine Or.inr ?_
      rcases unconcerned with waitsForNothing | isClosed
      · have noDemand : demand waitsOn exchange.1 condition = 0 := by
          rw [demand, waitsForNothing, if_neg]
          simp
        simp [noDemand]
      · rw [supply_closed isClosed, top_add]
        exact le_top
  | close =>
      refine Or.inl ?_
      cases condition <;> simp

theorem supplied :
    (@monitor T).Supplied
      (fun guard => guard.queue.length ≤ guard.capacity) waitsOn supply where
  keeps call guard bounded := by
    cases ran : monitor.run call guard with
    | mk after outcome =>
        cases outcome with
        | wait condition =>
            rw [(waits_of_run ran).1]
            exact bounded
        | leave result notifications =>
            exact (leaves_of_run ran).bounded bounded
  waits call guard slept condition bounded ran := by
    obtain ⟨rfl, waits⟩ := waits_of_run ran
    cases waits with
    | push isOpen full => simp [waitsOn, supply, isOpen, full]
    | pop isOpen empty => simp [waitsOn, supply, isOpen, empty]
  leaves call guard after result notifications condition bounded ran :=
    (leaves_of_run ran).pays bounded condition

section Runs

variable {n capacity : Nat} {programs : Fin n → BufferProgram T}
variable {world : BufferWorld T n}

/-- The thread is asleep in a call of `pop`. -/
def AsleepInPop (pool : BufferPool T n) (thread : Fin n) : Prop :=
  ∃ condition next, pool.status thread = .asleep .pop condition next

/-- The thread is asleep in a call of `push`. -/
def AsleepInPush (pool : BufferPool T n) (thread : Fin n) : Prop :=
  ∃ value condition next,
    pool.status thread = .asleep (.push value) condition next

theorem accounted_of_reachable
    (reachable : (system T capacity programs).Reachable (fun _ _ => True) world) :
    world.state.Accounted
      (fun guard => guard.queue.length ≤ guard.capacity) waitsOn supply := by
  refine supplied.accounted ?_ reachable
  intro guard created
  exact (ledger_new created).bounded

/-- Only producers are asleep on `not_full`. -/
theorem asleepInPush_of_asleepOn
    (reachable : (system T capacity programs).Reachable (fun _ _ => True) world)
    {thread : Fin n}
    (asleep : (world.state.status thread).AsleepOn .notFull) :
    AsleepInPush world.state thread := by
  obtain ⟨call, next, isAsleep⟩ := Status.exists_of_asleepOn asleep
  have waitsThere := (accounted_of_reachable reachable).sleepsWell thread
  rw [isAsleep] at waitsThere
  cases call with
  | push value => exact ⟨value, _, next, isAsleep⟩
  | pop => cases waitsThere
  | tryPush value => cases waitsThere
  | tryPop => cases waitsThere
  | close => cases waitsThere

/-- Nobody is asleep at a closed buffer when no thread can take a step. -/
theorem open_of_asleep
    (reachable : (system T capacity programs).Reachable (fun _ _ => True) world)
    (stuck : monitor.Stuck world.state) {thread : Fin n} {call : BufferCall T}
    {condition : Condvar} {next : BufferResult call → BufferProgram T}
    (asleep : world.state.status thread = .asleep call condition next) :
    world.state.state.closed = false := by
  have noSupply :=
    (Monitor.no_supply_of_stuck (accounted_of_reachable reachable) stuck
      asleep).2
  cases isOpen : world.state.state.closed with
  | false => rfl
  | true =>
      rw [supply_closed isOpen] at noSupply
      cases noSupply

theorem empty_of_asleepInPop
    (reachable : (system T capacity programs).Reachable (fun _ _ => True) world)
    (stuck : monitor.Stuck world.state) {thread : Fin n}
    (asleep : AsleepInPop world.state thread) :
    world.state.state.queue = [] ∧ world.state.state.closed = false := by
  obtain ⟨condition, next, isAsleep⟩ := asleep
  have isOpen := open_of_asleep reachable stuck isAsleep
  obtain ⟨waitsThere, noSupply⟩ :=
    Monitor.no_supply_of_stuck (accounted_of_reachable reachable) stuck isAsleep
  cases waitsThere
  rw [supply_notEmpty isOpen] at noSupply
  exact ⟨List.length_eq_zero_iff.mp (by exact_mod_cast noSupply), isOpen⟩

theorem full_of_asleepInPush
    (reachable : (system T capacity programs).Reachable (fun _ _ => True) world)
    (stuck : monitor.Stuck world.state) {thread : Fin n}
    (asleep : AsleepInPush world.state thread) :
    world.state.state.queue.length = capacity ∧
      world.state.state.closed = false := by
  obtain ⟨value, condition, next, isAsleep⟩ := asleep
  have isOpen := open_of_asleep reachable stuck isAsleep
  obtain ⟨waitsThere, noSupply⟩ :=
    Monitor.no_supply_of_stuck (accounted_of_reachable reachable) stuck isAsleep
  cases waitsThere
  rw [supply_notFull isOpen] at noSupply
  have noRoom :
      world.state.state.capacity - world.state.state.queue.length = 0 := by
    exact_mod_cast noSupply
  have ledger := ledger_of_reachable reachable
  have bounded := ledger.bounded
  have sameCapacity := ledger.sameCapacity
  refine ⟨?_, isOpen⟩
  omega

/-- When no thread can take a step, whoever is asleep has nothing to do: consumers
see an empty and open buffer, producers a full and open one, not both at once, and
after `close` nobody is asleep. -/
theorem no_lost_wake_up
    (reachable : (system T capacity programs).Reachable (fun _ _ => True) world)
    (stuck : monitor.Stuck world.state) :
    (∀ thread, AsleepInPop world.state thread →
        world.state.state.queue = [] ∧ world.state.state.closed = false) ∧
      (∀ thread, AsleepInPush world.state thread →
        world.state.state.queue.length = capacity ∧
          world.state.state.closed = false) ∧
      (¬ ∃ consumer producer,
        AsleepInPop world.state consumer ∧ AsleepInPush world.state producer) ∧
      (∀ exchange, exchange ∈ monitor.sections world.trace →
        exchange.1 = .close →
        ∀ thread, world.state.status thread = .awake .done) := by
  refine ⟨?_, ?_, ?_, ?_⟩
  · intro thread asleep
    exact empty_of_asleepInPop reachable stuck asleep
  · intro thread asleep
    exact full_of_asleepInPush reachable stuck asleep
  · rintro ⟨consumer, producer, consumerAsleep, producerAsleep⟩
    have empty := (empty_of_asleepInPop reachable stuck consumerAsleep).1
    have full := (full_of_asleepInPush reachable stuck producerAsleep).1
    have positive := (ledger_of_reachable reachable).positive
    rw [empty, List.length_nil] at full
    omega
  · intro exchange left isClose thread
    have isClosed := (ledger_of_reachable reachable).closes exchange left isClose
    rcases (stuck.resting thread).finished_or_asleep with
      finished | ⟨call, condition, next, asleep⟩
    · exact finished
    · have isOpen := open_of_asleep reachable stuck asleep
      rw [isClosed] at isOpen
      cases isOpen

end Runs

/-- A producer has more to put into a buffer for one value than is taken out. -/
def unbalancedPrograms : Fin 2 → BufferProgram Nat
  | 0 =>
      .perform (.push 7) fun _ => .perform (.push 8) fun _ =>
        .perform (.push 9) fun _ => .done
  | 1 => .perform .pop fun _ => .done

theorem no_lost_wake_up_unbalanced :
    ∃ world : BufferWorld Nat 2,
      AsleepInPush world.state 0 ∧
        world.state.state.queue.length = 1 ∧
        world.state.state.closed = false := by
  obtain ⟨world, reachable, checked⟩ :=
    System.exists_reachable_of_replay (system Nat 1 unbalancedPrograms)
      (fun _ _ => True)
      (MonitorPool.start { queue := [], capacity := 1, closed := false }
        unbalancedPrograms)
      [.enter 0, .notify 0 none, .finish 0, .enter 0, .enter 1,
        .notify 1 (some 0), .finish 1, .enter 0, .notify 0 none, .finish 0,
        .enter 0]
      (fun _ _ => true)
      (fun world =>
        decide ((∀ thread, (world.state.status thread).Resting) ∧
          (world.state.status 0).AsleepOn .notFull))
      ⟨_, rfl, rfl⟩ (fun _ _ _ => trivial) (by decide +kernel)
  obtain ⟨resting, onNotFull⟩ := of_decide_eq_true checked
  have stuck : monitor.Stuck world.state := Monitor.stuck_iff.mpr resting
  have asleep := asleepInPush_of_asleepOn reachable onNotFull
  exact ⟨world, asleep, (no_lost_wake_up reachable stuck).2.1 0 asleep⟩

end RingBuffer

end HautePerformance.Demos
