import HautePerformance.Library.MonitorPrograms
import HautePerformance.Library.MonitorWakeUps

/-!
# The bounded queue

`BoundedQueue` of `demo05_mutex_rwlock.rs`: a queue behind a mutex, with one condition
variable for each side.  Unlike the ring buffer it cannot be closed, and its calls
notify while they still hold the guard.

A queue that cannot be closed can leave threads asleep for good.  Whether it does is
settled by the programs alone: every run of straight-line programs can be completed
exactly when no more is taken out than is put in, and no more is left than the queue
can hold.
-/

namespace HautePerformance.Demos

open Library

structure BoundedQueue (T : Type) where
  queue : List T
  capacity : Nat

inductive QueueCall (T : Type) where
  | push (item : T)
  | pop
  | len
  deriving DecidableEq, Repr

def QueueResult {T : Type} : QueueCall T → Type
  | .push _ => Unit
  | .pop => T
  | .len => Nat

inductive QueueCondition where
  | notFull
  | notEmpty
  deriving DecidableEq, Repr

abbrev QueuePool (T : Type) (n : Nat) :=
  MonitorPool (BoundedQueue T) QueueCondition (@QueueResult T) n

abbrev QueueWorld (T : Type) (n : Nat) :=
  World (QueuePool T n) (MonitorLabel n)

/-- A call with what it has returned. -/
abbrev QueueExchange (T : Type) :=
  (call : QueueCall T) × QueueResult call

namespace BoundedQueue

variable {T : Type}

/-- `BoundedQueue::new`, which panics for the capacity zero. -/
def new (capacity : Nat) : Option (BoundedQueue T) :=
  if capacity > 0 then some { queue := [], capacity := capacity } else none

/-- The section of `push`. -/
def push (item : T) (guard : BoundedQueue T) :
    BoundedQueue T × Outcome QueueCondition Unit :=
  if guard.queue.length ≥ guard.capacity then (guard, .wait .notFull)
  else
    ({ guard with queue := guard.queue ++ [item] }, .leave () [.one .notEmpty])

/-- The section of `pop`. -/
def pop (guard : BoundedQueue T) : BoundedQueue T × Outcome QueueCondition T :=
  match guard.queue with
  | [] => (guard, .wait .notEmpty)
  | item :: rest => ({ guard with queue := rest }, .leave item [.one .notFull])

/-- The section of `len`. -/
def len (guard : BoundedQueue T) : BoundedQueue T × Outcome QueueCondition Nat :=
  (guard, .leave guard.queue.length [])

def monitor : Monitor (BoundedQueue T) QueueCondition (@QueueResult T) where
  run
    | .push item => push item
    | .pop => pop
    | .len => len

/-- The runs of straight-line programs that share a new queue. -/
def system (capacity : Nat) {n : Nat} (calls : Fin n → List (QueueCall T)) :
    System (QueuePool T n) (MonitorLabel n) :=
  monitor.system (fun state => new capacity = some state) fun thread =>
    .ofList (calls thread)

/-! ## What a section can do -/

/-- The condition that a call waits for. -/
def waitsOn : QueueCall T → Option QueueCondition
  | .push _ => some .notFull
  | .pop => some .notEmpty
  | .len => none

/-- The item that a call puts into the queue. -/
def pushed? : QueueCall T → Option T
  | .push item => some item
  | _ => none

/-- The item that a call has taken out. -/
def popped? : QueueExchange T → Option T
  | ⟨.pop, item⟩ => some item
  | _ => none

inductive Waits (guard : BoundedQueue T) : QueueCall T → QueueCondition → Prop
  | push {item : T} :
      guard.capacity ≤ guard.queue.length → Waits guard (.push item) .notFull
  | pop : guard.queue = [] → Waits guard .pop .notEmpty

inductive Leaves (guard : BoundedQueue T) :
    QueueExchange T → BoundedQueue T → List (Notification QueueCondition) → Prop
  | push {item : T} :
      guard.queue.length < guard.capacity →
      Leaves guard ⟨.push item, ()⟩ { guard with queue := guard.queue ++ [item] }
        [.one .notEmpty]
  | pop {item : T} {rest : List T} :
      guard.queue = item :: rest →
      Leaves guard ⟨.pop, item⟩ { guard with queue := rest } [.one .notFull]
  | len : Leaves guard ⟨.len, guard.queue.length⟩ guard []

variable {guard after : BoundedQueue T} {call : QueueCall T}

theorem waits_of_run {condition : QueueCondition}
    (ran : monitor.run call guard = (after, .wait condition)) :
    after = guard ∧ Waits guard call condition := by
  cases call with
  | push item =>
      simp only [monitor, push] at ran
      split at ran
      · rename_i full
        cases ran
        exact ⟨rfl, Waits.push full⟩
      · cases ran
  | pop =>
      simp only [monitor, pop] at ran
      split at ran
      · rename_i empty
        cases ran
        exact ⟨rfl, Waits.pop empty⟩
      · cases ran
  | len => cases ran

theorem leaves_of_run {result : QueueResult call}
    {notifications : List (Notification QueueCondition)}
    (ran : monitor.run call guard = (after, .leave result notifications)) :
    Leaves guard ⟨call, result⟩ after notifications := by
  cases call with
  | push item =>
      simp only [monitor, push] at ran
      split at ran
      · cases ran
      · rename_i room
        cases ran
        exact Leaves.push (Nat.lt_of_not_le room)
  | pop =>
      simp only [monitor, pop] at ran
      split at ran
      · cases ran
      · rename_i item rest holds
        cases ran
        exact Leaves.pop holds
  | len =>
      cases ran
      exact Leaves.len

/-! ## Order and capacity -/

/-- What the sections left so far say about the queue. -/
structure Ledger (capacity : Nat) (guard : BoundedQueue T)
    (past : List (QueueExchange T)) : Prop where
  order :
    past.filterMap popped? ++ guard.queue =
      (past.map Sigma.fst).filterMap pushed?
  bounded : guard.queue.length ≤ guard.capacity
  sameCapacity : guard.capacity = capacity
  positive : 0 < capacity

variable {capacity : Nat} {past : List (QueueExchange T)}

theorem ledger_new (created : new capacity = some guard) :
    Ledger capacity guard [] := by
  simp only [new, Option.ite_none_right_eq_some, Option.some.injEq] at created
  obtain ⟨positive, rfl⟩ := created
  exact ⟨rfl, Nat.zero_le capacity, rfl, positive⟩

theorem Ledger.leave (ledger : Ledger capacity guard past)
    {exchange : QueueExchange T}
    {notifications : List (Notification QueueCondition)}
    (leaves : Leaves guard exchange after notifications) :
    Ledger capacity after (past ++ [exchange]) := by
  obtain ⟨order, bounded, sameCapacity, positive⟩ := ledger
  cases leaves with
  | push room =>
      refine ⟨?_, ?_, sameCapacity, positive⟩
      · simp [popped?, pushed?, ← order]
      · simpa using room
  | pop holds =>
      rw [holds] at order bounded
      refine ⟨?_, Nat.le_of_succ_le bounded, sameCapacity, positive⟩
      simpa [List.filterMap_cons, popped?, pushed?] using order
  | len =>
      refine ⟨?_, bounded, sameCapacity, positive⟩
      simpa [List.filterMap_cons, popped?, pushed?] using order

variable {n : Nat} {calls : Fin n → List (QueueCall T)} {world : QueueWorld T n}

theorem ledger_of_reachable
    (reachable : (system capacity calls).Reachable Monitor.Exclusive world) :
    Ledger capacity world.state.state (monitor.sections world.trace) := by
  refine Monitor.sections_invariant reachable (Ledger capacity) ?_ ?_ ?_
  · intro guard created
    exact ledger_new created
  · intro call guard slept condition past ledger ran
    rw [(waits_of_run ran).1]
    exact ledger
  · intro call guard after result notifications past ledger ran
    exact ledger.leave (leaves_of_run ran)

/-! ## Wake-ups -/

/-- How many threads asleep on the condition could go on. -/
def available : QueueCondition → BoundedQueue T → Nat
  | .notFull, guard => guard.capacity - guard.queue.length
  | .notEmpty, guard => guard.queue.length

/-- A section pays for what it makes available. -/
theorem Leaves.pays {exchange : QueueExchange T}
    {notifications : List (Notification QueueCondition)}
    (leaves : Leaves guard exchange after notifications)
    (condition : QueueCondition) :
    available condition after + demand waitsOn exchange.1 condition ≤
      available condition guard + notifications.count (.one condition) := by
  cases leaves with
  | push room =>
      cases condition with
      | notFull =>
          simp [available, demand, waitsOn]
          omega
      | notEmpty => simp [available, demand, waitsOn]
  | pop holds =>
      cases condition with
      | notFull =>
          simp [available, demand, waitsOn, holds]
          omega
      | notEmpty => simp [available, demand, waitsOn, holds]
  | len => cases condition <;> simp [demand, waitsOn]

theorem supplied :
    (@monitor T).Supplied (fun guard => guard.queue.length ≤ guard.capacity)
      waitsOn (fun condition guard => available condition guard) where
  keeps call guard bounded := by
    cases ran : monitor.run call guard with
    | mk after outcome =>
        cases outcome with
        | wait condition =>
            rw [(waits_of_run ran).1]
            exact bounded
        | leave result notifications =>
            cases leaves_of_run ran with
            | push room => simpa using room
            | pop holds =>
                rw [holds] at bounded
                exact Nat.le_of_succ_le bounded
            | len => exact bounded
  waits call guard slept condition bounded ran := by
    obtain ⟨rfl, waits⟩ := waits_of_run ran
    cases waits with
    | push full => simp [waitsOn, available, full]
    | pop empty => simp [waitsOn, available, empty]
  leaves call guard after result notifications condition bounded ran :=
    Or.inr (by exact_mod_cast (leaves_of_run ran).pays condition)

/-- No item is lost, duplicated or overtaken, and the capacity is respected. -/
theorem queue_fifo
    (reachable : (system capacity calls).Reachable Monitor.Exclusive world) :
    (monitor.sections world.trace).filterMap popped? ++ world.state.state.queue =
        ((monitor.sections world.trace).map Sigma.fst).filterMap pushed? ∧
      world.state.state.queue.length ≤ capacity := by
  have ledger := ledger_of_reachable reachable
  exact ⟨ledger.order, ledger.sameCapacity ▸ ledger.bounded⟩

/-! ## When a run can be completed -/

/-- The thread puts items in, or takes items out, but not both. -/
def OneRole (program : List (QueueCall T)) : Prop :=
  .pop ∉ program ∨ ∀ item, .push item ∉ program

def isPush (call : QueueCall T) : Bool :=
  (pushed? call).isSome

def isPop : QueueCall T → Bool
  | .pop => true
  | _ => false

/-- How many items the programs put in. -/
def pushes (calls : Fin n → List (QueueCall T)) : Nat :=
  (gathered calls).countP fun call => isPush call

/-- How many items the programs take out. -/
def pops (calls : Fin n → List (QueueCall T)) : Nat :=
  (gathered calls).countP fun call => isPop call

/-- No thread can take a step, as long as the lock is respected. -/
def Stopped (pool : QueuePool T n) : Prop :=
  ∀ label, (∀ thread, label ≠ .wake thread) →
    Monitor.Exclusive pool label → monitor.exec pool label = none

/-- The calls of the sections, and those that are left. -/
theorem counts_of_reachable
    (reachable : (system capacity calls).Reachable Monitor.Exclusive world) :
    ∃ left, world.state.Follows left ∧
      (∀ thread, left thread <:+ calls thread) ∧
      pushes calls + pops left =
        pops calls + world.state.state.queue.length + pushes left := by
  obtain ⟨left, follows, isSuffix, accounted⟩ :=
    Monitor.calls_accounted reachable
  refine ⟨left, follows, isSuffix, ?_⟩
  have order := congrArg List.length (ledger_of_reachable reachable).order
  have split (wanted : QueueCall T → Bool) :
      ((monitor.sections world.trace).map Sigma.fst).countP wanted +
          (gathered left).countP (fun call => wanted call) =
        (gathered calls).countP fun call => wanted call := by
    rw [← accounted, Multiset.countP_add, Multiset.coe_countP]
    simp only [Bool.decide_eq_true]
  have putIn := split isPush
  have takenOut := split isPop
  have popped :
      ((monitor.sections world.trace).filterMap popped?).length =
        ((monitor.sections world.trace).map Sigma.fst).countP isPop := by
    rw [List.length_filterMap_eq_countP, List.countP_map]
    refine List.countP_congr fun exchange _ => ?_
    obtain ⟨call, result⟩ := exchange
    cases call <;> exact Iff.rfl
  have pushed :
      (((monitor.sections world.trace).map Sigma.fst).filterMap pushed?).length =
        ((monitor.sections world.trace).map Sigma.fst).countP isPush :=
    List.length_filterMap_eq_countP
  rw [List.length_append, popped, pushed] at order
  simp only [pushes, pops]
  omega

/-- When no thread can take a step, one that is asleep in `pop` has found the queue
empty, and one that is asleep in `push` has found it full. -/
theorem asleep_of_stopped
    (reachable : (system capacity calls).Reachable Monitor.Exclusive world)
    (stopped : Stopped world.state) {thread : Fin n} {call : QueueCall T}
    {condition : QueueCondition}
    {next : QueueResult call → Program (@QueueResult T)}
    (asleep : world.state.status thread = .asleep call condition next) :
    (call = .pop ∧ world.state.state.queue = []) ∨
      ((∃ item, call = .push item) ∧
        world.state.state.queue.length = capacity) := by
  have ledger := ledger_of_reachable reachable
  have accounted :
      world.state.Accounted (fun guard => guard.queue.length ≤ guard.capacity)
        waitsOn fun condition guard => available condition guard :=
    supplied.accounted (fun guard created => (ledger_new created).bounded)
      reachable
  obtain ⟨waitsThere, noSupply⟩ :=
    Monitor.no_supply_of_stuck accounted (Monitor.stuck_of_exclusive stopped) asleep
  cases call with
  | push item =>
      cases waitsThere
      have noRoom : available .notFull world.state.state = 0 := by
        exact_mod_cast noSupply
      have bounded := ledger.bounded
      have sameCapacity := ledger.sameCapacity
      simp only [available] at noRoom
      exact Or.inr ⟨⟨item, rfl⟩, by omega⟩
  | pop =>
      cases waitsThere
      have noItem : available .notEmpty world.state.state = 0 := by
        exact_mod_cast noSupply
      exact Or.inl ⟨rfl, List.length_eq_zero_iff.mp noItem⟩
  | len => cases waitsThere

/-- A thread with calls left is asleep in one of them. -/
theorem exists_blocked
    (reachable : (system capacity calls).Reachable Monitor.Exclusive world)
    (stopped : Stopped world.state) {left : Fin n → List (QueueCall T)}
    (follows : world.state.Follows left) {thread : Fin n} {call : QueueCall T}
    (member : call ∈ left thread) :
    ∃ slept, slept ∈ left thread ∧
      (slept = .pop ∧ world.state.state.queue = [] ∨
        (∃ item, slept = .push item) ∧ world.state.state.queue.length = capacity) := by
  have mine := follows thread
  have resting := (Monitor.stuck_of_exclusive stopped).resting thread
  rcases resting.finished_or_asleep with finished | ⟨slept, condition, next, asleep⟩
  · rw [finished] at mine
    rw [mine.of_done] at member
    cases member
  · rw [asleep] at mine
    exact ⟨slept, mine.of_asleep, asleep_of_stopped reachable stopped asleep⟩

section Left

variable {left : Fin n → List (QueueCall T)}

/-- Who has a call of `pop` left has none of `push`. -/
theorem pushes_eq_zero (roles : ∀ thread, OneRole (calls thread))
    (isSuffix : ∀ thread, left thread <:+ calls thread)
    (consumers : ∀ thread call, call ∈ left thread → .pop ∈ left thread) :
    pushes left = 0 := by
  refine countP_gathered_eq_zero fun thread call member => ?_
  rcases roles thread with noPop | noPush
  · exact absurd ((isSuffix thread).subset (consumers thread call member)) noPop
  · cases call with
    | push item => exact absurd ((isSuffix thread).subset member) (noPush item)
    | pop => rfl
    | len => rfl

theorem pops_eq_zero (roles : ∀ thread, OneRole (calls thread))
    (isSuffix : ∀ thread, left thread <:+ calls thread)
    (producers : ∀ thread call, call ∈ left thread → ∃ item, .push item ∈ left thread) :
    pops left = 0 := by
  refine countP_gathered_eq_zero fun thread call member => ?_
  rcases roles thread with noPop | noPush
  · cases call with
    | push item => rfl
    | pop => exact absurd ((isSuffix thread).subset member) noPop
    | len => rfl
  · obtain ⟨item, isPushing⟩ := producers thread call member
    exact absurd ((isSuffix thread).subset isPushing) (noPush item)

end Left

/-- A run of producers and consumers that cannot go on is completed if and only if no
more is taken out than is put in, and no more is left than the queue can hold. -/
theorem completes_iff
    (reachable : (system capacity calls).Reachable Monitor.Exclusive world)
    (roles : ∀ thread, OneRole (calls thread)) (stopped : Stopped world.state) :
    (∀ thread, world.state.status thread = .awake .done) ↔
      pops calls ≤ pushes calls ∧ pushes calls ≤ pops calls + capacity := by
  obtain ⟨left, follows, isSuffix, counts⟩ := counts_of_reachable reachable
  have ledger := ledger_of_reachable reachable
  have bounded := ledger.bounded
  have sameCapacity := ledger.sameCapacity
  have positive := ledger.positive
  constructor
  · intro done
    have nothingLeft (wanted : QueueCall T → Bool) :
        (gathered left).countP (fun call => wanted call) = 0 := by
      refine countP_gathered_eq_zero fun thread call member => ?_
      have here := follows thread
      rw [done thread] at here
      rw [here.of_done] at member
      cases member
    have noPush : pushes left = 0 := nothingLeft isPush
    have noPop : pops left = 0 := nothingLeft isPop
    omega
  · intro balanced thread
    have resting := (Monitor.stuck_of_exclusive stopped).resting thread
    rcases resting.finished_or_asleep with finished | ⟨call, condition, next, asleep⟩
    · exact finished
    have mine := follows thread
    rw [asleep] at mine
    -- whoever else has calls left is asleep on the same side
    rcases asleep_of_stopped reachable stopped asleep with
      ⟨rfl, empty⟩ | ⟨⟨item, rfl⟩, full⟩
    · have noPush : pushes left = 0 := by
        refine pushes_eq_zero roles isSuffix fun other call member => ?_
        obtain ⟨slept, own, ⟨rfl, _⟩ | ⟨_, full⟩⟩ :=
          exists_blocked reachable stopped follows member
        · exact own
        · rw [empty, List.length_nil] at full
          omega
      have aPop : 0 < pops left := countP_gathered_pos mine.of_asleep rfl
      rw [empty, List.length_nil] at counts
      omega
    · have noPop : pops left = 0 := by
        refine pops_eq_zero roles isSuffix fun other call member => ?_
        obtain ⟨slept, own, ⟨_, empty⟩ | ⟨⟨item, rfl⟩, _⟩⟩ :=
          exists_blocked reachable stopped follows member
        · rw [empty, List.length_nil] at full
          omega
        · exact ⟨item, own⟩
      have aPush : 0 < pushes left := countP_gathered_pos mine.of_asleep rfl
      omega

/-- A consumer that comes first, and a producer that has to wait for it. -/
def waitingCalls : Fin 2 → List (QueueCall Nat)
  | 0 => [.push 7, .push 8]
  | 1 => [.pop]

theorem exists_waitingRun :
    ∃ world : QueueWorld Nat 2,
      (system 1 waitingCalls).Reachable Monitor.Exclusive world ∧
        (∀ thread, (world.state.status thread).Resting) ∧
        world.state.state.queue = [8] := by
  obtain ⟨world, reachable, checked⟩ :=
    System.exists_reachable_of_replay (system 1 waitingCalls) Monitor.Exclusive
      (MonitorPool.start { queue := [], capacity := 1 } fun thread =>
        .ofList (waitingCalls thread))
      [.enter 1, .enter 0, .notify 0 (some 1), .finish 0, .enter 0, .enter 1,
        .notify 1 (some 0), .finish 1, .enter 0, .notify 0 none, .finish 0]
      (fun pool label => decide (Monitor.Exclusive pool label))
      (fun world =>
        decide ((∀ thread, (world.state.status thread).Resting) ∧
          world.state.state.queue = [8]))
      ⟨_, rfl, rfl⟩ (fun _ _ => of_decide_eq_true) (by decide +kernel)
  exact ⟨world, reachable, of_decide_eq_true checked⟩

theorem queue_fifo_waiting :
    ∃ world : QueueWorld Nat 2,
      (monitor.sections world.trace).filterMap popped? ++ [8] =
          ((monitor.sections world.trace).map Sigma.fst).filterMap pushed? ∧
        world.state.state.queue.length ≤ 1 := by
  obtain ⟨world, reachable, _, queue⟩ := exists_waitingRun
  exact ⟨world, queue ▸ queue_fifo reachable⟩

theorem completes_iff_waiting :
    ∃ world : QueueWorld Nat 2,
      Stopped world.state ∧
        ∀ thread, world.state.status thread = .awake .done := by
  obtain ⟨world, reachable, resting, _⟩ := exists_waitingRun
  have stopped : Stopped world.state := fun label noWakeUp _ =>
    Monitor.stuck_iff.mpr resting label noWakeUp
  have roles (thread : Fin 2) : OneRole (waitingCalls thread) := by
    match thread with
    | 0 => exact Or.inl (by decide)
    | 1 => exact Or.inr fun item => by simp [waitingCalls]
  exact ⟨world, stopped,
    (completes_iff reachable roles stopped).mpr (by decide)⟩

end BoundedQueue

end HautePerformance.Demos
