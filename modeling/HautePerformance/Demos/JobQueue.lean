import HautePerformance.Library.Atomic
import HautePerformance.Library.PoolBalance
import Mathlib.Data.UInt

/-!
# The bounded job queue

`demo_array_queue` of `demo07_lockfree_crossbeam.rs`: producers push their jobs into a
bounded lock-free queue and count those that it refuses; consumers take jobs until
they have found the queue empty and then the stop flag set.  The main thread sets the
flag once it has joined the producers, and adds up what the consumers return.

A consumer that has found the queue empty may read the flag much later.  Jobs that
came in between are left behind when every consumer does so, and the assertion at the
end of the demo then fails.

The counters are machine words that wrap around, those of the consumers as in a
release build; with fewer than `2 ^ 32` jobs they do not, and a debug build counts
alike.

The queue is that of `crossbeam`: `push` refuses an element only when the queue is
full, and `pop` returns nothing only when it is empty.
-/

namespace HautePerformance.Demos.JobQueue

open Library

/-- `crossbeam::queue::ArrayQueue`, the oldest element first. -/
structure ArrayQueue (capacity : Nat) (State : Type) where
  items : State → List String
  new : State
  push : String → State → State × Except String Unit
  pop : State → State × Option String
  items_new : items new = []
  of_push_ok : ∀ {item state after},
    push item state = (after, .ok ()) →
    items after = items state ++ [item] ∧ (items state).length < capacity
  of_push_error : ∀ {item returned state after},
    push item state = (after, .error returned) →
    items after = items state ∧ (items state).length = capacity
  of_pop_some : ∀ {item state after},
    pop state = (after, some item) → items state = item :: items after
  of_pop_none : ∀ {state after},
    pop state = (after, none) → items state = [] ∧ items after = []

structure Shared (State : Type) where
  queue : State
  dropped : UInt64
  stop : Atomic Bool
  /-- How late the next read of the flag is. -/
  weather : Weather

inductive JobCall where
  | producer (jobs : List String)
  | consumer
  | stop
  deriving DecidableEq, Repr

/-- Where a thread is in its loop. -/
inductive JobPosition : JobCall → Type
  | push {jobs : List String} (rest : List String) : JobPosition (.producer jobs)
  | drop {jobs : List String} (item : String) (rest : List String) :
      JobPosition (.producer jobs)
  | pop (count : UInt32) : JobPosition .consumer
  | check (count : UInt32) : JobPosition .consumer
  | store : JobPosition .stop

/-- A consumer returns its count. -/
def JobResult : JobCall → Type
  | .producer _ => Unit
  | .consumer => UInt32
  | .stop => Unit

abbrev JobPool (State : Type) :=
  Pool (Shared State) JobPosition JobResult

abbrev JobActivity :=
  Activity JobPosition

abbrev JobLabel :=
  PoolLabel JobCall Weather

abbrev JobWorld (State : Type) :=
  World (JobPool State) JobLabel

def JobCall.enter : (call : JobCall) → JobPosition call
  | .producer jobs => .push jobs
  | .consumer => .pop 0
  | .stop => .store

section Embedding

variable {capacity : Nat} {State : Type} (queue : ArrayQueue capacity State)

def step {call : JobCall} (shared : Shared State) :
    JobPosition call → Shared State × Next (JobPosition call) (JobResult call)
  | .push [] => (shared, .finish ())
  | .push (item :: rest) =>
      match queue.push item shared.queue with
      | (after, .ok _) => ({ shared with queue := after }, .goOn (.push rest))
      | (after, .error _) =>
          ({ shared with queue := after }, .goOn (.drop item rest))
  | .drop _ rest =>
      ({ shared with dropped := shared.dropped + 1 }, .goOn (.push rest))
  | .pop count =>
      match queue.pop shared.queue with
      | (after, some _) => ({ shared with queue := after }, .goOn (.pop (count + 1)))
      | (after, none) => ({ shared with queue := after }, .goOn (.check count))
  | .check count =>
      if shared.stop.load shared.weather then (shared, .finish count)
      else (shared, .goOn (.pop count))
  | .store => ({ shared with stop := shared.stop.store true }, .finish ())

def object : ConcurrentObject (Shared State) Weather JobPosition JobResult where
  enter := JobCall.enter
  step shared position := step queue shared position
  environment weather shared := { shared with weather := weather }

/-- A new queue, nothing dropped, and the flag not set. -/
def Starts (shared : Shared State) : Prop :=
  shared.queue = queue.new ∧ shared.dropped = 0 ∧ shared.stop = Atomic.new false

def system : System (JobPool State) JobLabel :=
  (object queue).system (Starts queue)

/-- The jobs in the queue of a pool. -/
def waiting (pool : JobPool State) : List String :=
  queue.items pool.shared.queue

end Embedding

/-! ## Counting jobs -/

/-- The jobs that a thread has not pushed or given up yet. -/
def carried : (call : JobCall) → JobPosition call → Multiset String
  | _, .push rest => rest
  | _, .drop item rest => (item :: rest : List String)
  | _, _ => 0

/-- The jobs that a thread brings. -/
def JobCall.jobs : JobCall → Multiset String
  | .producer jobs => jobs
  | _ => 0

/-- The job that a step takes out of the queue. -/
def consumedIn {capacity : Nat} {State : Type} (queue : ArrayQueue capacity State) :
    (call : JobCall) → Shared State → JobPosition call → Multiset String
  | _, shared, .pop _ =>
      match queue.pop shared.queue with
      | (_, some item) => {item}
      | (_, none) => 0
  | _, _, _ => 0

/-- The job that a step gives up. -/
def droppedIn {State : Type} :
    (call : JobCall) → Shared State → JobPosition call → Multiset String
  | _, _, .drop item _ => {item}
  | _, _, _ => 0

/-- The count of a consumer. -/
def counted : (call : JobCall) → JobPosition call → UInt32
  | _, .pop count => count
  | _, .check count => count
  | _, _ => 0

/-- The count that a consumer has returned. -/
def returnedCount : (call : JobCall) → JobResult call → UInt32
  | .consumer, count => count
  | .producer _, _ => 0
  | .stop, _ => 0

/-- A number of jobs as a consumer counts them. -/
def cardWord32 : Multiset String →+ UInt32 where
  toFun jobs := UInt32.ofNat (Multiset.card jobs)
  map_zero' := rfl
  map_add' left right := by rw [Multiset.card_add, UInt32.ofNat_add]

/-- A number of jobs as `dropped` counts them. -/
def cardWord64 : Multiset String →+ UInt64 where
  toFun jobs := UInt64.ofNat (Multiset.card jobs)
  map_zero' := rfl
  map_add' left right := by rw [Multiset.card_add, UInt64.ofNat_add]

/-! ## What a step can do -/

section Steps

variable {capacity : Nat} {State : Type}

inductive Steps (queue : ArrayQueue capacity State) (shared : Shared State) :
    {call : JobCall} → JobPosition call →
      Shared State × Next (JobPosition call) (JobResult call) → Prop
  | joined {jobs : List String} :
      Steps queue shared (.push [] : JobPosition (.producer jobs))
        (shared, .finish ())
  | pushed {jobs rest : List String} {item : String} {state : State} :
      queue.push item shared.queue = (state, .ok ()) →
      Steps queue shared (.push (item :: rest) : JobPosition (.producer jobs))
        ({ shared with queue := state }, .goOn (.push rest))
  | refused {jobs rest : List String} {item returned : String} {state : State} :
      queue.push item shared.queue = (state, .error returned) →
      Steps queue shared (.push (item :: rest) : JobPosition (.producer jobs))
        ({ shared with queue := state }, .goOn (.drop item rest))
  | dropped {jobs rest : List String} {item : String} :
      Steps queue shared (.drop item rest : JobPosition (.producer jobs))
        ({ shared with dropped := shared.dropped + 1 }, .goOn (.push rest))
  | taken {count : UInt32} {item : String} {state : State} :
      queue.pop shared.queue = (state, some item) →
      Steps queue shared (.pop count)
        ({ shared with queue := state }, .goOn (.pop (count + 1)))
  | emptied {count : UInt32} {state : State} :
      queue.pop shared.queue = (state, none) →
      Steps queue shared (.pop count)
        ({ shared with queue := state }, .goOn (.check count))
  | left {count : UInt32} :
      shared.stop.load shared.weather = true →
      Steps queue shared (.check count) (shared, .finish count)
  | again {count : UInt32} :
      Steps queue shared (.check count) (shared, .goOn (.pop count))
  | stopped :
      Steps queue shared .store
        ({ shared with stop := shared.stop.store true }, .finish ())

theorem steps_step (queue : ArrayQueue capacity State) (shared : Shared State)
    {call : JobCall} (position : JobPosition call) :
    Steps queue shared position (step queue shared position) := by
  cases position with
  | push rest =>
      cases rest with
      | nil => exact Steps.joined
      | cons item rest =>
          simp only [step]
          split
          · rename_i pushed
            exact Steps.pushed pushed
          · rename_i refused
            exact Steps.refused refused
  | drop item rest => exact Steps.dropped
  | pop count =>
      simp only [step]
      split
      · rename_i taken
        exact Steps.taken taken
      · rename_i emptied
        exact Steps.emptied emptied
  | check count =>
      simp only [step]
      split
      · rename_i isSet
        exact Steps.left isSet
      · exact Steps.again
  | store => exact Steps.stopped

variable {queue : ArrayQueue capacity State} {shared : Shared State}
variable {call : JobCall} {position : JobPosition call}
variable {after : Shared State × Next (JobPosition call) (JobResult call)}

/-- Where the jobs go in a step. -/
theorem Steps.jobs (steps : Steps queue shared position after) :
    (queue.items after.1.queue : Multiset String) +
        after.2.weight (carried call) (fun _ => 0) +
        (consumedIn queue call shared position + droppedIn call shared position) =
      queue.items shared.queue + carried call position := by
  cases steps with
  | joined => exact add_zero _
  | @pushed jobs rest item state pushed =>
      obtain ⟨items, _⟩ := queue.of_push_ok pushed
      show (queue.items state : Multiset String) + (rest : Multiset String) + (0 + 0) =
        (queue.items shared.queue : Multiset String) +
          ({item} + (rest : Multiset String))
      rw [items, ← Multiset.coe_add, ← Multiset.coe_singleton]
      abel
  | @refused jobs rest item returned state refused =>
      obtain ⟨items, _⟩ := queue.of_push_error refused
      show (queue.items state : Multiset String) + _ + (0 + 0) = _
      rw [items, add_zero, add_zero]
      rfl
  | @dropped jobs rest item =>
      show (queue.items shared.queue : Multiset String) + (rest : Multiset String) +
          (0 + {item}) =
        (queue.items shared.queue : Multiset String) +
          ({item} + (rest : Multiset String))
      abel
  | @taken count item state taken =>
      have items := queue.of_pop_some taken
      have isTaken : consumedIn queue .consumer shared (.pop count) = {item} := by
        simp [consumedIn, taken]
      rw [isTaken, items]
      show (queue.items state : Multiset String) + 0 + ({item} + 0) =
        {item} + (queue.items state : Multiset String) + 0
      abel
  | @emptied count state emptied =>
      obtain ⟨before, items⟩ := queue.of_pop_none emptied
      have noneTaken : consumedIn queue .consumer shared (.pop count) = 0 := by
        simp [consumedIn, emptied]
      rw [noneTaken, before]
      show (queue.items state : Multiset String) + 0 + (0 + 0) = 0 + 0
      rw [items]
      rfl
  | left _ => exact add_zero _
  | again => exact add_zero _
  | stopped => exact add_zero _

/-- The count of a consumer goes up with the jobs that it takes. -/
theorem Steps.counts (steps : Steps queue shared position after) :
    after.2.weight (counted call) (returnedCount call) =
      counted call position + cardWord32 (consumedIn queue call shared position) := by
  have nothing (count : UInt32) (jobs : Multiset String) (none : jobs = 0) :
      count = count + cardWord32 jobs := by
    rw [none, map_zero, add_zero]
  cases steps with
  | joined => exact nothing _ _ rfl
  | pushed _ => exact nothing _ _ rfl
  | refused _ => exact nothing _ _ rfl
  | dropped => exact nothing _ _ rfl
  | @taken count item state taken =>
      have isTaken : consumedIn queue .consumer shared (.pop count) = {item} := by
        simp [consumedIn, taken]
      rw [isTaken]
      rfl
  | @emptied count state emptied =>
      exact nothing _ _ (by simp [consumedIn, emptied])
  | left _ => exact nothing _ _ rfl
  | again => exact nothing _ _ rfl
  | stopped => exact nothing _ _ rfl

/-- The count of dropped jobs goes up with the jobs that a producer gives up. -/
theorem Steps.drops (steps : Steps queue shared position after) :
    after.1.dropped =
      shared.dropped + cardWord64 (droppedIn call shared position) := by
  have nothing : shared.dropped = shared.dropped + cardWord64 0 := by
    rw [map_zero, add_zero]
  cases steps with
  | joined => exact nothing
  | pushed _ => exact nothing
  | refused _ => exact nothing
  | dropped => rfl
  | taken _ => exact nothing
  | emptied _ => exact nothing
  | left _ => exact nothing
  | again => exact nothing
  | stopped => exact nothing

theorem Steps.bounded (steps : Steps queue shared position after)
    (bounded : (queue.items shared.queue).length ≤ capacity) :
    (queue.items after.1.queue).length ≤ capacity := by
  cases steps with
  | joined => exact bounded
  | pushed pushed =>
      obtain ⟨items, room⟩ := queue.of_push_ok pushed
      rw [items, List.length_append]
      exact room
  | refused refused =>
      rw [(queue.of_push_error refused).1]
      exact bounded
  | dropped => exact bounded
  | taken taken =>
      rw [queue.of_pop_some taken] at bounded
      exact Nat.le_of_succ_le bounded
  | emptied emptied =>
      rw [(queue.of_pop_none emptied).2]
      exact Nat.zero_le capacity
  | left _ => exact bounded
  | again => exact bounded
  | stopped => exact bounded

end Steps

/-! ## Every job is accounted for -/

section Runs

variable {capacity : Nat} {State : Type}

/-- The jobs that the producers have brought. -/
def produced (world : JobWorld State) : Multiset String :=
  world.total fun _ label => Pool.brought JobCall.jobs label

def consumed (queue : ArrayQueue capacity State) (world : JobWorld State) :
    Multiset String :=
  world.total (Pool.atStep (consumedIn queue))

def dropped (world : JobWorld State) : Multiset String :=
  world.total (Pool.atStep droppedIn)

/-- The jobs that producers have not come to yet. -/
def pending (pool : JobPool State) : Multiset String :=
  pool.heldBy carried

/-- `total_consumed`, once all consumers are joined. -/
def totalConsumed (pool : JobPool State) : UInt32 :=
  pool.returnedBy returnedCount

/-- The assertion at the end of the demo, which has 60 jobs. -/
def AssertionHolds (world : JobWorld State) : Prop :=
  (totalConsumed world.state).toUInt64 + world.state.shared.dropped =
    UInt64.ofNat (Multiset.card (produced world))

variable {queue : ArrayQueue capacity State} {shared : Shared State}
variable {allowed : JobPool State → JobLabel → Prop} {world : JobWorld State}

/-- The assertion compares the numbers themselves when they are small. -/
theorem assertionHolds_iff
    (counters : (totalConsumed world.state).toNat +
      world.state.shared.dropped.toNat < 2 ^ 64)
    (fits : Multiset.card (produced world) < 2 ^ 64) :
    AssertionHolds world ↔
      (totalConsumed world.state).toNat + world.state.shared.dropped.toNat =
        Multiset.card (produced world) := by
  rw [AssertionHolds, ← UInt64.toNat_inj, UInt64.toNat_add,
    UInt32.toNat_toUInt64, UInt64.toNat_ofNat_of_lt' fits,
    Nat.mod_eq_of_lt counters]

theorem Starts.items (starts : Starts queue shared) :
    queue.items shared.queue = [] := by
  rw [starts.1]
  exact queue.items_new

theorem jobs_balanced (queue : ArrayQueue capacity State) :
    Balanced (object queue)
      (fun shared => (queue.items shared.queue : Multiset String)) carried
      (fun _ _ => 0) JobCall.jobs (fun _ _ _ => 0)
      (fun call shared position =>
        consumedIn queue call shared position + droppedIn call shared position)
      allowed where
  enter call := by
    cases call <;> rfl
  environment _ _ := rfl
  step {pool _ activity} _ _ := by
    intro after
    rw [add_zero]
    exact (steps_step queue pool.shared activity.position).jobs

theorem counts_balanced (queue : ArrayQueue capacity State) :
    Balanced (object queue) (fun _ => 0) counted returnedCount (fun _ => 0)
      (fun call shared position =>
        cardWord32 (consumedIn queue call shared position))
      (fun _ _ _ => 0) allowed where
  enter call := by
    cases call <;> rfl
  environment _ _ := rfl
  step {pool _ activity} _ _ := by
    intro after
    rw [zero_add, zero_add, add_zero]
    exact (steps_step queue pool.shared activity.position).counts

theorem drops_balanced (queue : ArrayQueue capacity State) :
    Balanced (object queue) Shared.dropped (fun _ _ => 0) (fun _ _ => 0)
      (fun _ => 0)
      (fun call shared position => cardWord64 (droppedIn call shared position))
      (fun _ _ _ => 0) allowed where
  enter _ := rfl
  environment _ _ := rfl
  step {pool _ activity} _ _ := by
    intro after
    have noShare : after.2.weight (fun _ => (0 : UInt64)) (fun _ => 0) = 0 := by
      cases after.2 <;> rfl
    rw [noShare, add_zero, add_zero, add_zero]
    exact (steps_step queue pool.shared activity.position).drops

/-- Each job is waiting for its producer, in the queue, taken out once by a consumer
or given up once. -/
theorem jobs_placed (reachable : (system queue).Reachable allowed world) :
    (waiting queue world.state : Multiset String) + pending world.state +
      (consumed queue world + dropped world) = produced world := by
  have initial (shared : Shared State) (starts : Starts queue shared) :
      (queue.items shared.queue : Multiset String) = 0 := by
    rw [starts.items]
    rfl
  have balance := (jobs_balanced queue).balance_closed initial reachable
  rwa [Pool.shares_zero, zero_add, Pool.total_atStep_add] at balance

/-- The counts of the consumers, and those that they have returned. -/
theorem counts_placed (reachable : (system queue).Reachable allowed world) :
    world.state.shares counted returnedCount =
      cardWord32 (consumed queue world) := by
  have balance :=
    (counts_balanced queue).balance_open (fun _ _ => rfl) reachable
  have measured := World.map_total cardWord32 (Pool.atStep (consumedIn queue)) world
  simp only [Pool.map_atStep] at measured
  rw [zero_add, zero_add] at balance
  rw [balance, consumed, measured]

theorem dropped_eq (reachable : (system queue).Reachable allowed world) :
    world.state.shared.dropped = cardWord64 (dropped world) := by
  have initial (shared : Shared State) (starts : Starts queue shared) :
      shared.dropped = 0 := starts.2.1
  have balance := (drops_balanced queue).balance_open initial reachable
  have measured := World.map_total cardWord64 (Pool.atStep droppedIn) world
  simp only [Pool.map_atStep] at measured
  have noShares :
      world.state.shares (fun _ _ => (0 : UInt64)) (fun _ _ => 0) = 0 := by
    rw [Pool.shares_zero, Pool.heldBy_zero]
  rw [noShares, add_zero, zero_add] at balance
  rw [balance, dropped, measured]

theorem totalConsumed_eq (reachable : (system queue).Reachable allowed world)
    (rest : world.state.AtRest) :
    totalConsumed world.state = cardWord32 (consumed queue world) := by
  have counts := counts_placed reachable
  rwa [Pool.shares, Pool.heldBy_of_atRest _ rest, zero_add] at counts

theorem length_waiting_le (reachable : (system queue).Reachable allowed world) :
    (waiting queue world.state).length ≤ capacity := by
  refine reachable.state_invariant
    (fun pool => (waiting queue pool).length ≤ capacity) ?_ ?_
  · rintro pool ⟨shared, starts, rfl⟩
    show (queue.items shared.queue).length ≤ capacity
    rw [starts.items]
    exact Nat.zero_le capacity
  · intro label source target bounded _ executed
    have moves := ConcurrentObject.moves_of_exec executed
    rcases moves.shared_cases with
      same | ⟨thread, activity, _, _, stepped⟩ | ⟨event, disturbed⟩
    · rw [waiting, same]
      exact bounded
    · rw [waiting, stepped]
      exact (steps_step queue source.shared activity.position).bounded bounded
    · rw [waiting, disturbed]
      exact bounded

/-- A job that nobody holds any more is in the queue, consumed or dropped. -/
theorem jobs_at_rest (reachable : (system queue).Reachable allowed world)
    (rest : world.state.AtRest) :
    (waiting queue world.state : Multiset String) +
      (consumed queue world + dropped world) = produced world := by
  have nonePending : pending world.state = 0 := Pool.heldBy_of_atRest _ rest
  have placed := jobs_placed reachable
  rwa [nonePending, add_zero] at placed

/-- The counters of a run with fewer than `2 ^ 32` jobs have not wrapped around. -/
theorem counted_exactly (reachable : (system queue).Reachable allowed world)
    (rest : world.state.AtRest)
    (fits : Multiset.card (produced world) < 2 ^ 32) :
    (totalConsumed world.state).toNat = Multiset.card (consumed queue world) ∧
      world.state.shared.dropped.toNat = Multiset.card (dropped world) := by
  have cards := congrArg Multiset.card (jobs_at_rest reachable rest)
  rw [Multiset.card_add, Multiset.card_add] at cards
  have fewConsumed : Multiset.card (consumed queue world) < 2 ^ 32 := by omega
  have fewDropped : Multiset.card (dropped world) < 2 ^ 64 := by omega
  constructor
  · rw [totalConsumed_eq reachable rest]
    exact UInt32.toNat_ofNat_of_lt' fewConsumed
  · rw [dropped_eq reachable]
    exact UInt64.toNat_ofNat_of_lt' fewDropped

/-- What is consumed and dropped is short of what was produced by what is left. -/
theorem counters_add_waiting (reachable : (system queue).Reachable allowed world)
    (rest : world.state.AtRest)
    (fits : Multiset.card (produced world) < 2 ^ 32) :
    (totalConsumed world.state).toNat + world.state.shared.dropped.toNat +
        (waiting queue world.state).length =
      Multiset.card (produced world) := by
  obtain ⟨consumes, drops⟩ := counted_exactly reachable rest fits
  have cards := congrArg Multiset.card (jobs_at_rest reachable rest)
  rw [Multiset.card_add, Multiset.card_add, Multiset.coe_card] at cards
  omega

theorem assertion_iff (reachable : (system queue).Reachable allowed world)
    (rest : world.state.AtRest)
    (fits : Multiset.card (produced world) < 2 ^ 32) :
    AssertionHolds world ↔ waiting queue world.state = [] := by
  have total := counters_add_waiting reachable rest fits
  rw [assertionHolds_iff (by omega) (by omega), ← List.length_eq_zero_iff]
  omega

/-- Every job is accounted for: in the queue, which keeps its capacity, with its
producer, consumed once or dropped once.  When all threads have returned, the counters
say how many have been consumed and dropped, as far as their words hold the numbers.
With fewer than `2 ^ 32` jobs they do; what is consumed and dropped is then short of
what was produced by the jobs left in the queue, so the assertion of the demo holds if
there are none, and only then. -/
theorem jobs_accounted (reachable : (system queue).Reachable allowed world) :
    (waiting queue world.state : Multiset String) + pending world.state +
        (consumed queue world + dropped world) = produced world ∧
      (waiting queue world.state).length ≤ capacity ∧
      (world.state.AtRest →
        (waiting queue world.state : Multiset String) +
            (consumed queue world + dropped world) = produced world ∧
          totalConsumed world.state =
            UInt32.ofNat (Multiset.card (consumed queue world)) ∧
          world.state.shared.dropped =
            UInt64.ofNat (Multiset.card (dropped world)) ∧
          (Multiset.card (produced world) < 2 ^ 32 →
            (totalConsumed world.state).toNat +
                world.state.shared.dropped.toNat +
                (waiting queue world.state).length =
              Multiset.card (produced world) ∧
            (AssertionHolds world ↔ waiting queue world.state = []))) := by
  refine ⟨jobs_placed reachable, length_waiting_le reachable, ?_⟩
  intro rest
  refine ⟨jobs_at_rest reachable rest, totalConsumed_eq reachable rest,
    dropped_eq reachable, ?_⟩
  intro fits
  exact ⟨counters_add_waiting reachable rest fits, assertion_iff reachable rest fits⟩

end Runs

/-! ## When nothing is left behind -/

def IsProducer (activity : JobActivity) : Prop :=
  match activity.call with
  | .producer _ => True
  | _ => False

/-- A consumer that is about to look at the queue. -/
def AboutToPop (activity : JobActivity) : Prop :=
  match activity with
  | ⟨.consumer, _, .pop _⟩ => True
  | _ => False

instance (activity : JobActivity) : Decidable (IsProducer activity) :=
  match activity with
  | ⟨.producer _, _, _⟩ => isTrue trivial
  | ⟨.consumer, _, _⟩ => isFalse not_false
  | ⟨.stop, _, _⟩ => isFalse not_false

instance (activity : JobActivity) : Decidable (AboutToPop activity) :=
  match activity with
  | ⟨.consumer, _, .pop _⟩ => isTrue trivial
  | ⟨.consumer, _, .check _⟩ => isFalse not_false
  | ⟨.producer _, _, _⟩ => isFalse not_false
  | ⟨.stop, _, _⟩ => isFalse not_false

section Draining

variable {capacity : Nat} {State : Type}

/-- Some consumer is about to look at the queue. -/
def SomeAboutToPop (pool : JobPool State) : Prop :=
  ¬ pool.All fun activity => ¬ AboutToPop activity

/-- All producers have returned. -/
def NoProducer (pool : JobPool State) : Prop :=
  pool.All fun activity => ¬ IsProducer activity

instance (pool : JobPool State) : Decidable (SomeAboutToPop pool) :=
  inferInstanceAs (Decidable (¬ _))

instance (pool : JobPool State) : Decidable (NoProducer pool) :=
  inferInstanceAs (Decidable (Pool.All _ _))

/-- The main thread sets the flag when it has joined the producers, and at that moment
some consumer is about to look at the queue. -/
def StopsInTime (pool : JobPool State) : JobLabel → Prop
  | .call _ (.producer _) => pool.shared.stop.value = false
  | .call _ _ => True
  | .run thread =>
      ∀ activity, activity ∈ pool.activity? thread → activity.call = .stop →
        NoProducer pool ∧ SomeAboutToPop pool
  | .environment _ => True

instance (pool : JobPool State) (label : JobLabel) :
    Decidable (StopsInTime pool label) :=
  match label with
  | .call _ (.producer _) => inferInstanceAs (Decidable (_ = false))
  | .call _ .consumer => isTrue trivial
  | .call _ .stop => isTrue trivial
  | .run thread =>
      inferInstanceAs
        (Decidable (∀ activity, activity ∈ pool.activity? thread → _))
  | .environment _ => isTrue trivial

theorem someAboutToPop_of_running {pool : JobPool State} {thread : Nat}
    {activity : JobActivity} (running : pool.activity? thread = some activity)
    (aboutToPop : AboutToPop activity) : SomeAboutToPop pool :=
  fun none => none.at running aboutToPop

theorem exists_aboutToPop {pool : JobPool State}
    (some : SomeAboutToPop pool) :
    ∃ thread activity,
      pool.activity? thread = .some activity ∧ AboutToPop activity := by
  simp only [SomeAboutToPop, Pool.All, not_forall, not_not] at some
  obtain ⟨⟨thread, activity⟩, member, aboutToPop⟩ := some
  exact ⟨thread, activity, AList.mem_lookup_iff.mpr member, aboutToPop⟩

theorem noProducer_iff {pool : JobPool State} :
    NoProducer pool ↔ ∀ thread activity,
      pool.activity? thread = some activity → ¬ IsProducer activity := by
  constructor
  · intro all thread activity running
    exact all.at running
  · rintro each ⟨thread, activity⟩ member
    exact each thread activity (AList.mem_lookup_iff.mpr member)

variable {queue : ArrayQueue capacity State}

/-- Once the flag is set no job comes any more, and as long as the queue holds one,
some consumer is about to look at it. -/
def Draining (queue : ArrayQueue capacity State) (pool : JobPool State) : Prop :=
  pool.shared.stop.value = true →
    NoProducer pool ∧ (waiting queue pool = [] ∨ SomeAboutToPop pool)

variable {source target : JobPool State} {label : JobLabel}

theorem noProducer_of_moves (moves : (object queue).Moves source label target)
    (none : NoProducer source)
    (noneBegins : ∀ thread jobs, label ≠ .call thread (.producer jobs)) :
    NoProducer target := by
  rw [noProducer_iff] at none ⊢
  intro thread activity running
  rcases moves.running_cases running with
    ⟨before, _⟩ | ⟨call, rfl, _, rfl⟩ | ⟨earlier, _, _, _, before, _, _, rfl⟩
  · exact none thread activity before
  · cases call with
    | producer jobs => exact absurd rfl (noneBegins thread jobs)
    | consumer => exact not_false
    | stop => exact not_false
  · exact none thread earlier before

/-- A consumer that is about to look at the queue still is after the move of another
thread. -/
theorem someAboutToPop_of_moves (moves : (object queue).Moves source label target)
    (some : SomeAboutToPop source)
    (notMover : ∀ thread activity, label = .run thread →
      source.activity? thread = .some activity → ¬ AboutToPop activity) :
    SomeAboutToPop target := by
  obtain ⟨thread, activity, running, aboutToPop⟩ := exists_aboutToPop some
  have stays := moves.activity_kept running fun same =>
    notMover thread activity same running aboutToPop
  exact someAboutToPop_of_running stays aboutToPop

theorem steps_of_step {shared : Shared State} {activity : JobActivity}
    {after : Shared State × Next (JobPosition activity.call) (JobResult activity.call)}
    (stepped : (object queue).step shared activity.position = after) :
    Steps queue shared activity.position after :=
  stepped ▸ steps_step queue shared activity.position

/-- The steps of a consumer, and those of the main thread. -/
theorem draining_of_run {thread : Nat}
    (admitted : StopsInTime source (.run thread)) (draining : Draining queue source)
    (moves : (object queue).Moves source (.run thread) target) :
    Draining queue target := by
  intro isSet
  have noneBegins (other : Nat) (jobs : List String) :
      (PoolLabel.run thread : JobLabel) ≠ .call other (.producer jobs) := by
    simp
  have others (notAbout : ∀ activity, source.activity? thread = some activity →
      ¬ AboutToPop activity) (some : SomeAboutToPop source) : SomeAboutToPop target :=
    someAboutToPop_of_moves moves some fun mover activity same running =>
      notAbout activity (by cases same; exact running)
  have whole := moves
  cases moves with
  | @advance _ activity shared position running stepped =>
      have steps := steps_of_step stepped
      obtain ⟨call, began, here⟩ := activity
      have wasSet : source.shared.stop.value = true := by
        cases steps <;> exact isSet
      obtain ⟨none, drained⟩ := draining wasSet
      refine ⟨noProducer_of_moves whole none noneBegins, ?_⟩
      have moved : (source.advance thread ⟨call, began, here⟩ shared
          position).activity? thread = some ⟨call, began, position⟩ :=
        AList.lookup_insert _
      cases steps with
      | pushed _ => exact absurd trivial (none.at running)
      | refused _ => exact absurd trivial (none.at running)
      | dropped => exact absurd trivial (none.at running)
      | taken _ => exact Or.inr (someAboutToPop_of_running moved trivial)
      | emptied emptied => exact Or.inl (queue.of_pop_none emptied).2
      | again => exact Or.inr (someAboutToPop_of_running moved trivial)
  | @finish _ activity shared result running stepped =>
      have steps := steps_of_step stepped
      have admitted := admitted activity running
      obtain ⟨call, began, here⟩ := activity
      have notAbout (notPop : ¬ AboutToPop ⟨call, began, here⟩)
          (mover : JobActivity) (isMover : source.activity? thread = some mover) :
          ¬ AboutToPop mover := by
        rw [running] at isMover
        cases isMover
        exact notPop
      cases steps with
      | joined =>
          exact absurd trivial ((draining isSet).1.at running)
      | left _ =>
          obtain ⟨none, drained⟩ := draining isSet
          refine ⟨noProducer_of_moves whole none noneBegins, ?_⟩
          rcases drained with empty | some
          · exact Or.inl empty
          · exact Or.inr (others (notAbout not_false) some)
      | stopped =>
          obtain ⟨none, some⟩ := admitted rfl
          exact ⟨noProducer_of_moves whole none noneBegins,
            Or.inr (others (notAbout not_false) some)⟩

theorem draining_of_moves (admitted : StopsInTime source label)
    (draining : Draining queue source)
    (moves : (object queue).Moves source label target) : Draining queue target := by
  cases label with
  | run thread => exact draining_of_run admitted draining moves
  | call thread call =>
      have whole := moves
      cases moves with
      | call free =>
          intro isSet
          have wasSet : source.shared.stop.value = true := isSet
          obtain ⟨none, drained⟩ := draining wasSet
          refine ⟨noProducer_of_moves whole none ?_, ?_⟩
          · intro other jobs same
            cases same
            have notSet : source.shared.stop.value = false := admitted
            rw [wasSet] at notSet
            cases notSet
          · rcases drained with empty | some
            · exact Or.inl empty
            · exact Or.inr
                (someAboutToPop_of_moves whole some fun _ _ same => by cases same)
  | environment event =>
      cases moves with
      | environment => exact draining

variable {world : JobWorld State}

/-- If some consumer is about to look at the queue when the flag is set, no job is left
behind, and the assertion of the demo holds as far as the words of the counters hold
the number of jobs. -/
theorem nothing_left_behind
    (reachable : (system queue).Reachable StopsInTime world)
    (isSet : world.state.shared.stop.value = true) (rest : world.state.AtRest) :
    waiting queue world.state = [] ∧
      (Multiset.card (produced world) < 2 ^ 32 → AssertionHolds world) := by
  have draining : Draining queue world.state := by
    refine reachable.state_invariant (Draining queue) ?_ ?_
    · rintro pool ⟨shared, ⟨_, _, notSet⟩, rfl⟩ isSet
      rw [show (Pool.idle shared : JobPool State).shared.stop = _ from notSet] at isSet
      cases isSet
    · intro label source target draining admitted executed
      exact draining_of_moves admitted draining
        (ConcurrentObject.moves_of_exec executed)
  have empty : waiting queue world.state = [] := by
    rcases (draining isSet).2 with empty | some
    · exact empty
    · obtain ⟨thread, activity, running, _⟩ := exists_aboutToPop some
      have member := AList.mem_lookup_iff.mp running
      rw [show world.state.running.entries = [] from rest] at member
      cases member
  refine ⟨empty, fun fits => ?_⟩
  exact (assertion_iff reachable rest fits).mpr empty

end Draining

/-! ## Two runs -/

/-- The queue as a list that keeps the capacity. -/
def listQueue (capacity : Nat) :
    ArrayQueue capacity { items : List String // items.length ≤ capacity } where
  items := Subtype.val
  new := ⟨[], Nat.zero_le capacity⟩
  push item state :=
    if room : state.1.length < capacity then
      (⟨state.1 ++ [item], by rw [List.length_append]; exact room⟩, .ok ())
    else (state, .error item)
  pop
    | ⟨[], bounded⟩ => (⟨[], bounded⟩, none)
    | ⟨item :: rest, bounded⟩ => (⟨rest, Nat.le_of_succ_le bounded⟩, some item)
  items_new := rfl
  of_push_ok := by
    intro item state after pushed
    split at pushed
    · rename_i room
      cases pushed
      exact ⟨rfl, room⟩
    · cases pushed
  of_push_error := by
    intro item returned state after refused
    split at refused
    · cases refused
    · rename_i full
      cases refused
      exact ⟨rfl, Nat.le_antisymm state.2 (Nat.le_of_not_lt full)⟩
  of_pop_some := by
    rintro item ⟨items, bounded⟩ after taken
    cases items with
    | nil => cases taken
    | cons first rest =>
        cases taken
        rfl
  of_pop_none := by
    rintro ⟨items, bounded⟩ after emptied
    cases items with
    | nil =>
        cases emptied
        exact ⟨rfl, rfl⟩
    | cons first rest => cases emptied

def startingShared (capacity : Nat) :
    Shared { items : List String // items.length ≤ capacity } where
  queue := (listQueue capacity).new
  dropped := 0
  stop := Atomic.new false
  weather := { spurious := false, lag := 0 }

/-- The consumer finds the queue empty before the producer comes, and reads the flag
after it has been set. -/
theorem jobs_accounted_left_behind :
    ∃ world, (system (listQueue 1)).Reachable (fun _ _ => True) world ∧
      ¬ AssertionHolds world ∧
      (totalConsumed world.state).toNat + world.state.shared.dropped.toNat + 1 =
        Multiset.card (produced world) := by
  obtain ⟨world, reachable, checked⟩ :=
    System.exists_reachable_of_replay (system (listQueue 1)) (fun _ _ => True)
      (Pool.idle (startingShared 1))
      [.call 1 .consumer, .run 1, .call 0 (.producer ["job-p0-#0", "job-p0-#1"]),
        .run 0, .run 0, .run 0, .run 0, .call 2 .stop, .run 2, .run 1]
      (fun _ _ => true)
      (fun world =>
        decide (world.state.AtRest ∧
          waiting (listQueue 1) world.state = ["job-p0-#0"] ∧
          Multiset.card (produced world) = 2))
      ⟨_, ⟨rfl, rfl, rfl⟩, rfl⟩ (fun _ _ _ => trivial) (by decide +kernel)
  obtain ⟨rest, left, two⟩ := of_decide_eq_true checked
  obtain ⟨_, _, _, exactly⟩ := (jobs_accounted reachable).2.2 rest
  obtain ⟨total, holdsIff⟩ := exactly (by rw [two]; decide)
  rw [left] at total holdsIff
  have fails : ¬ AssertionHolds world := fun holds => by cases holdsIff.mp holds
  exact ⟨world, reachable, fails, total⟩

/-- The consumer looks at the queue once more after the flag has been set. -/
theorem nothing_left_behind_in_time :
    ∃ world : JobWorld { items : List String // items.length ≤ 1 },
      AssertionHolds world ∧ world.state.shared.dropped = 1 := by
  obtain ⟨world, reachable, checked⟩ :=
    System.exists_reachable_of_replay (system (listQueue 1)) StopsInTime
      (Pool.idle (startingShared 1))
      [.call 0 (.producer ["job-p0-#0", "job-p0-#1"]), .run 0, .run 0, .run 0,
        .run 0, .call 1 .consumer, .call 2 .stop, .run 2, .run 1, .run 1, .run 1]
      (fun pool label => decide (StopsInTime pool label))
      (fun world =>
        decide (world.state.shared.stop.value = true ∧ world.state.AtRest ∧
          world.state.shared.dropped = 1 ∧ Multiset.card (produced world) = 2))
      ⟨_, ⟨rfl, rfl, rfl⟩, rfl⟩ (fun _ _ => of_decide_eq_true) (by decide +kernel)
  obtain ⟨isSet, rest, dropped, two⟩ := of_decide_eq_true checked
  obtain ⟨_, holds⟩ := nothing_left_behind reachable isSet rest
  exact ⟨world, holds (by rw [two]; decide), dropped⟩

end HautePerformance.Demos.JobQueue
