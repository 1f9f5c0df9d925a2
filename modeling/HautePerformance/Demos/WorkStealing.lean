import Mathlib.Algebra.BigOperators.Fin
import Mathlib.Algebra.Order.BigOperators.Group.Finset
import HautePerformance.Library.Families
import HautePerformance.Library.PoolBalance
import HautePerformance.Library.CheckedInteger

/-!
# The work-stealing scheduler

`demo_work_stealing` of `demo07_lockfree_crossbeam.rs`: each worker has a deque of
its own.  It empties this one first, then looks for a task in the deques of the
others, in the order of the stealers, and leaves its loop when it has found them all
empty.  An attempt to steal may also fail because of contention, and the worker then
starts over with its own deque.

The deques are those of `crossbeam`.  What the scheduler relies on is documented
there: `pop` and `steal` are atomic, both take the oldest task of a FIFO deque, and
only an empty deque is reported as empty.
-/

namespace HautePerformance.Demos.WorkStealing

open Library

structure Task where
  id : UInt64
  deriving DecidableEq, Repr

/-- `crossbeam::deque::Steal`. -/
inductive Steal where
  | empty
  | success (task : Task)
  | retry
  deriving DecidableEq, Repr

/-- The oldest task of a deque is taken, and nothing else. -/
def Takes {n : Nat} (before after : Fin n → List Task) (owner : Fin n)
    (task : Task) : Prop :=
  ∃ rest, before owner = task :: rest ∧ after = Function.update before owner rest

/-- FIFO deques, one for each worker, the oldest task first.  Whether an attempt to
steal meets contention is for the environment to decide. -/
structure Deques (n : Nat) (State Event : Type) where
  tasks : State → Fin n → List Task
  pop : Fin n → State → State × Option Task
  steal : Fin n → State → State × Steal
  disturb : Event → State → State
  of_pop_none : ∀ {owner state after},
    pop owner state = (after, none) →
    tasks state owner = [] ∧ tasks after = tasks state
  of_pop_some : ∀ {owner state after task},
    pop owner state = (after, some task) →
    Takes (tasks state) (tasks after) owner task
  of_steal_empty : ∀ {owner state after},
    steal owner state = (after, .empty) →
    tasks state owner = [] ∧ tasks after = tasks state
  of_steal_success : ∀ {owner state after task},
    steal owner state = (after, .success task) →
    Takes (tasks state) (tasks after) owner task
  of_steal_retry : ∀ {owner state after},
    steal owner state = (after, .retry) → tasks after = tasks state
  tasks_disturb : ∀ event state, tasks (disturb event state) = tasks state

/-- The deques, and how many tasks each worker has processed. -/
structure Scheduler (n : Nat) (State : Type) where
  deques : State
  processed : Fin n → UInt64

/-- Where a worker is in its loop: about to take from its own deque, about to count
the task that it holds, or about to look at the deque of the stealer. -/
inductive WorkerPosition where
  | pop
  | count (task : Task)
  | steal (sid : Nat)
  deriving DecidableEq, Repr

abbrev StealPool (n : Nat) (State : Type) :=
  Pool (Scheduler n State) (fun _ : Fin n => WorkerPosition) (fun _ => Unit)

abbrev StealActivity (n : Nat) :=
  Activity (fun _ : Fin n => WorkerPosition)

abbrev StealWorld (n : Nat) (State Event : Type) :=
  World (StealPool n State) (PoolLabel (Fin n) Event)

variable {n : Nat} {State Event : Type}

namespace Scheduler

def new (deques : State) : Scheduler n State where
  deques := deques
  processed _ := 0

/-- `processed[worker_id].fetch_add(1)`. -/
def count (scheduler : Scheduler n State) (workerId : Fin n) :
    Scheduler n State :=
  { scheduler with
    processed :=
      Function.update scheduler.processed workerId
        (scheduler.processed workerId + 1) }

/-- The total that the demo prints and asserts, after all workers have been
joined. -/
def total (scheduler : Scheduler n State) : Option Nat :=
  checkedSum (List.ofFn fun workerId => (scheduler.processed workerId).toNat)

end Scheduler

namespace Deques

variable (deques : Deques n State Event)

/-- One step of the loop of a worker. -/
def step (workerId : Fin n) (scheduler : Scheduler n State) :
    WorkerPosition → Scheduler n State × Next WorkerPosition Unit
  | .pop =>
      match deques.pop workerId scheduler.deques with
      | (rest, some task) => ({ scheduler with deques := rest }, .goOn (.count task))
      | (rest, none) => ({ scheduler with deques := rest }, .goOn (.steal 0))
  | .count _ => (scheduler.count workerId, .goOn .pop)
  | .steal sid =>
      if inRange : sid < n then
        -- no theft from oneself
        if sid = workerId then (scheduler, .goOn (.steal (sid + 1)))
        else
          match deques.steal ⟨sid, inRange⟩ scheduler.deques with
          | (rest, .success task) =>
              ({ scheduler with deques := rest }, .goOn (.count task))
          | (rest, .empty) =>
              ({ scheduler with deques := rest }, .goOn (.steal (sid + 1)))
          | (rest, .retry) => ({ scheduler with deques := rest }, .goOn .pop)
      else (scheduler, .finish ())

def object :
    ConcurrentObject (Scheduler n State) Event (fun _ : Fin n => WorkerPosition)
      (fun _ => Unit) where
  enter _ := .pop
  step {workerId} scheduler position := deques.step workerId scheduler position
  environment event scheduler :=
    { scheduler with deques := deques.disturb event scheduler.deques }

/-- The given tasks are in the deques, and none has been processed. -/
def Starts (placed : Fin n → List Task) (scheduler : Scheduler n State) : Prop :=
  ∃ state, deques.tasks state = placed ∧ scheduler = .new state

/-- The runs of workers that start with the given tasks in their deques. -/
def system (placed : Fin n → List Task) :
    System (StealPool n State) (PoolLabel (Fin n) Event) :=
  deques.object.system (deques.Starts placed)

/-- The tasks in the deques of a pool. -/
def waitingAt (pool : StealPool n State) : Fin n → List Task :=
  deques.tasks pool.shared.deques

end Deques

/-- The task that a worker holds at the position. -/
def WorkerPosition.held : WorkerPosition → Multiset Task
  | .count task => {task}
  | _ => 0

/-- The tasks that a worker has processed, each time it has. -/
def processedBy (world : StealWorld n State Event) (workerId : Fin n) :
    Multiset Task :=
  world.total (Pool.atStep fun caller _ position =>
    if caller = workerId then position.held else 0)

/-- The tasks that the workers have processed, each time they have. -/
def processed (world : StealWorld n State Event) : Multiset Task :=
  world.total (Pool.atStep fun _ _ position => position.held)

/-- The tasks in the hands of the workers. -/
def inHand (pool : StealPool n State) : Multiset Task :=
  pool.heldBy fun _ position => position.held

/-! ## What a step can do -/

namespace Takes

variable {before after : Fin n → List Task} {owner : Fin n} {task : Task}

theorem gathered_eq (takes : Takes before after owner task) :
    gathered after + {task} = gathered before := by
  obtain ⟨rest, headed, rfl⟩ := takes
  rw [add_comm]
  exact gathered_update headed

/-- A deque that is empty stays empty. -/
theorem empty (takes : Takes before after owner task) {other : Fin n}
    (isEmpty : before other = []) : after other = [] := by
  obtain ⟨rest, first, rfl⟩ := takes
  by_cases same : other = owner
  · rw [same, first] at isEmpty
    cases isEmpty
  · rw [Function.update_of_ne same]
    exact isEmpty

end Takes

variable {deques : Deques n State Event} {workerId : Fin n}
variable {scheduler : Scheduler n State} {position : WorkerPosition}
variable {after : Scheduler n State × Next WorkerPosition Unit}

/-- A step takes a task from the deque of the worker or from another one, counts the
task that the worker holds, goes on to the next deque after one that is empty or its
own, starts over because of contention, or leaves the loop after the last deque. -/
inductive Steps (deques : Deques n State Event) (workerId : Fin n)
    (scheduler : Scheduler n State) :
    WorkerPosition → Scheduler n State × Next WorkerPosition Unit → Prop
  | take {position : WorkerPosition} {owner : Fin n} {task : Task}
      {state : State} :
      position = .pop ∧ owner = workerId ∨ position = .steal owner →
      Takes (deques.tasks scheduler.deques) (deques.tasks state) owner task →
      Steps deques workerId scheduler position
        ({ scheduler with deques := state }, .goOn (.count task))
  | count {task : Task} :
      Steps deques workerId scheduler (.count task)
        (scheduler.count workerId, .goOn .pop)
  | turn {state : State} :
      deques.tasks scheduler.deques workerId = [] →
      deques.tasks state = deques.tasks scheduler.deques →
      Steps deques workerId scheduler .pop
        ({ scheduler with deques := state }, .goOn (.steal 0))
  | pass {sid : Nat} {state : State} (inRange : sid < n) :
      ⟨sid, inRange⟩ = workerId ∨
        deques.tasks scheduler.deques ⟨sid, inRange⟩ = [] →
      deques.tasks state = deques.tasks scheduler.deques →
      Steps deques workerId scheduler (.steal sid)
        ({ scheduler with deques := state }, .goOn (.steal (sid + 1)))
  | retry {sid : Nat} {state : State} :
      sid < n →
      deques.tasks state = deques.tasks scheduler.deques →
      Steps deques workerId scheduler (.steal sid)
        ({ scheduler with deques := state }, .goOn .pop)
  | leave {sid : Nat} :
      n ≤ sid →
      Steps deques workerId scheduler (.steal sid) (scheduler, .finish ())

theorem steps_step (deques : Deques n State Event) (workerId : Fin n)
    (scheduler : Scheduler n State) (position : WorkerPosition) :
    Steps deques workerId scheduler position
      (deques.step workerId scheduler position) := by
  cases position with
  | pop =>
      simp only [Deques.step]
      split
      · rename_i state task popped
        exact Steps.take (Or.inl ⟨rfl, rfl⟩) (deques.of_pop_some popped)
      · rename_i state popped
        obtain ⟨empty, same⟩ := deques.of_pop_none popped
        exact Steps.turn empty same
  | count task => exact Steps.count
  | steal sid =>
      simp only [Deques.step]
      split
      · rename_i inRange
        split
        · rename_i own
          exact Steps.pass inRange (Or.inl (Fin.ext own)) rfl
        · split
          · rename_i state task stolen
            exact Steps.take (Or.inr rfl) (deques.of_steal_success stolen)
          · rename_i state stolen
            obtain ⟨empty, same⟩ := deques.of_steal_empty stolen
            exact Steps.pass inRange (Or.inr empty) same
          · rename_i state stolen
            exact Steps.retry inRange (deques.of_steal_retry stolen)
      · rename_i atEnd
        exact Steps.leave (Nat.le_of_not_lt atEnd)

theorem steps_of_step {activity : StealActivity n}
    (stepped : deques.step activity.call scheduler activity.position = after) :
    Steps deques activity.call scheduler activity.position after :=
  stepped ▸ steps_step deques activity.call scheduler activity.position

namespace Steps

/-- What leaves the deques is in the hands of the worker. -/
theorem gathered_eq (steps : Steps deques workerId scheduler position after) :
    gathered (deques.tasks after.1.deques) +
        after.2.weight WorkerPosition.held (fun _ => 0) =
      gathered (deques.tasks scheduler.deques) := by
  cases steps with
  | take _ takes => exact takes.gathered_eq
  | count => exact add_zero _
  | turn _ same => exact (add_zero _).trans (congrArg gathered same)
  | pass _ _ same => exact (add_zero _).trans (congrArg gathered same)
  | retry _ same => exact (add_zero _).trans (congrArg gathered same)
  | leave _ => exact add_zero _

/-- Tasks are only placed at the start: a deque that is empty stays empty. -/
theorem empty (steps : Steps deques workerId scheduler position after)
    {owner : Fin n} (isEmpty : deques.tasks scheduler.deques owner = []) :
    deques.tasks after.1.deques owner = [] := by
  cases steps with
  | take _ takes => exact takes.empty isEmpty
  | count => exact isEmpty
  | turn _ same => exact (congrFun same owner).trans isEmpty
  | pass _ _ same => exact (congrFun same owner).trans isEmpty
  | retry _ same => exact (congrFun same owner).trans isEmpty
  | leave _ => exact isEmpty

/-- The counter of a worker goes up with the tasks that it processes. -/
theorem processed_eq (steps : Steps deques workerId scheduler position after)
    (other : Fin n) :
    after.1.processed other =
      scheduler.processed other +
        UInt64.ofNat
          (Multiset.card (if workerId = other then position.held else 0)) := by
  have nothing (held : Multiset Task) (none : held = 0) :
      scheduler.processed other =
        scheduler.processed other +
          UInt64.ofNat (Multiset.card (if workerId = other then held else 0)) := by
    rw [none, ite_self]
    exact (UInt64.add_zero _).symm
  cases steps with
  | take whence _ =>
      refine nothing _ ?_
      rcases whence with ⟨rfl, _⟩ | rfl <;> rfl
  | count =>
      by_cases same : workerId = other
      · subst same
        simp [Scheduler.count, WorkerPosition.held]
      · simp [Scheduler.count, same, Function.update_of_ne (Ne.symm same)]
  | turn _ _ => exact nothing _ rfl
  | pass _ _ _ => exact nothing _ rfl
  | retry _ _ => exact nothing _ rfl
  | leave _ => exact nothing _ rfl

end Steps

/-! ## Every task is processed once -/

variable {placed : Fin n → List Task} {world : StealWorld n State Event}

theorem sum_processedBy (world : StealWorld n State Event) :
    (Finset.univ.sum fun workerId => processedBy world workerId) =
      processed world := by
  simp only [processedBy, processed]
  rw [World.sum_total]
  congr 1
  funext pool label
  simp only [Pool.atStep]
  cases pool.mover? label with
  | none => exact Finset.sum_const_zero
  | some activity =>
      exact (Finset.sum_ite_eq _ _ _).trans (if_pos (Finset.mem_univ _))

theorem balanced (deques : Deques n State Event) :
    Balanced deques.object
      (fun scheduler => gathered (deques.tasks scheduler.deques))
      (fun _ position => position.held) (fun _ _ => 0) (fun _ => 0)
      (fun _ _ _ => 0) (fun _ _ position => position.held) (fun _ _ => True) where
  enter _ := rfl
  environment event scheduler :=
    congrArg gathered (deques.tasks_disturb event scheduler.deques)
  step {pool _ activity} _ _ := by
    have steps := steps_step deques activity.call pool.shared activity.position
    intro after
    rw [add_zero]
    exact congrArg (· + activity.position.held) steps.gathered_eq

/-- Every task is in a deque, in the hands of a worker, or processed. -/
theorem tasks_accounted
    (reachable : (deques.system placed).Reachable (fun _ _ => True) world) :
    gathered (deques.waitingAt world.state) + inHand world.state +
      processed world = gathered placed := by
  have initial (scheduler : Scheduler n State)
      (starts : deques.Starts placed scheduler) :
      gathered (deques.tasks scheduler.deques) = gathered placed := by
    obtain ⟨state, rfl, rfl⟩ := starts
    rfl
  have balance := (balanced deques).balance_closed initial reachable
  rwa [Pool.total_brought_zero, add_zero, Pool.shares_zero] at balance

theorem processed_moves {source target : StealPool n State}
    {label : PoolLabel (Fin n) Event}
    (moves : deques.object.Moves source label target) (workerId : Fin n) :
    target.shared.processed workerId =
      source.shared.processed workerId +
        UInt64.ofNat (Multiset.card
          (source.atStep (fun caller _ position =>
            if caller = workerId then position.held else 0) label)) := by
  cases moves with
  | call free => exact (UInt64.add_zero _).symm
  | advance running stepped =>
      rw [Pool.atStep_run _ running]
      exact (steps_of_step stepped).processed_eq workerId
  | finish running stepped =>
      rw [Pool.atStep_run _ running]
      exact (steps_of_step stepped).processed_eq workerId
  | environment => exact (UInt64.add_zero _).symm

/-- The counter of a worker says how many tasks it has processed. -/
theorem processed_eq
    (reachable : (deques.system placed).Reachable (fun _ _ => True) world)
    (workerId : Fin n) :
    world.state.shared.processed workerId =
      UInt64.ofNat (Multiset.card (processedBy world workerId)) := by
  refine reachable.invariant
    (fun world => world.state.shared.processed workerId =
      UInt64.ofNat (Multiset.card (processedBy world workerId))) ?_ ?_
  · rintro pool ⟨scheduler, ⟨state, _, rfl⟩, rfl⟩
    rfl
  · intro label source target _ counted step
    have moved :=
      processed_moves (ConcurrentObject.moves_of_exec step.2.1) workerId
    have counts :
        processedBy (source.push label target.state) workerId =
          source.state.atStep (fun caller _ position =>
            if caller = workerId then position.held else 0) label +
              processedBy source workerId :=
      World.total_push _ _ _ _
    rw [step.2.2, World.push_state, moved, counted, counts, Multiset.card_add,
      Nat.add_comm, UInt64.ofNat_add]

/-! ## Nothing is left behind -/

/-- Tasks are only placed at the start: a deque that is empty stays empty. -/
theorem empty_of_moves {source target : StealPool n State}
    {label : PoolLabel (Fin n) Event}
    (moves : deques.object.Moves source label target) {owner : Fin n}
    (isEmpty : deques.waitingAt source owner = []) :
    deques.waitingAt target owner = [] := by
  rcases moves.shared_cases with
    same | ⟨thread, activity, _, _, stepped⟩ | ⟨event, disturbed⟩
  · rw [Deques.waitingAt, same]
    exact isEmpty
  · rw [Deques.waitingAt, stepped]
    exact (steps_step deques activity.call source.shared activity.position).empty
      isEmpty
  · rw [Deques.waitingAt, disturbed]
    exact (congrFun (deques.tasks_disturb event source.shared.deques) owner).trans
      isEmpty

/-- A worker that is at the deque of a stealer has found its own deque empty, and
those of the stealers before; when it leaves, all. -/
def searching (deques : Deques n State Event) :
    Outline (Scheduler n State) (fun _ : Fin n => WorkerPosition)
      (fun _ => Unit) where
  Inv pool := pool.returned ≠ [] → ∀ owner, deques.waitingAt pool owner = []
  At pool activity :=
    ∀ sid, activity.position = .steal sid →
      ∀ owner : Fin n, owner = activity.call ∨ owner < sid →
        deques.waitingAt pool owner = []

theorem searching_sound (deques : Deques n State Event) :
    (searching deques).Sound deques.object fun _ _ => True where
  inv := by
    intro source label target _ holds moves left owner
    cases moves with
    | call _ => exact holds.1 left owner
    | advance running stepped =>
        exact empty_of_moves (.advance running stepped) (holds.1 left owner)
    | @finish thread activity shared result running stepped =>
        refine empty_of_moves (.finish running stepped) ?_
        have atEnd := holds.2 thread activity running
        have steps := steps_of_step stepped
        obtain ⟨workerId, began, here⟩ := activity
        cases steps with
        | @leave sid last =>
            exact atEnd sid rfl owner (Or.inr (Nat.lt_of_lt_of_le owner.2 last))
    | environment => exact empty_of_moves .environment (holds.1 left owner)
  begins := by
    intro source thread workerId _ _ _ sid here
    cases here
  advances := by
    intro source thread activity shared position _ holds running stepped sid here
      owner seen
    have isEmpty : deques.waitingAt source owner = [] := by
      have before := holds.2 thread activity running
      have steps := steps_of_step stepped
      obtain ⟨workerId, began, position⟩ := activity
      cases here
      cases steps with
      | turn isEmpty _ =>
          rcases seen with own | impossible
          · exact own ▸ isEmpty
          · exact absurd impossible (Nat.not_lt_zero _)
      | @pass sid _ inRange found _ =>
          rcases seen with own | earlier
          · exact before sid rfl owner (Or.inl own)
          · rcases Nat.lt_succ_iff_lt_or_eq.mp earlier with behind | here
            · exact before sid rfl owner (Or.inr behind)
            · have here : owner = ⟨sid, inRange⟩ := Fin.ext here
              rcases found with own | isEmpty
              · exact before sid rfl owner (Or.inl (here.trans own))
              · exact here ▸ isEmpty
    exact empty_of_moves (.advance running stepped) isEmpty
  stable := by
    intro source label target thread activity _ holds moves running _ sid here
      owner seen
    exact empty_of_moves moves (holds.2 thread activity running sid here owner seen)

/-- As soon as one worker has left its loop, no deque holds a task. -/
theorem empty_of_left
    (reachable : (deques.system placed).Reachable (fun _ _ => True) world)
    (left : world.state.returned ≠ []) (owner : Fin n) :
    deques.waitingAt world.state owner = [] := by
  refine ((searching_sound deques).reachable ?_ reachable).1 left owner
  intro scheduler _ noneLeft
  exact absurd rfl noneLeft

/-- The workers have processed as many tasks as their counters say. -/
theorem total_eq
    (reachable : (deques.system placed).Reachable (fun _ _ => True) world)
    (fits : Multiset.card (processed world) < u64Bound) :
    world.state.shared.total = some (Multiset.card (processed world)) := by
  have counts :
      Multiset.card (processed world) =
        Finset.univ.sum fun workerId =>
          Multiset.card (processedBy world workerId) := by
    rw [← sum_processedBy, Multiset.card_sum]
  have each (workerId : Fin n) :
      (world.state.shared.processed workerId).toNat =
        Multiset.card (processedBy world workerId) := by
    have part :
        Multiset.card (processedBy world workerId) ≤
          Multiset.card (processed world) := by
      rw [counts]
      exact Finset.single_le_sum
        (f := fun workerId => Multiset.card (processedBy world workerId))
        (fun _ _ => Nat.zero_le _) (Finset.mem_univ workerId)
    rw [processed_eq reachable, UInt64.toNat_ofNat']
    exact Nat.mod_eq_of_lt (Nat.lt_of_le_of_lt part fits)
  have sum :
      (List.ofFn fun workerId =>
        (world.state.shared.processed workerId).toNat).sum =
        Multiset.card (processed world) := by
    rw [List.sum_ofFn, counts]
    exact Finset.sum_congr rfl fun workerId _ => each workerId
  rw [Scheduler.total, checkedSum_of_fits (sum ▸ fits), sum]

/-- In every run each task is in one place: in a deque, in the hands of one worker,
or processed once.  A worker leaves its loop only when no deque holds a task, and
when all have left, every task has been processed and the total is as asserted. -/
theorem each_task_processed_once
    (reachable : (deques.system placed).Reachable (fun _ _ => True) world) :
    gathered (deques.waitingAt world.state) + inHand world.state +
        processed world = gathered placed ∧
      (world.state.returned ≠ [] →
        ∀ owner, deques.waitingAt world.state owner = []) ∧
      (world.state.returned ≠ [] → world.state.AtRest →
        processed world = gathered placed ∧
          (Multiset.card (gathered placed) < u64Bound →
            world.state.shared.total = some (Multiset.card (gathered placed)))) := by
  have accounted := tasks_accounted reachable
  refine ⟨accounted, empty_of_left reachable, ?_⟩
  intro left rest
  have nothingWaits : gathered (deques.waitingAt world.state) = 0 :=
    gathered_eq_zero (empty_of_left reachable left)
  have nothingHeld : inHand world.state = 0 := Pool.heldBy_of_atRest _ rest
  have all : processed world = gathered placed := by
    rwa [nothingWaits, nothingHeld, zero_add, zero_add] at accounted
  refine ⟨all, fun fits => ?_⟩
  rw [← all] at fits ⊢
  exact total_eq reachable fits

/-! ## How long it takes -/

/-- How many steps a worker may take before it needs another task. -/
def WorkerPosition.effort (n : Nat) : WorkerPosition → Nat
  | .pop => n + 2
  | .count _ => n + 3
  | .steal sid => n - sid + 1

/-- One if the search has been cut short. -/
def WorkerPosition.retries : WorkerPosition → Next WorkerPosition Unit → Nat
  | .steal _, .goOn .pop => 1
  | _, _ => 0

/-- One if the step of the worker runs into contention. -/
def retries (deques : Deques n State Event) (workerId : Fin n)
    (scheduler : Scheduler n State) (position : WorkerPosition) : Nat :=
  position.retries (deques.step workerId scheduler position).2

/-- A task pays for the steps that find it and count it, and a step that runs into
contention for starting over. -/
theorem Steps.paid (steps : Steps deques workerId scheduler position after) :
    (n + 2) * Multiset.card (gathered (deques.tasks after.1.deques)) +
        after.2.weight (WorkerPosition.effort n) (fun _ => 0) + 1 ≤
      (n + 2) * Multiset.card (gathered (deques.tasks scheduler.deques)) +
        position.effort n + (n + 1) * position.retries after.2 := by
  have tasks := congrArg Multiset.card steps.gathered_eq
  rw [Multiset.card_add] at tasks
  rw [← tasks, Nat.mul_add]
  have owned := workerId.2
  cases steps with
  | @take position owner task state whence takes =>
      have oneTask : Multiset.card (WorkerPosition.held (.count task)) = 1 := rfl
      have found := owner.2
      simp only [Next.weight, oneTask]
      rcases whence with ⟨rfl, _⟩ | rfl
      · simp only [WorkerPosition.effort]
        omega
      · simp only [WorkerPosition.effort]
        omega
  | count =>
      simp only [Next.weight, WorkerPosition.effort]
      omega
  | turn _ _ =>
      simp only [Next.weight, WorkerPosition.effort]
      omega
  | pass inRange _ _ =>
      simp only [Next.weight, WorkerPosition.effort]
      omega
  | retry inRange _ =>
      simp only [Next.weight, WorkerPosition.effort, WorkerPosition.retries]
      omega
  | leave _ =>
      simp only [Next.weight, WorkerPosition.effort]
      omega

theorem paid (deques : Deques n State Event) :
    Paid deques.object
      (fun scheduler =>
        (n + 2) * Multiset.card (gathered (deques.tasks scheduler.deques)))
      (fun _ position => position.effort n) (fun _ => n + 2)
      (fun workerId scheduler position =>
        (n + 1) * retries deques workerId scheduler position) where
  enter _ := Nat.le_refl _
  environment event scheduler := by
    show _ * Multiset.card (gathered (deques.tasks (deques.disturb _ _))) ≤ _
    rw [deques.tasks_disturb]
  step {workerId} scheduler position :=
    (steps_step deques workerId scheduler position).paid

/-- The number of workers that have been started. -/
def started (world : StealWorld n State Event) : Nat :=
  world.total fun _ label => Pool.brought (fun _ => 1) label

/-- The workers take a bounded number of steps, in every run: a search through all
deques for each task and for each worker, and one for each time that contention cuts
a search short. -/
theorem steps_bounded
    (reachable : (deques.system placed).Reachable (fun _ _ => True) world) :
    world.total (fun _ label => label.isRun) ≤
      (n + 2) * (Multiset.card (gathered placed) + started world) +
        (n + 1) * world.total (Pool.atStep (retries deques)) := by
  have initial (scheduler : Scheduler n State)
      (starts : deques.Starts placed scheduler) :
      (n + 2) * Multiset.card (gathered (deques.tasks scheduler.deques)) ≤
        (n + 2) * Multiset.card (gathered placed) := by
    obtain ⟨state, rfl, rfl⟩ := starts
    exact Nat.le_refl _
  have bounded := (paid deques).bounded initial reachable
  have searches :
      (world.total fun _ label => Pool.brought (fun _ => n + 2) label) =
        (n + 2) * started world := by
    have scaled := World.map_total (AddMonoidHom.mulLeft (n + 2))
      (fun _ label => Pool.brought (fun _ => 1) label) world
    simp only [Pool.map_brought, AddMonoidHom.coe_mulLeft, Nat.mul_one] at scaled
    exact scaled.symm
  have again :
      world.total (Pool.atStep fun workerId scheduler position =>
        (n + 1) * retries deques workerId scheduler position) =
        (n + 1) * world.total (Pool.atStep (retries deques)) := by
    have scaled := World.map_total (AddMonoidHom.mulLeft (n + 1))
      (Pool.atStep (retries deques)) world
    simp only [Pool.map_atStep, AddMonoidHom.coe_mulLeft] at scaled
    exact scaled.symm
  rw [World.total_add, searches, again] at bounded
  rw [Nat.mul_add, Nat.add_assoc, Nat.add_comm (_ * started world)]
  exact bounded

/-! ## A run -/

/-- Deques as lists, with the contention that the next thief meets. -/
structure ListDeques (n : Nat) where
  tasks : Fin n → List Task
  contention : Bool

namespace ListDeques

/-- Take the oldest task. -/
def take (deques : ListDeques n) (owner : Fin n) : ListDeques n × Option Task :=
  match deques.tasks owner with
  | [] => (deques, none)
  | task :: rest =>
      ({ deques with tasks := Function.update deques.tasks owner rest }, some task)

theorem of_take_none {deques after : ListDeques n} {owner : Fin n}
    (took : deques.take owner = (after, none)) :
    deques.tasks owner = [] ∧ after.tasks = deques.tasks := by
  unfold take at took
  split at took
  · rename_i empty
    cases took
    exact ⟨empty, rfl⟩
  · cases took

theorem of_take_some {deques after : ListDeques n} {owner : Fin n} {task : Task}
    (took : deques.take owner = (after, some task)) :
    Takes deques.tasks after.tasks owner task := by
  unfold take at took
  split at took
  · cases took
  · rename_i first rest holds
    cases took
    exact ⟨rest, holds, rfl⟩

def steal (deques : ListDeques n) (owner : Fin n) : ListDeques n × Steal :=
  if deques.contention then (deques, .retry)
  else
    match deques.take owner with
    | (after, some task) => (after, .success task)
    | (after, none) => (after, .empty)

/-- The deques as the scheduler uses them. -/
def fifo (n : Nat) : Deques n (ListDeques n) Bool where
  tasks := ListDeques.tasks
  pop owner deques := deques.take owner
  steal owner deques := deques.steal owner
  disturb contention deques := { deques with contention := contention }
  of_pop_none took := of_take_none took
  of_pop_some took := of_take_some took
  of_steal_empty := by
    intro owner deques after stolen
    unfold steal at stolen
    split at stolen
    · cases stolen
    · split at stolen
      · cases stolen
      · rename_i took
        cases stolen
        exact of_take_none took
  of_steal_success := by
    intro owner deques after task stolen
    unfold steal at stolen
    split at stolen
    · cases stolen
    · split at stolen
      · rename_i took
        cases stolen
        exact of_take_some took
      · cases stolen
  of_steal_retry := by
    intro owner deques after stolen
    unfold steal at stolen
    split at stolen
    · cases stolen
      rfl
    · split at stolen <;> cases stolen
  tasks_disturb _ _ := rfl

end ListDeques

/-- All tasks on the first worker, as the demo places them. -/
def onFirstWorker (totalTasks : Nat) : Fin 2 → List Task
  | 0 => (List.range totalTasks).map fun i => ⟨UInt64.ofNat i⟩
  | 1 => []

/-- Two workers and two tasks.  The second worker meets contention once, steals a
task, and finds nothing more; the first one processes the other task. -/
def stealingRun : List (PoolLabel (Fin 2) Bool) :=
  [.call 0 0, .call 1 1, .run 1, .environment true, .run 1, .environment false,
    .run 1, .run 1, .run 0, .run 1, .run 1, .run 1, .run 1, .run 1, .run 0, .run 0,
    .run 0, .run 0, .run 0]

theorem exists_stealingRun :
    ∃ world,
      ((ListDeques.fifo 2).system (onFirstWorker 2)).Reachable (fun _ _ => True)
        world ∧
      world.state.returned ≠ [] ∧ world.state.AtRest ∧
      world.state.shared.processed 1 = 1 := by
  obtain ⟨world, reachable, checked⟩ :=
    System.exists_reachable_of_replay
      ((ListDeques.fifo 2).system (onFirstWorker 2)) (fun _ _ => True)
      (Pool.idle (Scheduler.new ⟨onFirstWorker 2, false⟩)) stealingRun
      (fun _ _ => true)
      (fun world =>
        decide (world.state.returned.length = 2 ∧ world.state.AtRest ∧
          world.state.shared.processed 1 = 1))
      ⟨_, ⟨_, rfl, rfl⟩, rfl⟩ (fun _ _ _ => trivial) (by decide +kernel)
  obtain ⟨bothLeft, rest, stolen⟩ := of_decide_eq_true checked
  refine ⟨world, reachable, ?_, rest, stolen⟩
  intro none
  rw [none] at bothLeft
  cases bothLeft

theorem each_task_processed_once_stealing :
    ∃ world : StealWorld 2 (ListDeques 2) Bool,
      processed world = gathered (onFirstWorker 2) ∧
        world.state.shared.total = some 2 ∧
        world.state.shared.processed 1 = 1 := by
  obtain ⟨world, reachable, left, rest, stolen⟩ := exists_stealingRun
  obtain ⟨all, total⟩ := (each_task_processed_once reachable).2.2 left rest
  exact ⟨world, all, total (by decide), stolen⟩

theorem steps_bounded_stealing :
    ∃ world : StealWorld 2 (ListDeques 2) Bool,
      world.state.AtRest ∧
        world.total (fun _ label => label.isRun) ≤
          4 * (2 + started world) +
            3 * world.total (Pool.atStep (retries (ListDeques.fifo 2))) := by
  obtain ⟨world, reachable, _, rest, _⟩ := exists_stealingRun
  exact ⟨world, rest, steps_bounded reachable⟩

end HautePerformance.Demos.WorkStealing
