import Mathlib.Data.Multiset.Count
import Mathlib.Data.Multiset.OrderedMonoid
import Mathlib.Algebra.BigOperators.Group.Multiset.Basic
import Mathlib.Tactic.Abel
import HautePerformance.Library.PoolTotals
import HautePerformance.Demos.Dispatcher

/-!
# Where the tasks of a dispatcher go

Every task that has been submitted is in the queue, in the hands of one worker, or
counted.  A worker that has found the queue empty may find the flag cleared after
more tasks have come, and leave them behind.  Nothing is lost if the flag is not
cleared at a moment when there is a task in the queue and every worker is past the
pop that found none.
-/

namespace HautePerformance.Demos

open Library

/-! ## Counting tasks and workers -/

/-- The task that a worker has taken and not counted yet. -/
def inHand (activity : DispatcherActivity) : Multiset Tache :=
  match activity with
  | ⟨.workerLoop, _, .workerCount t⟩ => {t}
  | _ => 0

/-- The worker has found the queue empty and is about to read the flag. -/
def atLoad (activity : DispatcherActivity) : Bool :=
  match activity with
  | ⟨.workerLoop, _, .workerLoad⟩ => true
  | _ => false

/-- One for a worker. -/
def oneWorker (activity : DispatcherActivity) : Nat :=
  if activity.call = .workerLoop then 1 else 0

/-- One for a worker that is about to read the flag. -/
def oneAtLoad (activity : DispatcherActivity) : Nat :=
  if atLoad activity = true then 1 else 0

/-- The task of a call that submits one. -/
def DispatcherCall.tasks : DispatcherCall → Multiset Tache
  | .submit t => {t}
  | _ => 0

/-- The sum of all counts. -/
def Stats.total (stats : Stats) : Nat :=
  Entries.sum stats fun entry => entry.2.toNat

section

variable {Shared : Type}

/-- The tasks whose submission has returned. -/
def submitted (pool : DispatcherPool Shared) : Multiset Tache :=
  (pool.returned.map fun record => record.call.tasks).sum

/-- The tasks whose submission is under way. -/
def submitting (pool : DispatcherPool Shared) : Multiset Tache :=
  pool.total fun activity => activity.call.tasks

/-- The workers that have left their loop. -/
def exited (pool : DispatcherPool Shared) : Nat :=
  pool.returned.countP fun record => record.call = .workerLoop

/-- The workers in their loop. -/
def active (pool : DispatcherPool Shared) : Nat :=
  pool.total oneWorker

/-- The workers that do not look at the queue again when the flag is down: those
between a pop that found nothing and their load of the flag, and those that have
left. -/
def departing (pool : DispatcherPool Shared) : Nat :=
  pool.total oneAtLoad + exited pool

/-- The tasks that the workers have counted, each time they have. -/
def counted (world : DispatcherWorld Shared) : Multiset Tache :=
  Pool.amount inHand world

variable {pool : DispatcherPool Shared} {world : DispatcherWorld Shared}
variable {thread : Nat} {activity : DispatcherActivity} {shared : Shared}

@[simp]
theorem submitted_finish (result : Unit) :
    submitted (pool.finish thread activity shared result) =
      activity.call.tasks + submitted pool := by
  simp [submitted, Pool.finish]

theorem exited_finish (result : Unit) :
    exited (pool.finish thread activity shared result) =
      oneWorker activity + exited pool := by
  by_cases isWorker : activity.call = .workerLoop
  · simp [exited, Pool.finish, oneWorker, isWorker, Nat.add_comm]
  · simp [exited, Pool.finish, oneWorker, isWorker]

theorem departing_finish (running : pool.activity? thread = some activity)
    (shared : Shared) (result : Unit) :
    departing (pool.finish thread activity shared result) +
        oneAtLoad activity =
      departing pool + oneWorker activity := by
  rw [departing, departing, exited_finish, Pool.total_finish,
    Pool.total_of_running _ running]
  omega

theorem departing_advance (running : pool.activity? thread = some activity)
    (shared : Shared) (position : DispatcherCall.Position activity.call) :
    departing (pool.advance thread activity shared position) +
        oneAtLoad activity =
      departing pool + oneAtLoad { activity with position := position } := by
  have same :
      exited (pool.advance thread activity shared position) = exited pool :=
    rfl
  rw [departing, departing, same, Pool.total_advance,
    Pool.total_of_running _ running]
  omega

theorem departing_begin (free : pool.activity? thread = none)
    (call : DispatcherCall) :
    departing (pool.begin thread call call.enter) = departing pool := by
  have same : exited (pool.begin thread call call.enter) = exited pool := rfl
  have notAtLoad : oneAtLoad ⟨call, pool.steps, call.enter⟩ = 0 := by
    cases call <;> rfl
  rw [departing, departing, same, Pool.total_begin _ free, notAtLoad, zero_add]

theorem departing_le (pool : DispatcherPool Shared) :
    departing pool ≤ active pool + exited pool := by
  have each (activity : DispatcherActivity) :
      oneAtLoad activity ≤ oneWorker activity := by
    obtain ⟨call, began, here⟩ := activity
    cases here with
    | submitPush => exact Nat.le_refl 0
    | workerPop => exact Nat.zero_le 1
    | workerCount t => exact Nat.zero_le 1
    | workerLoad => exact Nat.le_refl 1
    | stopStore => exact Nat.le_refl 0
  exact Nat.add_le_add_right
    (pool.map_total_le (AddMonoidHom.id Nat) each) _

/-- A worker that is not about to read the flag is in its loop all the same. -/
theorem departing_lt (running : pool.activity? thread = some activity)
    (isWorker : oneWorker activity = 1) (notAtLoad : oneAtLoad activity = 0) :
    departing pool < active pool + exited pool := by
  have fewer := departing_le (pool.finish thread activity pool.shared ())
  have departs := departing_finish running pool.shared ()
  have leaves :
      active (pool.finish thread activity pool.shared ()) +
          oneWorker activity =
        active pool := by
    rw [active, active, Pool.total_finish, Pool.total_of_running _ running]
    exact Nat.add_comm _ _
  rw [exited_finish] at fewer
  omega

theorem counted_call (call : DispatcherCall) (target : DispatcherPool Shared) :
    counted (world.push (.call thread call) target) = counted world := by
  rw [counted, Pool.amount_push]
  exact zero_add _

theorem counted_run (running : world.state.activity? thread = some activity)
    (target : DispatcherPool Shared) :
    counted (world.push (.run thread) target) =
      inHand activity + counted world := by
  rw [counted, Pool.amount_push, Pool.mover?, running]
  rfl

end

namespace Stats

variable {stats : Stats} {name : String}

theorem count_increment_self (stats : Stats) (name : String) :
    (stats.increment name).count name = stats.count name + 1 := by
  simp [count, increment]

theorem count_increment_ne (stats : Stats) {other : String}
    (different : other ≠ name) :
    (stats.increment name).count other = stats.count other := by
  simp [count, increment, AList.lookup_insert_ne different]

theorem toNat_increment (fits : (stats.count name).toNat + 1 < UInt64.size) :
    (stats.count name + 1).toNat = (stats.count name).toNat + 1 := by
  rw [UInt64.toNat_add]
  exact Nat.mod_eq_of_lt fits

theorem toNat_count_increment
    (fits : (stats.count name).toNat + 1 < UInt64.size) (other : String) :
    ((stats.increment name).count other).toNat =
      (if name = other then 1 else 0) + (stats.count other).toNat := by
  by_cases same : name = other
  · subst same
    rw [count_increment_self, toNat_increment fits, if_pos rfl]
    exact Nat.add_comm _ _
  · rw [count_increment_ne _ (Ne.symm same), if_neg same, Nat.zero_add]

/-- The count of a name is part of the total. -/
theorem total_eq (stats : Stats) (name : String) :
    stats.total =
      (stats.count name).toNat +
        Entries.sum (stats.erase name) fun entry => entry.2.toNat := by
  cases found : stats.lookup name with
  | none =>
      rw [Entries.erase_of_lookup_none found]
      simp [count, found, total]
  | some value =>
      have split := Entries.sum_of_lookup
        (fun entry : Sigma fun _ : String => UInt64 => entry.2.toNat) found
      simp [total, count, found, split]

theorem total_increment (fits : (stats.count name).toNat + 1 < UInt64.size) :
    (stats.increment name).total = stats.total + 1 := by
  have before := total_eq stats name
  have after :
      (stats.increment name).total =
        (stats.count name + 1).toNat +
          Entries.sum (stats.erase name) fun entry => entry.2.toNat :=
    Entries.sum_insert _ _
  rw [toNat_increment fits] at after
  omega

end Stats

/-! ## What one step can do -/

namespace Dispatching

variable {Shared : Type} {dispatching : Dispatching Shared}

/-- The steps of threads on a dispatcher, with what they find in it. -/
inductive Moves (dispatching : Dispatching Shared)
    (source : DispatcherPool Shared) :
    DispatcherLabel → DispatcherPool Shared → Prop
  | begin {thread : Nat} {call : DispatcherCall} :
      source.activity? thread = none →
      Moves dispatching source (.call thread call)
        (source.begin thread call call.enter)
  | push {thread began : Nat} {t : Tache} :
      source.activity? thread = some ⟨.submit t, began, .submitPush⟩ →
      Moves dispatching source (.run thread)
        (source.finish thread ⟨.submit t, began, .submitPush⟩
          (dispatching.submit t source.shared) ())
  | take {thread began : Nat} {t : Tache} {rest : List Tache}
      {shared : Shared} :
      source.activity? thread = some ⟨.workerLoop, began, .workerPop⟩ →
      (dispatching.view source.shared).queue = t :: rest →
      dispatching.view shared =
        { dispatching.view source.shared with queue := rest } →
      Moves dispatching source (.run thread)
        (source.advance thread ⟨.workerLoop, began, .workerPop⟩ shared
          (.workerCount t))
  | findEmpty {thread began : Nat} {shared : Shared} :
      source.activity? thread = some ⟨.workerLoop, began, .workerPop⟩ →
      (dispatching.view source.shared).queue = [] →
      dispatching.view shared = dispatching.view source.shared →
      Moves dispatching source (.run thread)
        (source.advance thread ⟨.workerLoop, began, .workerPop⟩ shared
          .workerLoad)
  | count {thread began : Nat} {t : Tache} :
      source.activity? thread = some ⟨.workerLoop, began, .workerCount t⟩ →
      Moves dispatching source (.run thread)
        (source.advance thread ⟨.workerLoop, began, .workerCount t⟩
          (dispatching.countTache t source.shared) .workerPop)
  | goOn {thread began : Nat} :
      source.activity? thread = some ⟨.workerLoop, began, .workerLoad⟩ →
      (dispatching.view source.shared).running = true →
      Moves dispatching source (.run thread)
        (source.advance thread ⟨.workerLoop, began, .workerLoad⟩ source.shared
          .workerPop)
  | leave {thread began : Nat} :
      source.activity? thread = some ⟨.workerLoop, began, .workerLoad⟩ →
      (dispatching.view source.shared).running = false →
      Moves dispatching source (.run thread)
        (source.finish thread ⟨.workerLoop, began, .workerLoad⟩ source.shared ())
  | stop {thread began : Nat} :
      source.activity? thread = some ⟨.stop, began, .stopStore⟩ →
      Moves dispatching source (.run thread)
        (source.finish thread ⟨.stop, began, .stopStore⟩
          (dispatching.stop source.shared) ())

theorem moves_of_exec {source target : DispatcherPool Shared}
    {label : DispatcherLabel}
    (executed : dispatching.system.exec source label = some target) :
    dispatching.Moves source label target := by
  have moves := ConcurrentObject.moves_of_exec executed
  cases moves with
  | call free => exact Moves.begin free
  | @advance thread activity shared position running stepped =>
      obtain ⟨call, began, here⟩ := activity
      have popped := dispatching.view_pop source.shared
      cases here with
      | submitPush => cases stepped
      | stopStore => cases stepped
      | workerCount t =>
          cases stepped
          exact Moves.count running
      | workerLoad =>
          simp only [object, step] at stepped
          split at stepped
          · rename_i isRunning
            cases stepped
            rw [dispatching.view_isRunning] at isRunning
            exact Moves.goOn running isRunning
          · cases stepped
      | workerPop =>
          simp only [object, step] at stepped
          split at stepped
          · rename_i t rest taken
            cases stepped
            rw [taken] at popped
            cases queue : (dispatching.view source.shared).queue with
            | nil => simp [Dispatcher.pop, queue] at popped
            | cons first others =>
                simp only [Dispatcher.pop, queue, Prod.mk.injEq,
                  Option.some.injEq] at popped
                obtain ⟨rfl, shape⟩ := popped
                exact Moves.take running queue shape
          · rename_i rest nothing
            cases stepped
            rw [nothing] at popped
            cases queue : (dispatching.view source.shared).queue with
            | nil =>
                simp only [Dispatcher.pop, queue, Prod.mk.injEq,
                  true_and] at popped
                exact Moves.findEmpty running queue popped
            | cons first others => simp [Dispatcher.pop, queue] at popped
  | @finish thread activity shared result running stepped =>
      obtain ⟨call, began, here⟩ := activity
      cases here with
      | submitPush =>
          cases stepped
          exact Moves.push running
      | stopStore =>
          cases stepped
          exact Moves.stop running
      | workerCount t => cases stepped
      | workerLoad =>
          simp only [object, step] at stepped
          split at stepped
          · cases stepped
          · rename_i notRunning
            cases stepped
            rw [dispatching.view_isRunning, Bool.not_eq_true] at notRunning
            exact Moves.leave running notRunning
      | workerPop =>
          simp only [object, step] at stepped
          split at stepped
          · cases stepped
          · cases stepped
  | @environment event => exact nomatch event

/-! ## The runs -/

variable (dispatching) (n : Nat)

/-- At most `n` workers, and `stop` clears the flag when all submissions have
returned and none follows. -/
def Orderly (pool : DispatcherPool Shared) : DispatcherLabel → Prop
  | .call _ (.submit _) => (dispatching.view pool.shared).running = true
  | .call _ .workerLoop => active pool + exited pool < n
  | .call _ .stop => True
  | .run thread =>
      ∀ activity, activity ∈ pool.activity? thread →
        activity.call = .stop → submitting pool = 0
  | .environment _ => True

/-- `stop` does not clear the flag while there is a task in the queue and each of
the `n` workers is past a pop that found none. -/
def StopsInTime (pool : DispatcherPool Shared) (label : DispatcherLabel) :
    Prop :=
  ∀ activity, activity ∈ pool.mover? label →
    activity.call = .stop →
    (dispatching.view pool.shared).queue = [] ∨ departing pool < n

/-- No count is at its maximum when it is incremented. -/
def CountsFit (pool : DispatcherPool Shared) (label : DispatcherLabel) : Prop :=
  ∀ activity, activity ∈ pool.mover? label →
    ∀ t, t ∈ inHand activity →
      ((dispatching.view pool.shared).stats.count (nomKind t.kind)).toNat + 1 <
        UInt64.size

instance (pool : DispatcherPool Shared) (label : DispatcherLabel) :
    Decidable (dispatching.Orderly n pool label) :=
  match label with
  | .call _ (.submit _) => inferInstanceAs (Decidable (_ = true))
  | .call _ .workerLoop => inferInstanceAs (Decidable (_ < n))
  | .call _ .stop => inferInstanceAs (Decidable True)
  | .run thread =>
      inferInstanceAs
        (Decidable (∀ activity, activity ∈ pool.activity? thread → _))
  | .environment _ => inferInstanceAs (Decidable True)

instance (pool : DispatcherPool Shared) (label : DispatcherLabel) :
    Decidable (dispatching.StopsInTime n pool label) :=
  inferInstanceAs (Decidable (∀ activity, activity ∈ pool.mover? label → _))

instance (pool : DispatcherPool Shared) (label : DispatcherLabel) :
    Decidable (dispatching.CountsFit pool label) :=
  inferInstanceAs
    (Decidable
      (∀ activity, activity ∈ pool.mover? label →
        ∀ t, t ∈ inHand activity → _))

/-- Once all `n` workers have left, the queue is empty, every task submitted has
been counted once, and the statistics say so. -/
def NoTaskLost (world : DispatcherWorld Shared) : Prop :=
  exited world.state = n →
    (dispatching.view world.state.shared).queue = [] ∧
      counted world = submitted world.state ∧
      (∀ kind,
        ((dispatching.view world.state.shared).stats.count
            (nomKind kind)).toNat =
          (submitted world.state).countP fun t => t.kind = kind) ∧
      (dispatching.view world.state.shared).stats.total =
        Multiset.card (submitted world.state)

/-- Where the tasks and the workers are. -/
structure Conserved (world : DispatcherWorld Shared) : Prop where
  tasks :
    submitted world.state =
      ((dispatching.view world.state.shared).queue : Multiset Tache) +
        world.state.total inHand + counted world
  statistics : ∀ name,
    ((dispatching.view world.state.shared).stats.count name).toNat =
      (counted world).countP fun t => nomKind t.kind = name
  statsTotal :
    (dispatching.view world.state.shared).stats.total =
      Multiset.card (counted world)
  stopped :
    (dispatching.view world.state.shared).running = false →
    submitting world.state = 0
  left :
    0 < exited world.state →
    (dispatching.view world.state.shared).running = false
  workers : active world.state + exited world.state ≤ n

variable {dispatching n} {world : DispatcherWorld Shared}
variable {target : DispatcherPool Shared} {label : DispatcherLabel}

/-- A call begins. -/
theorem Conserved.begin (conserved : dispatching.Conserved n world)
    {thread : Nat} {call : DispatcherCall}
    (orderly : dispatching.Orderly n world.state (.call thread call))
    (free : world.state.activity? thread = none) :
    dispatching.Conserved n
      (world.push (.call thread call)
        (world.state.begin thread call call.enter)) := by
  have nothingInHand : inHand ⟨call, world.state.steps, call.enter⟩ = 0 := by
    cases call <;> rfl
  refine
    { tasks := ?_
      statistics := ?_
      statsTotal := ?_
      stopped := ?_
      left := conserved.left
      workers := ?_ }
  · rw [counted_call, World.push_state, Pool.total_begin _ free, nothingInHand,
      zero_add]
    exact conserved.tasks
  · intro name
    rw [counted_call]
    exact conserved.statistics name
  · rw [counted_call]
    exact conserved.statsTotal
  · intro stopped
    have before := conserved.stopped stopped
    rw [World.push_state, submitting, Pool.total_begin _ free]
    cases call with
    | submit t =>
        have runs :
            (dispatching.view world.state.shared).running = true := orderly
        exact absurd stopped (by simp [Pool.begin, runs])
    | workerLoop => exact (zero_add _).trans before
    | stop => exact (zero_add _).trans before
  · have before := conserved.workers
    have same :
        exited (world.state.begin thread call call.enter) =
          exited world.state := rfl
    rw [World.push_state, active, Pool.total_begin _ free, same]
    unfold active at before
    cases call with
    | submit t => simpa [oneWorker] using before
    | stop => simpa [oneWorker] using before
    | workerLoop =>
        have room : active world.state + exited world.state < n := orderly
        unfold active at room
        simp only [oneWorker, if_true]
        omega

/-- A worker moves on in its loop. -/
theorem Conserved.advance (conserved : dispatching.Conserved n world)
    {thread began : Nat} {here next : DispatcherCall.Position .workerLoop}
    {shared : Shared}
    (running :
      world.state.activity? thread = some ⟨.workerLoop, began, here⟩)
    (queue :
      ((dispatching.view world.state.shared).queue : Multiset Tache) =
        (dispatching.view shared).queue + inHand ⟨.workerLoop, began, next⟩)
    (statistics : ∀ name,
      ((dispatching.view shared).stats.count name).toNat =
        (inHand ⟨.workerLoop, began, here⟩).countP
            (fun t => nomKind t.kind = name) +
          ((dispatching.view world.state.shared).stats.count name).toNat)
    (statsTotal :
      (dispatching.view shared).stats.total =
        Multiset.card (inHand ⟨.workerLoop, began, here⟩) +
          (dispatching.view world.state.shared).stats.total)
    (flag :
      (dispatching.view shared).running =
        (dispatching.view world.state.shared).running) :
    dispatching.Conserved n
      (world.push (.run thread)
        (world.state.advance thread ⟨.workerLoop, began, here⟩ shared
          next)) := by
  have sameCalls {M : Type} [AddCommMonoid M] (weight : DispatcherCall → M) :
      (world.state.advance thread ⟨.workerLoop, began, here⟩ shared
          next).total (fun activity => weight activity.call) =
        world.state.total fun activity => weight activity.call := by
    rw [Pool.total_advance, Pool.total_of_running _ running]
  refine
    { tasks := ?_
      statistics := ?_
      statsTotal := ?_
      stopped := ?_
      left := ?_
      workers := ?_ }
  · have before := conserved.tasks
    rw [Pool.total_of_running _ running, queue] at before
    rw [counted_run running, World.push_state, Pool.total_advance]
    refine before.trans ?_
    simp only [Pool.advance]
    abel
  · intro name
    rw [counted_run running, Multiset.countP_add,
      ← conserved.statistics name]
    exact statistics name
  · rw [counted_run running, Multiset.card_add, ← conserved.statsTotal]
    exact statsTotal
  · intro stopped
    have before := conserved.stopped (flag.symm.trans stopped)
    exact (sameCalls DispatcherCall.tasks).trans before
  · intro some
    exact flag.trans (conserved.left some)
  · have same :=
      sameCalls fun call => if call = .workerLoop then 1 else 0
    have before := conserved.workers
    exact (Nat.add_le_add_right (Nat.le_of_eq same) _).trans before

/-- A worker with nothing in hand moves on and counts nothing. -/
theorem Conserved.advanceIdle (conserved : dispatching.Conserved n world)
    {thread began : Nat} {here next : DispatcherCall.Position .workerLoop}
    {shared : Shared}
    (running :
      world.state.activity? thread = some ⟨.workerLoop, began, here⟩)
    (nothingInHand : inHand ⟨.workerLoop, began, here⟩ = 0)
    (queue :
      ((dispatching.view world.state.shared).queue : Multiset Tache) =
        (dispatching.view shared).queue + inHand ⟨.workerLoop, began, next⟩)
    (sameStats :
      (dispatching.view shared).stats =
        (dispatching.view world.state.shared).stats)
    (flag :
      (dispatching.view shared).running =
        (dispatching.view world.state.shared).running) :
    dispatching.Conserved n
      (world.push (.run thread)
        (world.state.advance thread ⟨.workerLoop, began, here⟩ shared
          next)) := by
  refine conserved.advance running queue ?_ ?_ flag
  · intro name
    rw [nothingInHand, sameStats, Multiset.countP_zero, Nat.zero_add]
  · rw [nothingInHand, sameStats, Multiset.card_zero, Nat.zero_add]

/-- A call returns. -/
theorem Conserved.finish (conserved : dispatching.Conserved n world)
    {thread : Nat} {activity : DispatcherActivity} {shared : Shared}
    (running : world.state.activity? thread = some activity)
    (nothingInHand : inHand activity = 0)
    (queue :
      ((dispatching.view shared).queue : Multiset Tache) =
        activity.call.tasks + (dispatching.view world.state.shared).queue)
    (sameStats :
      (dispatching.view shared).stats =
        (dispatching.view world.state.shared).stats)
    (stopped :
      (dispatching.view shared).running = false → submitting world.state = 0)
    (left :
      0 < oneWorker activity + exited world.state →
        (dispatching.view shared).running = false) :
    dispatching.Conserved n
      (world.push (.run thread)
        (world.state.finish thread activity shared ())) := by
  refine
    { tasks := ?_
      statistics := ?_
      statsTotal := ?_
      stopped := ?_
      left := ?_
      workers := ?_ }
  · have before := conserved.tasks
    rw [Pool.total_of_running _ running, nothingInHand, zero_add] at before
    rw [counted_run running, World.push_state, submitted_finish,
      Pool.total_finish, nothingInHand, zero_add, before]
    have after :
        ((dispatching.view
          (world.state.finish thread activity shared ()).shared).queue :
            Multiset Tache) =
          activity.call.tasks +
            (dispatching.view world.state.shared).queue := queue
    rw [after]
    abel
  · intro name
    rw [counted_run running, nothingInHand, zero_add,
      ← conserved.statistics name, ← sameStats]
    rfl
  · rw [counted_run running, nothingInHand, zero_add,
      ← conserved.statsTotal, ← sameStats]
    rfl
  · intro flag
    have before := stopped flag
    rw [submitting, Pool.total_of_running _ running] at before
    exact (add_eq_zero.mp before).2
  · intro some
    rw [World.push_state, exited_finish] at some
    exact left some
  · have before := conserved.workers
    rw [active, Pool.total_of_running _ running] at before
    rw [World.push_state, active, Pool.total_finish, exited_finish]
    omega

/-- While a task is being submitted, the flag is up. -/
theorem Conserved.running_of_submit (conserved : dispatching.Conserved n world)
    {thread began : Nat} {t : Tache}
    {here : DispatcherCall.Position (.submit t)}
    (running : world.state.activity? thread = some ⟨.submit t, began, here⟩) :
    (dispatching.view world.state.shared).running = true := by
  by_contra cleared
  have nobody := conserved.stopped (by simpa using cleared)
  rw [submitting, Pool.total_of_running _ running] at nobody
  simp [DispatcherCall.tasks] at nobody

/-- A task is submitted: no worker has left yet. -/
theorem Conserved.submit (conserved : dispatching.Conserved n world)
    {thread began : Nat} {t : Tache}
    (running :
      world.state.activity? thread = some ⟨.submit t, began, .submitPush⟩) :
    dispatching.Conserved n
      (world.push (.run thread)
        (world.state.finish thread ⟨.submit t, began, .submitPush⟩
          (dispatching.submit t world.state.shared) ())) := by
  have runs := conserved.running_of_submit running
  have submitted :
      dispatching.view (dispatching.submit t world.state.shared) =
        (dispatching.view world.state.shared).submit t :=
    dispatching.view_submit _ _
  have nobodyLeft : exited world.state = 0 := by
    by_contra some
    have cleared := conserved.left (Nat.pos_of_ne_zero some)
    rw [runs] at cleared
    cases cleared
  refine conserved.finish running rfl ?_ ?_ ?_ ?_
  · have queue :
        (dispatching.view (dispatching.submit t world.state.shared)).queue =
          (dispatching.view world.state.shared).queue ++ [t] := by
      rw [submitted]
      rfl
    rw [queue, ← Multiset.coe_add]
    exact add_comm _ _
  · rw [submitted]
    rfl
  · intro cleared
    rw [submitted] at cleared
    have same : (dispatching.view world.state.shared).running = false := cleared
    rw [runs] at same
    cases same
  · intro some
    rw [nobodyLeft] at some
    cases some

theorem countP_inHand (began : Nat) (t : Tache) (name : String) :
    (inHand ⟨.workerLoop, began, .workerCount t⟩).countP
        (fun other => nomKind other.kind = name) =
      if nomKind t.kind = name then 1 else 0 := by
  by_cases same : nomKind t.kind = name
  · simp [inHand, Multiset.countP_eq_card_filter, Multiset.filter_singleton,
      same]
  · simp [inHand, Multiset.countP_eq_zero, same]

/-- One step keeps everything accounted for. -/
theorem Conserved.push (conserved : dispatching.Conserved n world)
    (orderly : dispatching.Orderly n world.state label)
    (fits : dispatching.CountsFit world.state label)
    (moves : dispatching.Moves world.state label target) :
    dispatching.Conserved n (world.push label target) := by
  cases moves with
  | begin free => exact conserved.begin orderly free
  | push running => exact conserved.submit running
  | @take thread began t rest shared running queue view =>
      refine conserved.advanceIdle running rfl ?_ (by rw [view]) (by rw [view])
      rw [view, queue, ← Multiset.cons_coe, ← Multiset.singleton_add]
      exact add_comm _ _
  | findEmpty running queue view =>
      refine conserved.advanceIdle running rfl ?_ (by rw [view]) (by rw [view])
      rw [view]
      exact (add_zero _).symm
  | @count thread began t running =>
      have room := fits _ running t (Multiset.mem_singleton_self t)
      have counts :
          (dispatching.view
              (dispatching.countTache t world.state.shared)).stats =
            (dispatching.view world.state.shared).stats.increment
              (nomKind t.kind) := by
        rw [dispatching.view_countTache]
        rfl
      refine conserved.advance running ?_ ?_ ?_ ?_
      · rw [dispatching.view_countTache]
        exact (add_zero _).symm
      · intro name
        rw [counts, Stats.toNat_count_increment room, countP_inHand]
      · rw [counts, Stats.total_increment room]
        exact Nat.add_comm _ _
      · rw [dispatching.view_countTache]
        rfl
  | goOn running flag =>
      exact conserved.advanceIdle running rfl (add_zero _).symm rfl rfl
  | @leave thread began running flag =>
      exact conserved.finish running rfl (zero_add _).symm rfl
        conserved.stopped fun _ => flag
  | @stop thread began running =>
      have nobody : submitting world.state = 0 := orderly _ running rfl
      have stopped :
          dispatching.view (dispatching.stop world.state.shared) =
            (dispatching.view world.state.shared).stop :=
        dispatching.view_stop _
      refine conserved.finish running rfl ?_ ?_ (fun _ => nobody) ?_
      · rw [stopped]
        exact (zero_add _).symm
      · rw [stopped]
        rfl
      · intro _
        rw [stopped]
        rfl

/-! ## Who looks at the queue once more -/

/-- When the flag is down, the queue is empty or some worker has yet to find it
so. -/
def Drains (dispatching : Dispatching Shared) (n : Nat)
    (pool : DispatcherPool Shared) : Prop :=
  (dispatching.view pool.shared).running = false →
    (dispatching.view pool.shared).queue = [] ∨ departing pool < n

/-- The flag is down, there is a task in the queue and nobody pops any more. -/
def Stranded (dispatching : Dispatching Shared) (n : Nat)
    (pool : DispatcherPool Shared) : Prop :=
  (dispatching.view pool.shared).running = false ∧
    (dispatching.view pool.shared).queue ≠ [] ∧
    n ≤ departing pool

/-- A step after which somebody still drains the queue, if `stop` was in time. -/
theorem Conserved.drains (conserved : dispatching.Conserved n world)
    (inTime : dispatching.StopsInTime n world.state label)
    (drains : dispatching.Drains n world.state)
    (moves : dispatching.Moves world.state label target) :
    dispatching.Drains n target := by
  cases moves with
  | @begin thread call free =>
      intro flag
      rw [departing_begin free call]
      exact drains flag
  | @push thread began t running =>
      intro flag
      have runs := conserved.running_of_submit running
      have same :
          (dispatching.view
            (dispatching.submit t world.state.shared)).running = true := by
        rw [dispatching.view_submit]
        exact runs
      exact absurd (flag.symm.trans same) Bool.false_ne_true
  | @take thread began t rest shared running queue view =>
      intro flag
      have down : (dispatching.view world.state.shared).running = false := by
        rw [Pool.advance, view] at flag
        exact flag
      have departs := departing_advance running shared
        (.workerCount t)
      rcases drains down with empty | some
      · rw [queue] at empty
        cases empty
      · exact Or.inr (lt_of_eq_of_lt departs some)
  | findEmpty running queue view =>
      intro _
      refine Or.inl ?_
      rw [Pool.advance, view]
      exact queue
  | @count thread began t running =>
      intro flag
      have departs := departing_advance running
        (dispatching.countTache t world.state.shared) .workerPop
      rw [Pool.advance, dispatching.view_countTache] at flag
      rcases drains flag with empty | some
      · refine Or.inl ?_
        rw [Pool.advance, dispatching.view_countTache]
        exact empty
      · exact Or.inr (lt_of_eq_of_lt departs some)
  | goOn running runs =>
      intro flag
      exact absurd (flag.symm.trans runs) Bool.false_ne_true
  | leave running flag =>
      intro _
      have departs := departing_finish running world.state.shared ()
      exact (drains flag).imp_right
        (lt_of_eq_of_lt (Nat.add_right_cancel departs))
  | @stop thread began running =>
      intro _
      have departs := departing_finish running
        (dispatching.stop world.state.shared) ()
      refine (inTime _ running rfl).imp ?_ (lt_of_eq_of_lt departs)
      intro empty
      rw [Pool.finish, dispatching.view_stop]
      exact empty

/-- A `stop` that is not in time strands a task. -/
theorem stranded_of_stop {thread began : Nat} {pool : DispatcherPool Shared}
    (running : pool.activity? thread = some ⟨.stop, began, .stopStore⟩)
    (late : ¬ dispatching.StopsInTime n pool (.run thread)) :
    dispatching.Stranded n
      (pool.finish thread ⟨.stop, began, .stopStore⟩
        (dispatching.stop pool.shared) ()) := by
  have departs := departing_finish running
    (dispatching.stop pool.shared) ()
  have both :
      (dispatching.view pool.shared).queue ≠ [] ∧ n ≤ departing pool := by
    refine ⟨fun empty => ?_, Nat.le_of_not_lt fun fewer => ?_⟩
    · refine late fun _ _ _ => Or.inl empty
    · refine late fun _ _ _ => Or.inr fewer
  have stopped :
      dispatching.view
          (pool.finish thread ⟨.stop, began, .stopStore⟩
            (dispatching.stop pool.shared) ()).shared =
        (dispatching.view pool.shared).stop :=
    dispatching.view_stop _
  refine ⟨?_, ?_, le_of_le_of_eq both.2 departs.symm⟩
  · rw [stopped]
    rfl
  · rw [stopped]
    exact both.1

/-- A stranded task stays in the queue. -/
theorem Conserved.stranded (conserved : dispatching.Conserved n world)
    (orderly : dispatching.Orderly n world.state label)
    (stranded : dispatching.Stranded n world.state)
    (moves : dispatching.Moves world.state label target) :
    dispatching.Stranded n target := by
  obtain ⟨flag, some, nobody⟩ := stranded
  -- No worker is at a pop or has a task in hand.
  have none {thread : Nat} {activity : DispatcherActivity}
      (running : world.state.activity? thread = Option.some activity)
      (isWorker : oneWorker activity = 1)
      (notAtLoad : oneAtLoad activity = 0) : False := by
    have fewer := departing_lt running isWorker notAtLoad
    have workers := conserved.workers
    omega
  cases moves with
  | @begin thread call free =>
      exact ⟨flag, some, le_of_le_of_eq nobody (departing_begin free call).symm⟩
  | push running =>
      have runs := conserved.running_of_submit running
      exact absurd (flag.symm.trans runs) Bool.false_ne_true
  | take running queue view => exact (none running rfl rfl).elim
  | findEmpty running queue view => exact (none running rfl rfl).elim
  | count running => exact (none running rfl rfl).elim
  | goOn running runs => exact absurd (flag.symm.trans runs) Bool.false_ne_true
  | leave running _ =>
      have departs := departing_finish running world.state.shared ()
      exact
        ⟨flag, some,
          le_of_le_of_eq nobody (Nat.add_right_cancel departs).symm⟩
  | stop running =>
      refine stranded_of_stop running fun inTime => ?_
      rcases inTime _ running rfl with empty | fewer
      · exact some empty
      · exact absurd fewer (Nat.not_lt_of_le nobody)

/-- A stranded task is lost when all workers have left. -/
theorem Stranded.taskLost (stranded : dispatching.Stranded n world.state)
    (all : exited world.state = n) : ¬ dispatching.NoTaskLost n world :=
  fun noTaskLost => stranded.2.1 (noTaskLost all).1

/-- A dispatcher starts with nothing in it. -/
theorem conserved_idle :
    dispatching.Conserved n ⟨[], Pool.idle dispatching.new⟩ where
  tasks := by
    rw [Pool.total_idle, Pool.idle, dispatching.view_new]
    rfl
  statistics name := by
    rw [Pool.idle, dispatching.view_new]
    rfl
  statsTotal := by
    rw [Pool.idle, dispatching.view_new]
    rfl
  stopped := fun _ => Pool.total_idle _ _
  left := fun impossible => absurd impossible (Nat.lt_irrefl 0)
  workers := by
    rw [active, Pool.total_idle]
    exact Nat.zero_le n

/-- When no worker is in its loop, no task is in hand. -/
theorem inHand_eq_zero {pool : DispatcherPool Shared}
    (noWorker : active pool = 0) : pool.total inHand = 0 := by
  have each (activity : DispatcherActivity) :
      Multiset.card (inHand activity) ≤ oneWorker activity := by
    obtain ⟨call, began, here⟩ := activity
    cases here with
    | submitPush => exact Nat.le_refl 0
    | workerPop => exact Nat.zero_le 1
    | workerCount t => exact Nat.le_refl 1
    | workerLoad => exact Nat.zero_le 1
    | stopStore => exact Nat.le_refl 0
  have atMost := pool.map_total_le Multiset.cardHom each
  have none : active pool = pool.total oneWorker := rfl
  exact Multiset.card_eq_zero.mp (by simpa [← none, noWorker] using atMost)

theorem nomKind_inj {kind other : TypeTache} :
    nomKind kind = nomKind other ↔ kind = other := by
  cases kind <;> cases other <;> decide

/-- Nothing is lost in a run of at least one worker in which `stop` clears the flag
in time. -/
theorem noTaskLost_of_reachable (positive : 0 < n)
    (reachable :
      dispatching.system.Reachable
        (fun pool label =>
          dispatching.Orderly n pool label ∧
            dispatching.StopsInTime n pool label ∧
            dispatching.CountsFit pool label)
        world) :
    dispatching.NoTaskLost n world := by
  have both :
      dispatching.Conserved n world ∧ dispatching.Drains n world.state := by
    refine reachable.invariant
      (fun world =>
        dispatching.Conserved n world ∧ dispatching.Drains n world.state)
      ?_ ?_
    · rintro pool ⟨shared, rfl, rfl⟩
      refine ⟨conserved_idle, fun _ => Or.inl ?_⟩
      rw [Pool.idle, dispatching.view_new]
      rfl
    · intro label source target _ before step
      obtain ⟨orderly, inTime, fits⟩ := step.1
      have moves := moves_of_exec step.2.1
      rw [step.2.2]
      exact ⟨before.1.push orderly fits moves,
        before.1.drains inTime before.2 moves⟩
  obtain ⟨conserved, drains⟩ := both
  intro all
  have empty : (dispatching.view world.state.shared).queue = [] := by
    refine (drains (conserved.left (all ▸ positive))).resolve_right ?_
    rw [departing, all]
    exact Nat.not_lt_of_le (Nat.le_add_left _ _)
  have noWorker : active world.state = 0 := by
    have workers := conserved.workers
    omega
  have counts : counted world = submitted world.state := by
    rw [conserved.tasks, empty, inHand_eq_zero noWorker]
    simp
  refine ⟨empty, counts, ?_, ?_⟩
  · intro kind
    rw [conserved.statistics, counts]
    simp only [nomKind_inj]
  · rw [conserved.statsTotal, counts]

end Dispatching

/-! ## Both dispatchers -/

/-- Neither dispatcher loses a task in such a run. -/
theorem dispatchers_lose_nothing (n : Nat) (positive : 0 < n) :
    (∀ world : DispatcherWorld Dispatcher,
      Dispatcher.dispatching.system.Reachable
          (fun pool label =>
            Dispatcher.dispatching.Orderly n pool label ∧
              Dispatcher.dispatching.StopsInTime n pool label ∧
              Dispatcher.dispatching.CountsFit pool label)
          world →
      Dispatcher.dispatching.NoTaskLost n world) ∧
    ∀ world : DispatcherWorld DispatcherMutex,
      DispatcherMutex.dispatching.system.Reachable
          (fun pool label =>
            DispatcherMutex.dispatching.Orderly n pool label ∧
              DispatcherMutex.dispatching.StopsInTime n pool label ∧
              DispatcherMutex.dispatching.CountsFit pool label)
          world →
      DispatcherMutex.dispatching.NoTaskLost n world :=
  ⟨fun _ reachable => Dispatching.noTaskLost_of_reachable positive reachable,
    fun _ reachable => Dispatching.noTaskLost_of_reachable positive reachable⟩

/-- Two tasks are submitted at once; one worker leaves while the second is still in
the queue, and the other counts both. -/
theorem dispatchers_lose_nothing_two_tasks :
    ∃ world : DispatcherWorld Dispatcher,
      exited world.state = 2 ∧
        (world.state.shared.stats.count "alerte").toNat = 1 ∧
        (world.state.shared.stats.count "parse").toNat = 1 ∧
        Dispatcher.dispatching.NoTaskLost 2 world := by
  obtain ⟨world, reachable, checked⟩ :=
    System.exists_reachable_of_replay Dispatcher.dispatching.system
      (fun pool label =>
        Dispatcher.dispatching.Orderly 2 pool label ∧
          Dispatcher.dispatching.StopsInTime 2 pool label ∧
          Dispatcher.dispatching.CountsFit pool label)
      (Pool.idle Dispatcher.new)
      [.call 0 .workerLoop, .call 1 .workerLoop, .run 0,
        .call 2 (.submit ⟨7, .alerte, 42⟩), .call 3 (.submit ⟨8, .parse, 0⟩),
        .run 3, .run 1, .run 2, .call 3 .stop, .run 3, .run 0,
        .run 1, .run 1, .run 1, .run 1, .run 1]
      (fun pool label =>
        decide
          (Dispatcher.dispatching.Orderly 2 pool label ∧
            Dispatcher.dispatching.StopsInTime 2 pool label ∧
            Dispatcher.dispatching.CountsFit pool label))
      (fun world =>
        exited world.state == 2 &&
          (world.state.shared.stats.count "alerte").toNat == 1 &&
          (world.state.shared.stats.count "parse").toNat == 1)
      ⟨_, rfl, rfl⟩ (fun _ _ admitted => of_decide_eq_true admitted)
      (by decide +kernel)
  simp only [Bool.and_eq_true, beq_iff_eq] at checked
  exact ⟨world, checked.1.1, checked.1.2, checked.2,
    (dispatchers_lose_nothing 2 Nat.two_pos).1 world reachable⟩

/-- A worker finds the queue empty, then a task is submitted and the flag cleared,
and the worker leaves the task behind. -/
theorem worker_leaves_task_behind :
    (¬ ∀ (n : Nat) (world : DispatcherWorld Dispatcher),
      0 < n →
      Dispatcher.dispatching.system.Reachable
        (Dispatcher.dispatching.Orderly n) world →
      Dispatcher.dispatching.NoTaskLost n world) ∧
    ¬ ∀ (n : Nat) (world : DispatcherWorld DispatcherMutex),
      0 < n →
      DispatcherMutex.dispatching.system.Reachable
        (DispatcherMutex.dispatching.Orderly n) world →
      DispatcherMutex.dispatching.NoTaskLost n world := by
  constructor
  · intro noTaskLost
    obtain ⟨world, reachable, checked⟩ :=
      System.exists_reachable_of_replay Dispatcher.dispatching.system
        (Dispatcher.dispatching.Orderly 1) (Pool.idle Dispatcher.new)
        [.call 0 .workerLoop, .run 0, .call 1 (.submit ⟨7, .alerte, 42⟩),
          .run 1, .call 1 .stop, .run 1, .run 0]
        (fun pool label =>
          decide (Dispatcher.dispatching.Orderly 1 pool label))
        (fun world =>
          exited world.state == 1 && !world.state.shared.queue.isEmpty)
        ⟨_, rfl, rfl⟩ (fun _ _ admitted => of_decide_eq_true admitted)
        (by decide +kernel)
    simp only [Bool.and_eq_true, beq_iff_eq, Bool.not_eq_true',
      List.isEmpty_eq_false_iff] at checked
    exact checked.2 (noTaskLost 1 world Nat.one_pos reachable checked.1).1
  · intro noTaskLost
    obtain ⟨world, reachable, checked⟩ :=
      System.exists_reachable_of_replay DispatcherMutex.dispatching.system
        (DispatcherMutex.dispatching.Orderly 1) (Pool.idle DispatcherMutex.new)
        [.call 0 .workerLoop, .run 0, .call 1 (.submit ⟨7, .alerte, 42⟩),
          .run 1, .call 1 .stop, .run 1, .run 0]
        (fun pool label =>
          decide (DispatcherMutex.dispatching.Orderly 1 pool label))
        (fun world =>
          exited world.state == 1 && !world.state.shared.queue.isEmpty)
        ⟨_, rfl, rfl⟩ (fun _ _ admitted => of_decide_eq_true admitted)
        (by decide +kernel)
    simp only [Bool.and_eq_true, beq_iff_eq, Bool.not_eq_true',
      List.isEmpty_eq_false_iff] at checked
    exact checked.2 (noTaskLost 1 world Nat.one_pos reachable checked.1).1

end HautePerformance.Demos
