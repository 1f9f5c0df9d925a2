import Mathlib.Data.List.AList
import HautePerformance.Library.Transition

/-!
# Threads calling an object

An object is a shared state with operations.  Each operation is cut into atomic
steps: a thread that has called it stands at a position of the call, and a step
changes the shared state and moves to another position or returns.  Positions
and results are indexed by the call, so a thread cannot stand at a position of
another operation.

A pool interleaves the steps of any number of threads with events of the
environment.  Steps are numbered, which orders calls in real time: a call that
ended at or before the step where another one began returned before it started.
-/

namespace HautePerformance.Library

/-- Where a step leads. -/
inductive Next (Position Result : Type) where
  | goOn (position : Position)
  | finish (result : Result)

/-- Operations on a shared state, cut into atomic steps. -/
structure ConcurrentObject (Shared Environment : Type) {Call : Type}
    (Position Result : Call → Type) where
  enter : (call : Call) → Position call
  step : {call : Call} → Shared → Position call →
    Shared × Next (Position call) (Result call)
  environment : Environment → Shared → Shared

/-- A call under way. -/
structure Activity {Call : Type} (Position : Call → Type) where
  call : Call
  began : Nat
  position : Position call

/-- A call that has returned. -/
structure Returned {Call : Type} (Result : Call → Type) where
  thread : Nat
  call : Call
  result : Result call
  began : Nat
  ended : Nat

structure Pool (Shared : Type) {Call : Type}
    (Position Result : Call → Type) where
  shared : Shared
  /-- The threads that are in a call. -/
  running : AList (fun _ : Nat => Activity Position)
  /-- The most recent first. -/
  returned : List (Returned Result)
  steps : Nat

inductive PoolLabel (Call Environment : Type) where
  | call (thread : Nat) (call : Call)
  | run (thread : Nat)
  | environment (event : Environment)

variable {Shared Environment Call : Type} {Position Result : Call → Type}

namespace Pool

/-- No thread has called anything yet. -/
def idle (shared : Shared) : Pool Shared Position Result :=
  { shared := shared
    running := ∅
    returned := []
    steps := 0 }

/-- The call that a thread is in. -/
def activity? (pool : Pool Shared Position Result) (thread : Nat) :
    Option (Activity Position) :=
  pool.running.lookup thread

/-- Every call under way has the property. -/
def All (pool : Pool Shared Position Result)
    (property : Activity Position → Prop) : Prop :=
  ∀ entry, entry ∈ pool.running.entries → property entry.2

instance (pool : Pool Shared Position Result)
    (property : Activity Position → Prop) [DecidablePred property] :
    Decidable (pool.All property) :=
  inferInstanceAs (Decidable (∀ _, _ → _))

theorem All.at {pool : Pool Shared Position Result}
    {property : Activity Position → Prop} (all : pool.All property)
    {thread : Nat} {activity : Activity Position}
    (running : pool.activity? thread = some activity) : property activity :=
  all ⟨thread, activity⟩ (AList.mem_lookup_iff.mp running)

/-- Every call has returned. -/
def AtRest (pool : Pool Shared Position Result) : Prop :=
  pool.running.entries = []

instance (pool : Pool Shared Position Result) : Decidable pool.AtRest :=
  inferInstanceAs (Decidable (_ = []))

/-- The call that the label runs on. -/
def mover? {Environment : Type} (pool : Pool Shared Position Result) :
    PoolLabel Call Environment → Option (Activity Position)
  | .run thread => pool.activity? thread
  | _ => none

def begin (pool : Pool Shared Position Result) (thread : Nat) (call : Call)
    (position : Position call) : Pool Shared Position Result :=
  { pool with
    running := pool.running.insert thread ⟨call, pool.steps, position⟩
    steps := pool.steps + 1 }

def advance (pool : Pool Shared Position Result) (thread : Nat)
    (activity : Activity Position) (shared : Shared)
    (position : Position activity.call) : Pool Shared Position Result :=
  { pool with
    shared := shared
    running :=
      pool.running.insert thread { activity with position := position }
    steps := pool.steps + 1 }

def finish (pool : Pool Shared Position Result) (thread : Nat)
    (activity : Activity Position) (shared : Shared)
    (result : Result activity.call) : Pool Shared Position Result :=
  { shared := shared
    running := pool.running.erase thread
    returned :=
      ⟨thread, activity.call, result, activity.began, pool.steps + 1⟩ ::
        pool.returned
    steps := pool.steps + 1 }

def disturb (pool : Pool Shared Position Result) (shared : Shared) :
    Pool Shared Position Result :=
  { pool with
    shared := shared
    steps := pool.steps + 1 }

end Pool

namespace ConcurrentObject

variable (object : ConcurrentObject Shared Environment Position Result)

/-- One step of the pool: a thread calls, a thread runs on, or the environment
acts. -/
def exec (pool : Pool Shared Position Result) :
    PoolLabel Call Environment → Option (Pool Shared Position Result)
  | .call thread call =>
      match pool.activity? thread with
      | none => some (pool.begin thread call (object.enter call))
      | some _ => none
  | .run thread =>
      match pool.activity? thread with
      | none => none
      | some activity =>
          match object.step pool.shared activity.position with
          | (shared, .goOn position) =>
              some (pool.advance thread activity shared position)
          | (shared, .finish result) =>
              some (pool.finish thread activity shared result)
  | .environment event =>
      some (pool.disturb (object.environment event pool.shared))

/-- The pools that start idle in one of the given shared states. -/
def system (start : Shared → Prop) :
    System (Pool Shared Position Result) (PoolLabel Call Environment) where
  init pool := ∃ shared, start shared ∧ pool = Pool.idle shared
  exec := object.exec

/-- A call runs to its end without interference. -/
inductive RunsAlone {call : Call} :
    Shared → Position call → Shared × Result call → Prop
  | finish {shared later : Shared} {position : Position call}
      {result : Result call} :
      object.step shared position = (later, .finish result) →
      RunsAlone shared position (later, result)
  | goOn {shared later : Shared} {position next : Position call}
      {outcome : Shared × Result call} :
      object.step shared position = (later, .goOn next) →
      RunsAlone later next outcome →
      RunsAlone shared position outcome

/-- What a step of the pool does, one constructor per kind of step. -/
inductive Moves (source : Pool Shared Position Result) :
    PoolLabel Call Environment → Pool Shared Position Result → Prop
  | call {thread : Nat} {call : Call} :
      source.activity? thread = none →
      Moves source (.call thread call)
        (source.begin thread call (object.enter call))
  | advance {thread : Nat} {activity : Activity Position} {shared : Shared}
      {position : Position activity.call} :
      source.activity? thread = some activity →
      object.step source.shared activity.position =
        (shared, .goOn position) →
      Moves source (.run thread)
        (source.advance thread activity shared position)
  | finish {thread : Nat} {activity : Activity Position} {shared : Shared}
      {result : Result activity.call} :
      source.activity? thread = some activity →
      object.step source.shared activity.position =
        (shared, .finish result) →
      Moves source (.run thread)
        (source.finish thread activity shared result)
  | environment {event : Environment} :
      Moves source (.environment event)
        (source.disturb (object.environment event source.shared))

variable {object}
variable {source target : Pool Shared Position Result}
variable {label : PoolLabel Call Environment}

theorem moves_of_exec (executed : object.exec source label = some target) :
    object.Moves source label target := by
  unfold exec at executed
  split at executed
  · split at executed
    · rename_i idle
      cases executed
      exact Moves.call idle
    · cases executed
  · split at executed
    · cases executed
    · rename_i activity running
      split at executed
      · rename_i stepped
        cases executed
        exact Moves.advance running stepped
      · rename_i stepped
        cases executed
        exact Moves.finish running stepped
  · cases executed
    exact Moves.environment

theorem exec_of_goOn {thread : Nat} {activity : Activity Position}
    {shared : Shared} {position : Position activity.call}
    (running : source.activity? thread = some activity)
    (stepped :
      object.step source.shared activity.position =
        (shared, .goOn position)) :
    object.exec source (.run thread) =
      some (source.advance thread activity shared position) := by
  simp only [exec, running, stepped]

theorem exec_of_finish {thread : Nat} {activity : Activity Position}
    {shared : Shared} {result : Result activity.call}
    (running : source.activity? thread = some activity)
    (stepped :
      object.step source.shared activity.position =
        (shared, .finish result)) :
    object.exec source (.run thread) =
      some (source.finish thread activity shared result) := by
  simp only [exec, running, stepped]

namespace Moves

theorem steps_eq (moves : object.Moves source label target) :
    target.steps = source.steps + 1 := by
  cases moves <;> rfl

/-- A call that has returned stays recorded. -/
theorem returned_subset (moves : object.Moves source label target) :
    source.returned ⊆ target.returned := by
  cases moves with
  | call _ => exact List.Subset.refl _
  | advance _ _ => exact List.Subset.refl _
  | finish _ _ => exact List.subset_cons_self _ _
  | environment => exact List.Subset.refl _

/-- An activity of the new pool was running before, at another thread than the
one that moves, or it is what the move has made. -/
theorem running_cases (moves : object.Moves source label target)
    {thread : Nat} {activity : Activity Position}
    (running : target.activity? thread = some activity) :
    (source.activity? thread = some activity ∧ label ≠ .run thread) ∨
      (∃ call,
        label = .call thread call ∧
          target = source.begin thread call (object.enter call) ∧
          activity = ⟨call, source.steps, object.enter call⟩) ∨
      ∃ earlier shared position,
        label = .run thread ∧
          source.activity? thread = some earlier ∧
          object.step source.shared earlier.position =
            (shared, .goOn position) ∧
          target = source.advance thread earlier shared position ∧
          activity = { earlier with position := position } := by
  cases moves with
  | @call mover call free =>
      by_cases same : thread = mover
      · subst same
        rw [Pool.activity?, Pool.begin, AList.lookup_insert] at running
        cases running
        exact Or.inr (Or.inl ⟨call, rfl, rfl, rfl⟩)
      · rw [Pool.activity?, Pool.begin, AList.lookup_insert_ne same] at running
        exact Or.inl ⟨running, by simp⟩
  | @advance mover earlier shared position active stepped =>
      by_cases same : thread = mover
      · subst same
        rw [Pool.activity?, Pool.advance, AList.lookup_insert] at running
        cases running
        exact Or.inr (Or.inr
          ⟨earlier, shared, position, rfl, active, stepped, rfl, rfl⟩)
      · rw [Pool.activity?, Pool.advance,
          AList.lookup_insert_ne same] at running
        exact Or.inl ⟨running, by simpa using Ne.symm same⟩
  | @finish mover earlier shared result active stepped =>
      by_cases same : thread = mover
      · subst same
        rw [Pool.activity?, Pool.finish, AList.lookup_erase] at running
        cases running
      · rw [Pool.activity?, Pool.finish, AList.lookup_erase_ne same] at running
        exact Or.inl ⟨running, by simpa using Ne.symm same⟩
  | environment => exact Or.inl ⟨running, by simp⟩

/-- A call under way is left where it is by the moves of the others. -/
theorem activity_kept (moves : object.Moves source label target)
    {thread : Nat} {activity : Activity Position}
    (running : source.activity? thread = some activity)
    (notMover : label ≠ .run thread) :
    target.activity? thread = some activity := by
  cases moves with
  | @call mover call free =>
      have different : thread ≠ mover := by
        intro same
        rw [← same, running] at free
        cases free
      rwa [Pool.activity?, Pool.begin, AList.lookup_insert_ne different]
  | @advance mover _ _ _ _ _ =>
      have different : thread ≠ mover := fun same => notMover (by rw [same])
      rwa [Pool.activity?, Pool.advance, AList.lookup_insert_ne different]
  | @finish mover _ _ _ _ _ =>
      have different : thread ≠ mover := fun same => notMover (by rw [same])
      rwa [Pool.activity?, Pool.finish, AList.lookup_erase_ne different]
  | environment => exact running

/-- The move of a thread whose step leads to another position. -/
theorem eq_advance {thread : Nat} {activity : Activity Position}
    {shared : Shared} {position : Position activity.call}
    (moves : object.Moves source (.run thread) target)
    (running : source.activity? thread = some activity)
    (stepped :
      object.step source.shared activity.position =
        (shared, .goOn position)) :
    target = source.advance thread activity shared position := by
  cases moves with
  | advance active advanced =>
      rw [running] at active
      cases active
      rw [stepped] at advanced
      cases advanced
      rfl
  | finish active finished =>
      rw [running] at active
      cases active
      rw [stepped] at finished
      cases finished

/-- The move of a thread whose step returns. -/
theorem eq_finish {thread : Nat} {activity : Activity Position}
    {shared : Shared} {result : Result activity.call}
    (moves : object.Moves source (.run thread) target)
    (running : source.activity? thread = some activity)
    (stepped :
      object.step source.shared activity.position =
        (shared, .finish result)) :
    target = source.finish thread activity shared result := by
  cases moves with
  | advance active advanced =>
      rw [running] at active
      cases active
      rw [stepped] at advanced
      cases advanced
  | finish active finished =>
      rw [running] at active
      cases active
      rw [stepped] at finished
      cases finished
      rfl

/-- A recorded return is an earlier one, or that of the thread that moves. -/
theorem returned_cases (moves : object.Moves source label target)
    {record : Returned Result} (recorded : record ∈ target.returned) :
    record ∈ source.returned ∨
      ∃ thread activity shared result,
        label = .run thread ∧
          source.activity? thread = some activity ∧
          object.step source.shared activity.position =
            (shared, .finish result) ∧
          target = source.finish thread activity shared result ∧
          record =
            ⟨thread, activity.call, result, activity.began,
              source.steps + 1⟩ := by
  cases moves with
  | call _ => exact Or.inl recorded
  | advance _ _ => exact Or.inl recorded
  | @finish thread activity shared result active stepped =>
      rcases List.mem_cons.mp recorded with isNew | isOld
      · exact Or.inr
          ⟨thread, activity, shared, result, rfl, active, stepped, rfl, isNew⟩
      · exact Or.inl isOld
  | environment => exact Or.inl recorded

/-- The shared state is changed by the step of one thread or by the
environment. -/
theorem shared_cases (moves : object.Moves source label target) :
    target.shared = source.shared ∨
      (∃ thread activity,
        label = .run thread ∧
          source.activity? thread = some activity ∧
          target.shared =
            (object.step source.shared activity.position).1) ∨
      ∃ event, target.shared = object.environment event source.shared := by
  cases moves with
  | call _ => exact Or.inl rfl
  | @advance thread activity _ _ active stepped =>
      exact Or.inr (Or.inl ⟨thread, activity, rfl, active, by
        rw [stepped]
        rfl⟩)
  | @finish thread activity _ _ active stepped =>
      exact Or.inr (Or.inl ⟨thread, activity, rfl, active, by
        rw [stepped]
        rfl⟩)
  | @environment event => exact Or.inr (Or.inr ⟨event, rfl⟩)

end Moves

end ConcurrentObject

/-! ## Proof outlines -/

/-- A property of the pool, with a property of every call under way. -/
structure Outline (Shared : Type) {Call : Type}
    (Position Result : Call → Type) where
  Inv : Pool Shared Position Result → Prop
  At : Pool Shared Position Result → Activity Position → Prop

namespace Outline

variable {object : ConcurrentObject Shared Environment Position Result}
variable {allowed :
  Pool Shared Position Result → PoolLabel Call Environment → Prop}
variable {outline : Outline Shared Position Result}

def Holds (outline : Outline Shared Position Result)
    (pool : Pool Shared Position Result) : Prop :=
  outline.Inv pool ∧
    ∀ thread activity,
      pool.activity? thread = some activity → outline.At pool activity

theorem Holds.mover {pool : Pool Shared Position Result}
    {label : PoolLabel Call Environment} {activity : Activity Position}
    (holds : outline.Holds pool)
    (moving : pool.mover? label = some activity) : outline.At pool activity := by
  cases label with
  | run thread => exact holds.2 thread activity moving
  | call _ _ => cases moving
  | environment _ => cases moving

/-- The proof obligations of an outline: each allowed move keeps the property of
the pool, establishes the property of the call it begins or moves on, and does
not interfere with the calls of the other threads. -/
structure Sound (outline : Outline Shared Position Result)
    (object : ConcurrentObject Shared Environment Position Result)
    (allowed :
      Pool Shared Position Result → PoolLabel Call Environment → Prop) :
    Prop where
  inv : ∀ {source label target},
    allowed source label →
    outline.Holds source →
    object.Moves source label target →
    outline.Inv target
  begins : ∀ {source thread call},
    allowed source (.call thread call) →
    outline.Holds source →
    source.activity? thread = none →
    outline.At (source.begin thread call (object.enter call))
      ⟨call, source.steps, object.enter call⟩
  advances : ∀ {source thread} {activity : Activity Position}
      {shared position},
    allowed source (.run thread) →
    outline.Holds source →
    source.activity? thread = some activity →
    object.step source.shared activity.position = (shared, .goOn position) →
    outline.At (source.advance thread activity shared position)
      { activity with position := position }
  stable : ∀ {source label target thread} {activity : Activity Position},
    allowed source label →
    outline.Holds source →
    object.Moves source label target →
    source.activity? thread = some activity →
    label ≠ .run thread →
    outline.At target activity

/-- A move keeps a sound outline. -/
theorem Sound.preserved (sound : outline.Sound object allowed)
    {source target : Pool Shared Position Result}
    {label : PoolLabel Call Environment}
    (admitted : allowed source label) (holds : outline.Holds source)
    (moves : object.Moves source label target) : outline.Holds target := by
  refine ⟨sound.inv admitted holds moves, ?_⟩
  intro thread activity running
  rcases moves.running_cases running with
    ⟨before, notMover⟩ | ⟨call, rfl, rfl, rfl⟩ |
      ⟨earlier, shared, position, rfl, active, stepped, rfl, rfl⟩
  · exact sound.stable admitted holds moves before notMover
  · cases moves with
    | call free => exact sound.begins admitted holds free
  · exact sound.advances admitted holds active stepped

/-- A sound outline that holds of the idle pools holds of every reachable
pool. -/
theorem Sound.reachable (sound : outline.Sound object allowed)
    {start : Shared → Prop}
    {world : World (Pool Shared Position Result)
      (PoolLabel Call Environment)}
    (initial : ∀ shared, start shared → outline.Inv (Pool.idle shared))
    (reachable : (object.system start).Reachable allowed world) :
    outline.Holds world.state := by
  refine reachable.state_invariant outline.Holds ?_ ?_
  · intro pool atStart
    obtain ⟨shared, starts, rfl⟩ := atStart
    refine ⟨initial shared starts, ?_⟩
    intro thread activity running
    cases running
  · intro label source target holds admitted executed
    exact sound.preserved admitted holds
      (ConcurrentObject.moves_of_exec executed)

/-- Calls begin and end at the steps already taken. -/
def times : Outline Shared Position Result where
  Inv pool :=
    ∀ record, record ∈ pool.returned →
      record.began < record.ended ∧ record.ended ≤ pool.steps
  At pool activity := activity.began < pool.steps

theorem times_sound :
    (times : Outline Shared Position Result).Sound object allowed where
  inv := by
    intro source label target _ holds moves record recorded
    have later := moves.steps_eq
    rcases moves.returned_cases recorded with
      before | ⟨thread, activity, shared, result, _, running, _, _, rfl⟩
    · have bounds := holds.1 record before
      omega
    · have started : activity.began < source.steps :=
        holds.2 thread activity running
      show activity.began < source.steps + 1 ∧ source.steps + 1 ≤ target.steps
      omega
  begins := by
    intro source thread call _ _ _
    exact Nat.lt_succ_self source.steps
  advances := by
    intro source thread activity shared position _ holds running _
    have started : activity.began < source.steps :=
      holds.2 thread activity running
    exact Nat.lt_succ_of_lt started
  stable := by
    intro source label target thread activity _ holds moves running _
    have started : activity.began < source.steps :=
      holds.2 thread activity running
    have later := moves.steps_eq
    show activity.began < target.steps
    omega

theorem times_of_reachable {start : Shared → Prop}
    {world : World (Pool Shared Position Result) (PoolLabel Call Environment)}
    (reachable : (object.system start).Reachable allowed world) :
    (times : Outline Shared Position Result).Holds world.state := by
  refine times_sound.reachable ?_ reachable
  intro shared _ record recorded
  cases recorded

end Outline

end HautePerformance.Library
