import Mathlib.Algebra.Order.Group.Multiset
import Mathlib.Tactic.Abel
import HautePerformance.Library.PoolTotals

/-!
# Updates made by the calls of a pool

A part of the shared state that every call updates once, by one of its steps.  The
value is what the updates so far make of the first one, in the order in which they
were made, and the updates so far are those of the calls that are past that step.
When every call has returned these are all calls, and if updates commute the order
does not matter.
-/

namespace HautePerformance.Library

variable {Shared Environment Call : Type} {Position Result : Call → Type}
variable {V : Type}

/-- A call that has returned has made its update. -/
def Next.applied {Position Result : Type} (applied : Position → Bool) :
    Next Position Result → Bool
  | .goOn position => applied position
  | .finish _ => true

namespace Pool

/-- The call, if it is past the step. -/
def updateOf (applied : (call : Call) → Position call → Bool)
    (activity : Activity Position) : Multiset Call :=
  if applied activity.call activity.position then {activity.call} else 0

/-- The calls that have made their update. -/
def updates (applied : (call : Call) → Position call → Bool)
    (pool : Pool Shared Position Result) : Multiset Call :=
  pool.total (updateOf applied) + (pool.returned.map Returned.call : List Call)

theorem updates_of_atRest {applied : (call : Call) → Position call → Bool}
    {pool : Pool Shared Position Result} (rest : pool.AtRest) :
    pool.updates applied = (pool.returned.map Returned.call : List Call) := by
  have noCalls : pool.total (updateOf applied) = 0 := by
    rw [total, Entries.sum, show pool.running.entries = [] from rest]
    rfl
  rw [updates, noCalls, zero_add]

end Pool

/-- Calls update the part of the shared state once, at the step that takes them
past it. -/
structure UpdatesOnce
    (object : ConcurrentObject Shared Environment Position Result)
    (part : Shared → V) (update : V → Call → V)
    (applied : (call : Call) → Position call → Bool)
    (allowed : Pool Shared Position Result → PoolLabel Call Environment → Prop) :
    Prop where
  enter : ∀ call, applied call (object.enter call) = false
  environment : ∀ event shared, part (object.environment event shared) = part shared
  step : ∀ {pool thread} {activity : Activity Position},
    allowed pool (.run thread) →
    pool.activity? thread = some activity →
    let after := object.step pool.shared activity.position
    (after.2.applied (applied activity.call) =
        applied activity.call activity.position ∧
      part after.1 = part pool.shared) ∨
    (applied activity.call activity.position = false ∧
      after.2.applied (applied activity.call) = true ∧
      part after.1 = update (part pool.shared) activity.call)

namespace UpdatesOnce

variable {object : ConcurrentObject Shared Environment Position Result}
variable {part : Shared → V} {update : V → Call → V}
variable {applied : (call : Call) → Position call → Bool}
variable {allowed : Pool Shared Position Result → PoolLabel Call Environment → Prop}
variable {source target : Pool Shared Position Result}
variable {label : PoolLabel Call Environment}

/-- The step of a thread, in the calls that have made their update. -/
theorem updates_run (applied : (call : Call) → Position call → Bool) {thread : Nat} {activity : Activity Position}
    (moves : object.Moves source (.run thread) target)
    (running : source.activity? thread = some activity) :
    target.shared = (object.step source.shared activity.position).1 ∧
      target.updates applied + Pool.updateOf applied activity =
        source.updates applied +
          if (object.step source.shared activity.position).2.applied
              (applied activity.call)
          then {activity.call} else 0 := by
  rw [Pool.updates, Pool.updates, Pool.total_of_running _ running]
  have swap : ∀ mine others returned after : Multiset Call,
      after + others + returned + mine = mine + others + returned + after := by
    intro mine others returned after
    abel
  have move : ∀ mine others returned call : Multiset Call,
      others + (call + returned) + mine = mine + others + returned + call := by
    intro mine others returned call
    abel
  cases moves with
  | advance active stepped =>
      rw [running] at active
      cases active
      rw [Pool.total_advance, stepped]
      exact ⟨rfl, swap _ _ _ _⟩
  | @finish _ _ shared result active stepped =>
      rw [running] at active
      cases active
      have returned :
          (((source.finish thread activity shared result).returned.map
              Returned.call : List Call) : Multiset Call) =
            {activity.call} + (source.returned.map Returned.call : List Call) :=
        rfl
      rw [Pool.total_finish, stepped, returned]
      exact ⟨rfl, move _ _ _ _⟩

/-- A move makes the update of one call, or of none. -/
theorem moves_cases
    (updatesOnce : UpdatesOnce object part update applied allowed)
    (admitted : allowed source label) (moves : object.Moves source label target) :
    (target.updates applied = source.updates applied ∧
      part target.shared = part source.shared) ∨
    ∃ call,
      target.updates applied = source.updates applied + {call} ∧
        part target.shared = update (part source.shared) call := by
  cases label with
  | call thread call =>
      cases moves with
      | call free =>
          refine Or.inl ⟨?_, rfl⟩
          rw [Pool.updates, Pool.updates, Pool.total_begin _ free, Pool.updateOf,
            updatesOnce.enter]
          simp [Pool.begin]
  | environment event =>
      cases moves with
      | environment => exact Or.inl ⟨rfl, updatesOnce.environment event source.shared⟩
  | run thread =>
      have mover : ∃ activity, source.activity? thread = some activity := by
        cases moves with
        | advance active _ => exact ⟨_, active⟩
        | finish active _ => exact ⟨_, active⟩
      obtain ⟨activity, running⟩ := mover
      obtain ⟨sharedAfter, counted⟩ := updates_run applied moves running
      rw [sharedAfter]
      rcases updatesOnce.step admitted running with
        ⟨sameApplied, unchanged⟩ | ⟨notYet, now, updated⟩
      · refine Or.inl ⟨?_, unchanged⟩
        rw [sameApplied, Pool.updateOf] at counted
        exact add_right_cancel counted
      · refine Or.inr ⟨activity.call, ?_, updated⟩
        rw [now, Pool.updateOf, notYet] at counted
        simpa using counted

/-- The order in which the updates were made. -/
theorem exists_order {start : Shared → Prop} {first : V}
    (updatesOnce : UpdatesOnce object part update applied allowed)
    (initial : ∀ shared, start shared → part shared = first)
    {world : World (Pool Shared Position Result) (PoolLabel Call Environment)}
    (reachable : (object.system start).Reachable allowed world) :
    ∃ order : List Call,
      world.state.updates applied = order ∧
        part world.state.shared = order.foldl update first := by
  induction reachable with
  | start atStart =>
      obtain ⟨shared, starts, rfl⟩ := atStart
      refine ⟨[], ?_, initial shared starts⟩
      rw [Pool.updates, Pool.total_idle]
      rfl
  | @next source target label _ step inductionHypothesis =>
      obtain ⟨order, sameCalls, value⟩ := inductionHypothesis
      have moves : object.Moves source.state label target.state :=
        ConcurrentObject.moves_of_exec step.2.1
      rcases updatesOnce.moves_cases step.1 moves with
        ⟨noUpdate, unchanged⟩ | ⟨call, oneMore, updated⟩
      · exact ⟨order, noUpdate.trans sameCalls, unchanged.trans value⟩
      · refine ⟨order ++ [call], ?_, ?_⟩
        · rw [oneMore, sameCalls]
          rfl
        · rw [updated, value, List.foldl_append]
          rfl

/-- Once every call has returned, any order of the calls gives the value. -/
theorem part_of_atRest [RightCommutative update] {start : Shared → Prop} {first : V}
    (updatesOnce : UpdatesOnce object part update applied allowed)
    (initial : ∀ shared, start shared → part shared = first)
    {world : World (Pool Shared Position Result) (PoolLabel Call Environment)}
    (reachable : (object.system start).Reachable allowed world)
    (rest : world.state.AtRest) {order : List Call}
    (same : order.Perm (world.state.returned.map Returned.call)) :
    part world.state.shared = order.foldl update first := by
  obtain ⟨made, sameCalls, value⟩ := updatesOnce.exists_order initial reachable
  rw [Pool.updates_of_atRest rest] at sameCalls
  have reordered : order.Perm made := same.trans (Multiset.coe_eq_coe.mp sameCalls)
  rw [value, reordered.foldl_eq]

end UpdatesOnce

end HautePerformance.Library
