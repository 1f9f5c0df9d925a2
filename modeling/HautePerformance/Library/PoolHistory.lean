import Mathlib.Algebra.GroupWithZero.Nat
import HautePerformance.Library.PoolTotals

/-!
# Counting the steps of a run

A pool knows how many steps have been made, so that the recorded steps of a run
are numbered: those before a call has returned are told from those after.  What
the steps in a stretch of a run amount to is counted from the record.
-/

namespace HautePerformance.Library

variable {Shared Environment Call : Type} {Position Result : Call → Type}

abbrev PoolTrace (Shared Environment : Type) {Call : Type}
    (Position Result : Call → Type) :=
  List (Pool Shared Position Result × PoolLabel Call Environment)

/-- The weight of where a step leads; a call that has returned weighs nothing. -/
def Next.weigh {Position Result : Type} (weight : Position → Nat) :
    Next Position Result → Nat
  | .goOn position => weight position
  | .finish _ => 0

namespace Pool

variable {trace : PoolTrace Shared Environment Position Result}
variable {weight : Pool Shared Position Result → Activity Position → Nat}
variable {pool : Pool Shared Position Result}
variable {label : PoolLabel Call Environment}

/-- What the recorded steps of the threads amount to. -/
def tally (weight : Pool Shared Position Result → Activity Position → Nat)
    (trace : PoolTrace Shared Environment Position Result) : Nat :=
  (trace.map fun step =>
    ((step.1.mover? step.2).map (weight step.1)).getD 0).sum

/-- The steps before the one with the number. -/
def before (number : Nat)
    (trace : PoolTrace Shared Environment Position Result) :
    PoolTrace Shared Environment Position Result :=
  trace.filter fun step => decide (step.1.steps < number)

/-- The steps from one number on and before another one. -/
def within (began ended : Nat)
    (trace : PoolTrace Shared Environment Position Result) :
    PoolTrace Shared Environment Position Result :=
  trace.filter fun step =>
    decide (began ≤ step.1.steps) && decide (step.1.steps < ended)

theorem tally_cons :
    tally weight ((pool, label) :: trace) =
      ((pool.mover? label).map (weight pool)).getD 0 + tally weight trace := by
  simp [tally]

theorem tally_run {thread : Nat} {activity : Activity Position}
    (running : pool.activity? thread = some activity) :
    tally weight ((pool, .run thread) :: trace) =
      weight pool activity + tally weight trace := by
  simp [tally_cons, mover?, running]

/-- Up to a later moment there are the steps up to an earlier one and those in
between. -/
theorem tally_before_eq {began ended : Nat} (order : began ≤ ended) :
    tally weight (before ended trace) =
      tally weight (before began trace) +
        tally weight (within began ended trace) := by
  induction trace with
  | nil => rfl
  | cons step rest inductionHypothesis =>
      obtain ⟨pool, label⟩ := step
      simp only [before, within, List.filter_cons] at inductionHypothesis ⊢
      by_cases early : pool.steps < began
      · have notAfter : ¬ began ≤ pool.steps := by omega
        have beforeEnd : pool.steps < ended := by omega
        simp only [early, notAfter, beforeEnd, decide_true, decide_false,
          Bool.false_and, if_true, Bool.false_eq_true, if_false, tally_cons,
          inductionHypothesis]
        omega
      · have after : began ≤ pool.steps := by omega
        by_cases inTime : pool.steps < ended
        · simp only [early, after, inTime, decide_true, decide_false,
            Bool.and_self, if_true, Bool.false_eq_true, if_false, tally_cons,
            inductionHypothesis]
          omega
        · simp only [early, after, inTime, decide_true, decide_false,
            Bool.and_false, Bool.false_eq_true, if_false, inductionHypothesis]

theorem before_eq_self {number : Nat}
    (earlier : ∀ step, step ∈ trace → step.1.steps < number) :
    before number trace = trace :=
  List.filter_eq_self.mpr fun step member =>
    decide_eq_true (earlier step member)

/-- A step that comes later does not count. -/
theorem before_cons {number : Nat} (later : number ≤ pool.steps) :
    before number ((pool, label) :: trace) = before number trace := by
  simp [before, later]

theorem tally_before_le (number : Nat) :
    tally weight (before number trace) ≤ tally weight trace :=
  ((List.filter_sublist (l := trace)).map _).sum_le_sum fun _ _ => Nat.zero_le _

/-- One more step adds to what the chosen steps amount to. -/
theorem tally_filter_cons_le
    (chosen : Pool Shared Position Result × PoolLabel Call Environment → Bool) :
    tally weight (trace.filter chosen) ≤
      tally weight (((pool, label) :: trace).filter chosen) := by
  rw [List.filter_cons]
  split
  · rw [tally_cons]
    exact Nat.le_add_left _ _
  · exact Nat.le_refl _

end Pool

variable {object : ConcurrentObject Shared Environment Position Result}
variable {start : Shared → Prop}
variable {allowed :
  Pool Shared Position Result → PoolLabel Call Environment → Prop}

/-- The recorded steps are numbered below the number of steps. -/
theorem ConcurrentObject.steps_lt
    {world : World (Pool Shared Position Result) (PoolLabel Call Environment)}
    (reachable : (object.system start).Reachable allowed world) :
    ∀ step, step ∈ world.trace → step.1.steps < world.state.steps := by
  induction reachable with
  | start _ =>
      intro step member
      cases member
  | @next source target label _ step inductionHypothesis =>
      intro recorded member
      have oneMore : target.state.steps = source.state.steps + 1 :=
        (moves_of_exec step.2.1).steps_eq
      rw [step.2.2] at member
      rcases List.mem_cons.mp member with isLast | isEarlier
      · subst isLast
        exact oneMore ▸ Nat.lt_succ_self source.state.steps
      · have earlier := inductionHypothesis recorded isEarlier
        omega

/-- The weights of the calls under way, when one of them makes a step. -/
theorem ConcurrentObject.Moves.total_run
    {source target : Pool Shared Position Result} {thread : Nat}
    {activity : Activity Position}
    (moves : object.Moves source (.run thread) target)
    (running : source.activity? thread = some activity)
    (weight : (call : Call) → Position call → Nat) :
    target.total (fun other => weight other.call other.position) +
        weight activity.call activity.position =
      source.total (fun other => weight other.call other.position) +
        (object.step source.shared activity.position).2.weigh
          (weight activity.call) := by
  rw [Pool.total_of_running _ running]
  cases moves with
  | advance active stepped =>
      rw [running] at active
      cases active
      rw [Pool.total_advance, stepped, Next.weigh]
      dsimp only
      omega
  | finish active stepped =>
      rw [running] at active
      cases active
      rw [Pool.total_finish, stepped, Next.weigh]
      omega

end HautePerformance.Library
