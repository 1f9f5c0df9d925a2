import Mathlib.Algebra.BigOperators.Group.Finset.Basic
import Mathlib.Algebra.Order.Group.Nat
import Mathlib.Tactic.Abel
import HautePerformance.Library.Transition

/-!
# Adding up over a run

Quantities of the state whose change at each step is known.  In a commutative
monoid, what the steps put into the quantity and what they take out of it balances
over the whole run.  In the natural numbers, a potential that pays for the steps
bounds what they cost.
-/

namespace HautePerformance.Library

universe u v

variable {State : Type u} {Label : Type v}
variable {M : Type} [AddCommMonoid M]

namespace World

/-- The sum of the weights of the steps of a run. -/
def total (weight : State → Label → M) (world : World State Label) : M :=
  (world.trace.map fun step => weight step.1 step.2).sum

@[simp]
theorem total_start (weight : State → Label → M) (state : State) :
    total weight ⟨[], state⟩ = 0 :=
  rfl

@[simp]
theorem total_push (weight : State → Label → M) (world : World State Label)
    (label : Label) (target : State) :
    total weight (world.push label target) =
      weight world.state label + total weight world := by
  simp [total, push]

theorem total_eq_zero {weight : State → Label → M}
    (nothing : ∀ state label, weight state label = 0) (world : World State Label) :
    world.total weight = 0 := by
  obtain ⟨trace, state⟩ := world
  induction trace with
  | nil => rfl
  | cons step earlier inductionHypothesis =>
      simp only [total, List.map_cons, List.sum_cons] at inductionHypothesis ⊢
      rw [nothing, inductionHypothesis, add_zero]

theorem total_add (first second : State → Label → M) (world : World State Label) :
    (world.total fun state label => first state label + second state label) =
      world.total first + world.total second :=
  List.sum_map_add

/-- A sum over the steps of sums over an index. -/
theorem sum_total {Index : Type} (indices : Finset Index)
    (weight : Index → State → Label → M) (world : World State Label) :
    (indices.sum fun index => world.total (weight index)) =
      world.total fun state label =>
        indices.sum fun index => weight index state label := by
  obtain ⟨trace, state⟩ := world
  induction trace with
  | nil => exact Finset.sum_const_zero
  | cons step earlier inductionHypothesis =>
      simp only [total, List.map_cons, List.sum_cons] at inductionHypothesis ⊢
      rw [Finset.sum_add_distrib, inductionHypothesis]

/-- An additive measure of a sum is the sum of the measures. -/
theorem map_total {N : Type} [AddCommMonoid N] (measure : M →+ N)
    (weight : State → Label → M) (world : World State Label) :
    measure (world.total weight) =
      world.total fun state label => measure (weight state label) := by
  rw [total, total, map_list_sum, List.map_map]
  rfl

end World

namespace System.Reachable

variable {system : System State Label} {allowed : State → Label → Prop}
variable {world : World State Label}

/-- What the steps take out of a quantity, and what is left of it, is what was there
at first with what the steps have put in. -/
theorem balance (reachable : system.Reachable allowed world) (quantity : State → M)
    (outlay income : State → Label → M) {first : M}
    (initial : ∀ state, system.init state → quantity state = first)
    (along : ∀ label source target,
      allowed source label →
      system.exec source label = some target →
      quantity target + outlay source label =
        quantity source + income source label) :
    quantity world.state + world.total outlay = first + world.total income := by
  induction reachable with
  | @start state atStart =>
      rw [World.total_start, World.total_start, initial state atStart]
  | @next source target label _ step inductionHypothesis =>
      have moved := along label _ _ step.1 step.2.1
      rw [step.2.2, World.total_push, World.total_push, World.push_state]
      calc
        quantity target.state + (outlay source.state label + source.total outlay)
            = (quantity target.state + outlay source.state label) +
                source.total outlay := (add_assoc _ _ _).symm
        _ = quantity source.state + source.total outlay +
              income source.state label := by
            rw [moved]
            abel
        _ = first + (income source.state label + source.total income) := by
            rw [inductionHypothesis]
            abel

/-- A potential that pays for the steps, with what some of them add to it, bounds
what they cost. -/
theorem amortized (reachable : system.Reachable allowed world)
    (potential : State → Nat) (cost gain : State → Label → Nat) {bound : Nat}
    (initial : ∀ state, system.init state → potential state ≤ bound)
    (along : ∀ label source target,
      allowed source label →
      system.exec source label = some target →
      potential target + cost source label ≤
        potential source + gain source label) :
    potential world.state + world.total cost ≤ bound + world.total gain := by
  induction reachable with
  | @start state atStart =>
      rw [World.total_start, World.total_start]
      exact Nat.add_le_add_right (initial state atStart) 0
  | @next source target label _ step inductionHypothesis =>
      have moved := along label _ _ step.1 step.2.1
      rw [step.2.2, World.total_push, World.total_push, World.push_state]
      omega

end System.Reachable

end HautePerformance.Library
