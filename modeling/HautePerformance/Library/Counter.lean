import Mathlib.Data.List.Basic
import Mathlib.Data.Nat.Basic

/-!
# Unbounded counters

A counter that is incremented and raised to given values, in natural numbers.  A
machine counter that performs the same operations agrees with it until the
unbounded one leaves the range of the machine.  Where a sequence of operations
takes it is read off the sequence: each raise counts with the increments after
it.
-/

namespace HautePerformance.Library

inductive CounterOp where
  | next
  | raise (value : Nat)
  deriving DecidableEq, Repr

namespace CounterOp

def apply (count : Nat) : CounterOp → Nat
  | .next => count + 1
  | .raise value => max count value

/-- The counter after the operations. -/
def countFrom (start : Nat) (ops : List CounterOp) : Nat :=
  ops.foldl apply start

/-- How many operations are increments. -/
def increments (ops : List CounterOp) : Nat :=
  ops.countP (· = .next)

@[simp]
theorem increments_next (ops : List CounterOp) :
    increments (.next :: ops) = increments ops + 1 := by
  simp [increments]

@[simp]
theorem increments_raise (value : Nat) (ops : List CounterOp) :
    increments (.raise value :: ops) = increments ops := by
  simp [increments]

theorem countFrom_append (start : Nat) (ops more : List CounterOp) :
    countFrom start (ops ++ more) = countFrom (countFrom start ops) more :=
  List.foldl_append

/-- The counter never goes down. -/
theorem le_countFrom (ops : List CounterOp) :
    ∀ start, start ≤ countFrom start ops := by
  induction ops with
  | nil => exact Nat.le_refl
  | cons op rest inductionHypothesis =>
      intro start
      have step : start ≤ apply start op := by
        cases op with
        | next => exact Nat.le_succ start
        | raise value => exact Nat.le_max_left start value
      exact Nat.le_trans step (inductionHypothesis (apply start op))

/-- The increments after a raise count from its value, and all of them from the
start. -/
def Fits (start bound : Nat) (ops : List CounterOp) : Prop :=
  start + increments ops < bound ∧
    ∀ before value after,
      ops = before ++ .raise value :: after →
      value + increments after < bound

theorem countFrom_lt_iff (bound : Nat) (ops : List CounterOp) :
    ∀ start, countFrom start ops < bound ↔ Fits start bound ops := by
  induction ops with
  | nil =>
      intro start
      refine ⟨fun below => ⟨below, ?_⟩, fun fits => fits.1⟩
      intro before value after impossible
      cases before <;> cases impossible
  | cons op rest inductionHypothesis =>
      intro start
      show countFrom (apply start op) rest < bound ↔ _
      rw [inductionHypothesis]
      cases op with
      | next =>
          simp only [Fits, apply, increments_next]
          constructor
          · intro given
            obtain ⟨fits, others⟩ := given
            refine ⟨by omega, ?_⟩
            intro before value after split
            cases before with
            | nil => cases split
            | cons _ before =>
                exact others before value after (List.cons.inj split).2
          · intro given
            obtain ⟨fits, others⟩ := given
            refine ⟨by omega, ?_⟩
            intro before value after split
            exact others (.next :: before) value after
              (congrArg (List.cons CounterOp.next) split)
      | raise raised =>
          simp only [Fits, apply, increments_raise]
          constructor
          · intro given
            obtain ⟨fits, others⟩ := given
            refine ⟨by omega, ?_⟩
            intro before value after split
            cases before with
            | nil =>
                cases split
                omega
            | cons _ before =>
                exact others before value after (List.cons.inj split).2
          · intro given
            obtain ⟨fits, others⟩ := given
            have here := others [] raised rest rfl
            refine ⟨by omega, ?_⟩
            intro before value after split
            exact others (.raise raised :: before) value after
              (congrArg (List.cons (CounterOp.raise raised)) split)

end CounterOp

end HautePerformance.Library
