import Mathlib.Tactic.Common

/-!
# Machines in lockstep

Two deterministic machines read the same inputs and answer each with an output.
A relation between their states that survives every step meeting a condition, and
a difference in the outputs of every step that does not, tell exactly when a run
of the one cannot be told from a run of the other.
-/

namespace HautePerformance.Library.Lockstep

variable {State Other Input Output : Type}

/-- The outputs of a run. -/
def outputs (step : State → Input → Output × State) :
    State → List Input → List Output
  | _, [] => []
  | state, input :: rest =>
      (step state input).1 :: outputs step (step state input).2 rest

/-- Every step of the run meets the condition. -/
def Throughout (step : State → Input → Output × State)
    (condition : State → Input → Prop) : State → List Input → Prop
  | _, [] => True
  | state, input :: rest =>
      condition state input ∧
        Throughout step condition (step state input).2 rest

/-- Runs give the same outputs exactly when all steps meet the condition. -/
theorem outputs_eq_iff {step : State → Input → Output × State}
    {other : Other → Input → Output × Other}
    {related : State → Other → Prop} {condition : State → Input → Prop}
    (agree : ∀ state twin input,
      related state twin → condition state input →
        (step state input).1 = (other twin input).1 ∧
          related (step state input).2 (other twin input).2)
    (differ : ∀ state twin input,
      related state twin → ¬ condition state input →
        (step state input).1 ≠ (other twin input).1) :
    ∀ (inputs : List Input) {state : State} {twin : Other},
      related state twin →
      (outputs step state inputs = outputs other twin inputs ↔
        Throughout step condition state inputs)
  | [], _, _, _ => by
      simp [outputs, Throughout]
  | input :: rest, state, twin, areRelated => by
      by_cases met : condition state input
      · obtain ⟨sameOutput, stillRelated⟩ :=
          agree state twin input areRelated met
        have restAgrees := outputs_eq_iff agree differ rest stillRelated
        simp only [outputs, Throughout, List.cons.injEq, sameOutput, true_and,
          met]
        exact restAgrees
      · have different := differ state twin input areRelated met
        simp only [outputs, Throughout, List.cons.injEq, different, met,
          false_and]

end HautePerformance.Library.Lockstep
