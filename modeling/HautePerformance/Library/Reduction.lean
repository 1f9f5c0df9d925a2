/-!
# Reductions

A list cut into chunks, each of which is folded on its own, and the results merged
along a binary tree that keeps their order.  Where the fold of a chunk stands for
its items, the empty result for none, and a merge for the items of both sides in
order, the whole reduction stands for all the items, however they were cut.
-/

namespace HautePerformance.Library

variable {Item Choice Result : Type}

/-- A way to reduce a list.  Every merge has a choice of its own, for what is left
open in how two results are merged. -/
inductive Reduction (Item Choice : Type) where
  | chunk (items : List Item)
  | identity
  | merge (choice : Choice) (left right : Reduction Item Choice)

namespace Reduction

/-- The list that is reduced. -/
def items : Reduction Item Choice → List Item
  | chunk items => items
  | identity => []
  | merge _ left right => left.items ++ right.items

def run (fold : List Item → Option Result) (empty : Result)
    (combine : Choice → Result → Result → Option Result) :
    Reduction Item Choice → Option Result
  | chunk items => fold items
  | identity => some empty
  | merge choice left right => do
      let front ← left.run fold empty combine
      let back ← right.run fold empty combine
      combine choice front back

/-- The results stand for lists of items, those that fit. -/
structure Homomorphism (fold : List Item → Option Result) (empty : Result)
    (combine : Choice → Result → Result → Option Result)
    (Fits : List Item → Prop) (StandsFor : Result → List Item → Prop) :
    Prop where
  left : ∀ front back, Fits (front ++ back) → Fits front
  right : ∀ front back, Fits (front ++ back) → Fits back
  chunk : ∀ items, Fits items →
    ∃ result, fold items = some result ∧ StandsFor result items
  identity : StandsFor empty []
  merge : ∀ choice first second front back, Fits (front ++ back) →
    StandsFor first front → StandsFor second back →
    ∃ result, combine choice first second = some result ∧
      StandsFor result (front ++ back)

variable {fold : List Item → Option Result} {empty : Result}
variable {combine : Choice → Result → Result → Option Result}
variable {Fits : List Item → Prop} {StandsFor : Result → List Item → Prop}

theorem Homomorphism.run
    (homomorphism : Homomorphism fold empty combine Fits StandsFor)
    (reduction : Reduction Item Choice) :
    Fits reduction.items →
    ∃ result, reduction.run fold empty combine = some result ∧
      StandsFor result reduction.items := by
  induction reduction with
  | chunk items => exact homomorphism.chunk items
  | identity =>
      intro _
      exact ⟨empty, rfl, homomorphism.identity⟩
  | merge choice left right leftHypothesis rightHypothesis =>
      intro fits
      obtain ⟨first, leftRun, leftStands⟩ :=
        leftHypothesis (homomorphism.left _ _ fits)
      obtain ⟨second, rightRun, rightStands⟩ :=
        rightHypothesis (homomorphism.right _ _ fits)
      obtain ⟨result, merged, stands⟩ :=
        homomorphism.merge choice first second _ _ fits leftStands rightStands
      refine ⟨result, ?_, stands⟩
      rw [Reduction.run, leftRun, rightRun]
      exact merged

end Reduction

end HautePerformance.Library
