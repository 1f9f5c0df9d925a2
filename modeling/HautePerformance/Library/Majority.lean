import Mathlib.Data.Finset.Card
import Mathlib.Data.Fintype.Card

/-!
# Majorities

A majority of a finite type has more than half of its members, so any two of them
share one.
-/

namespace HautePerformance.Library

universe u

variable {Member : Type u} [Fintype Member]

/-- More than half of all members. -/
def Majority (members : Finset Member) : Prop :=
  Fintype.card Member / 2 + 1 ≤ members.card

instance (members : Finset Member) : Decidable (Majority members) :=
  inferInstanceAs (Decidable (_ ≤ _))

namespace Majority

variable {first second : Finset Member}

theorem mono (majority : Majority first) (subset : first ⊆ second) :
    Majority second :=
  le_trans majority (Finset.card_le_card subset)

/-- Two majorities meet. -/
theorem meet (ofFirst : Majority first) (ofSecond : Majority second) :
    ∃ member, member ∈ first ∧ member ∈ second := by
  classical
  have crowded : (Finset.univ : Finset Member).card < first.card + second.card := by
    unfold Majority at ofFirst ofSecond
    rw [Finset.card_univ]
    omega
  obtain ⟨member, shared⟩ :=
    Finset.inter_nonempty_of_card_lt_card_add_card (Finset.subset_univ first)
      (Finset.subset_univ second) crowded
  exact ⟨member, Finset.mem_inter.mp shared⟩

end Majority

end HautePerformance.Library
