import Mathlib.Data.Finset.Card
import Mathlib.Data.Fintype.Basic
import Mathlib.Logic.Function.Basic

/-!
# Loops that visit the members of a family

A loop over indices replaces the member at each index by what a body makes of it
and counts the visits that succeed.  The body sees only the member it visits, so
a loop over distinct indices acts on each member by itself.
-/

namespace HautePerformance.Library

universe u v

variable {Index : Type u} {Member : Index → Type v} [DecidableEq Index]

/-- The visit of one member. -/
def visit (body : (index : Index) → Member index → Member index × Bool)
    (state : ((index : Index) → Member index) × Nat) (index : Index) :
    ((index : Index) → Member index) × Nat :=
  let (member, success) := body index (state.1 index)
  (Function.update state.1 index member,
    if success then state.2 + 1 else state.2)

/-- The loop. -/
def visitAll (body : (index : Index) → Member index → Member index × Bool)
    (indices : List Index) (state : ((index : Index) → Member index) × Nat) :
    ((index : Index) → Member index) × Nat :=
  indices.foldl (visit body) state

variable {body : (index : Index) → Member index → Member index × Bool}

theorem visitAll_cons (head : Index) (tail : List Index)
    (state : ((index : Index) → Member index) × Nat) :
    visitAll body (head :: tail) state =
      visitAll body tail (visit body state head) :=
  rfl

theorem visit_of_ne {index head : Index} (different : index ≠ head)
    (state : ((index : Index) → Member index) × Nat) :
    (visit body state head).1 index = state.1 index := by
  simp [visit, Function.update_of_ne different]

/-- A member outside the loop is not touched. -/
theorem visitAll_of_notMem {index : Index} {indices : List Index} :
    ∀ {state : ((index : Index) → Member index) × Nat},
      index ∉ indices →
      (visitAll body indices state).1 index = state.1 index := by
  induction indices with
  | nil =>
      intro state _
      rfl
  | cons head tail inductionHypothesis =>
      intro state outside
      rw [List.mem_cons, not_or] at outside
      rw [visitAll_cons, inductionHypothesis outside.2, visit_of_ne outside.1]

/-- A member in the loop becomes what the body makes of it. -/
theorem visitAll_of_mem {index : Index} {indices : List Index} :
    ∀ {state : ((index : Index) → Member index) × Nat},
      indices.Nodup →
      index ∈ indices →
      (visitAll body indices state).1 index =
        (body index (state.1 index)).1 := by
  induction indices with
  | nil =>
      intro state _ inside
      cases inside
  | cons head tail inductionHypothesis =>
      intro state distinct inside
      obtain ⟨headOutside, tailDistinct⟩ := List.nodup_cons.mp distinct
      rw [visitAll_cons]
      by_cases atHead : index = head
      · subst atHead
        rw [visitAll_of_notMem headOutside]
        simp [visit]
      · have inTail : index ∈ tail :=
          (List.mem_cons.mp inside).resolve_left atHead
        rw [inductionHypothesis tailDistinct inTail, visit_of_ne atHead]

/-- The loop counts the successes among its visits. -/
theorem visitAll_count {indices : List Index} :
    ∀ {state : ((index : Index) → Member index) × Nat},
      indices.Nodup →
      (visitAll body indices state).2 =
        state.2 +
          indices.countP fun index => (body index (state.1 index)).2 := by
  induction indices with
  | nil =>
      intro state _
      rfl
  | cons head tail inductionHypothesis =>
      intro state distinct
      obtain ⟨headOutside, tailDistinct⟩ := List.nodup_cons.mp distinct
      have sameTail :
          (tail.countP fun index =>
              (body index ((visit body state head).1 index)).2) =
            tail.countP fun index => (body index (state.1 index)).2 := by
        apply List.countP_congr
        intro index inTail
        have different : index ≠ head := by
          intro same
          exact headOutside (same ▸ inTail)
        rw [visit_of_ne different]
      rw [visitAll_cons, inductionHypothesis tailDistinct, sameTail,
        List.countP_cons]
      by_cases success : (body head (state.1 head)).2 = true
      · simp only [visit, success, if_true]
        omega
      · simp [visit, success]

/-! ## A loop over all indices but one -/

section Others

variable [Fintype Index]

/-- One success at the index left out, and one for each other success, make the
number of all indices that succeed. -/
theorem one_add_countP_others {indices : List Index} (distinct : indices.Nodup)
    (complete : ∀ index, index ∈ indices) (left : Index)
    (success : Index → Bool) :
    1 + (indices.filter (· ≠ left)).countP success =
      (Finset.univ.filter fun index =>
        index = left ∨ success index = true).card := by
  have others :
      (indices.filter (· ≠ left)).countP success =
        (Finset.univ.filter fun index =>
          index ≠ left ∧ success index = true).card := by
    rw [List.countP_eq_length_filter,
      ← List.toFinset_card_of_nodup ((distinct.filter _).filter _)]
    congr 1
    ext index
    simp [complete, and_comm]
  have whole :
      (Finset.univ.filter fun index => index = left ∨ success index = true) =
        insert left
          (Finset.univ.filter fun index =>
            index ≠ left ∧ success index = true) := by
    ext index
    by_cases same : index = left
    · simp [same]
    · simp [same]
  rw [others, whole, Finset.card_insert_of_notMem (by simp), Nat.add_comm]

end Others

end HautePerformance.Library
