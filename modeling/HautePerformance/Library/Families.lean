import Mathlib.Algebra.BigOperators.Group.Finset.Piecewise
import Mathlib.Algebra.Order.Group.Multiset
import Mathlib.Data.Fintype.Basic
import Mathlib.Tactic.Abel

/-!
# Families of lists

Lists indexed by a finite type, gathered in one multiset.
-/

namespace HautePerformance.Library

variable {Index : Type} [Fintype Index] {α : Type}

/-- The elements of all lists. -/
def gathered (lists : Index → List α) : Multiset α :=
  Finset.univ.sum fun index => (lists index : Multiset α)

theorem gathered_eq_zero {lists : Index → List α}
    (empty : ∀ index, lists index = []) : gathered lists = 0 :=
  Finset.sum_eq_zero fun index _ => by
    rw [empty index]
    rfl

theorem mem_gathered {lists : Index → List α} {element : α} :
    element ∈ gathered lists ↔ ∃ index, element ∈ lists index := by
  simp [gathered, Multiset.mem_sum]

theorem countP_gathered_eq_zero {lists : Index → List α} {wanted : α → Bool}
    (none : ∀ index element, element ∈ lists index → wanted element = false) :
    (gathered lists).countP (fun element => wanted element) = 0 := by
  refine Multiset.countP_eq_zero.mpr fun element isElement isWanted => ?_
  obtain ⟨index, member⟩ := mem_gathered.mp isElement
  rw [none index element member] at isWanted
  cases isWanted

theorem countP_gathered_pos {lists : Index → List α} {wanted : α → Bool} {index : Index}
    {element : α} (member : element ∈ lists index) (isWanted : wanted element = true) :
    0 < (gathered lists).countP (fun element => wanted element) :=
  Multiset.countP_pos.mpr ⟨element, mem_gathered.mpr ⟨index, member⟩, isWanted⟩

variable [DecidableEq Index]

/-- The first element of one list is taken. -/
theorem gathered_update {lists : Index → List α} {index : Index} {first : α}
    {rest : List α} (headed : lists index = first :: rest) :
    {first} + gathered (Function.update lists index rest) = gathered lists := by
  have updated :
      (fun other => (Function.update lists index rest other : Multiset α)) =
        Function.update (fun other => (lists other : Multiset α)) index
          (rest : Multiset α) :=
    funext fun other =>
      Function.apply_update (fun _ (list : List α) => (list : Multiset α)) lists
        index rest other
  have apart := Finset.add_sum_erase Finset.univ
    (fun other => (lists other : Multiset α)) (Finset.mem_univ index)
  have split : ((first :: rest : List α) : Multiset α) = {first} + rest := rfl
  rw [gathered, gathered, updated,
    Finset.sum_update_of_mem (Finset.mem_univ index), ← apart, headed, split,
    Finset.sdiff_singleton_eq_erase]
  abel

end HautePerformance.Library
