import Mathlib.Data.List.Rotate
import HautePerformance.Library.FirstOccurrences

/-!
# Reading a list round

A test that turns true once along a list splits it in two.  Reading the second
part and then the whole list meets the same elements in the same order as reading
once round from the place where the test turns true.
-/

namespace HautePerformance.Library

universe u v

variable {α : Type u} {items : List α} {test : α → Bool}

/-- Once the test has turned true it stays true. -/
def TurnsTrue (test : α → Bool) (items : List α) : Prop :=
  items.Pairwise fun left right => test left = true → test right = true

theorem drop_findIdx_of_turnsTrue (turns : TurnsTrue test items) :
    items.drop (items.findIdx test) = items.filter test := by
  induction items with
  | nil => rfl
  | cons head tail inductionHypothesis =>
      obtain ⟨headBefore, tailTurns⟩ := List.pairwise_cons.mp turns
      by_cases passes : test head = true
      · have allPass : (head :: tail).filter test = head :: tail := by
          apply List.filter_eq_self.mpr
          intro item member
          rcases List.mem_cons.mp member with isHead | inTail
          · rw [isHead]
            exact passes
          · exact headBefore item inTail passes
        rw [allPass, List.findIdx_cons, passes]
        rfl
      · rw [List.findIdx_cons, List.filter_cons_of_neg passes]
        simp only [passes, cond_false, List.drop_succ_cons]
        exact inductionHypothesis tailTurns

theorem rotate_findIdx_of_turnsTrue (turns : TurnsTrue test items) :
    items.rotate (items.findIdx test) =
      items.filter test ++ items.take (items.findIdx test) := by
  rw [List.rotate_eq_drop_append_take List.findIdx_le_length,
    drop_findIdx_of_turnsTrue turns]

/-- Reading the second part and then the whole list reads once round and then the
second part again. -/
theorem filter_append_of_turnsTrue (turns : TurnsTrue test items) :
    items.filter test ++ items =
      items.rotate (items.findIdx test) ++ items.filter test := by
  rw [rotate_findIdx_of_turnsTrue turns, List.append_assoc,
    ← drop_findIdx_of_turnsTrue turns, List.take_append_drop]

/-- Reading on after one round meets nothing new. -/
theorem eraseDups_round {β : Type v} [DecidableEq β] (turns : TurnsTrue test items)
    (label : α → β) :
    ((items.filter test ++ items).map label).eraseDups =
      ((items.rotate (items.findIdx test)).map label).eraseDups := by
  rw [filter_append_of_turnsTrue turns, List.map_append]
  apply eraseDups_append_of_subset
  intro value member
  obtain ⟨item, passed, rfl⟩ := List.mem_map.mp member
  apply List.mem_map_of_mem
  rw [rotate_findIdx_of_turnsTrue turns]
  exact List.mem_append_left _ passed

/-! ## A test that holds at the beginning -/

/-- The elements that pass are the first ones if and only if none comes after one
that does not pass. -/
theorem filter_eq_take_iff :
    items.filter test = items.take (items.filter test).length ↔
      items.Pairwise fun left right => test right = true → test left = true := by
  induction items with
  | nil => simp
  | cons head tail inductionHypothesis =>
      rw [List.pairwise_cons]
      by_cases passes : test head = true
      · rw [List.filter_cons_of_pos passes, List.length_cons,
          List.take_succ_cons, List.cons.injEq, inductionHypothesis]
        simp [passes]
      · rw [List.filter_cons_of_neg passes]
        have noneAfter :
            (∀ item, item ∈ tail → test item = true → test head = true) ↔
              tail.filter test = [] := by
          rw [List.filter_eq_nil_iff]
          constructor
          · intro before item member passesLater
            exact passes (before item member passesLater)
          · intro nonePasses item member passesLater
            exact absurd passesLater (nonePasses item member)
        rw [noneAfter]
        constructor
        · intro first
          cases filtered : tail.filter test with
          | nil =>
              refine ⟨rfl, ?_⟩
              rw [← inductionHypothesis, filtered]
              rfl
          | cons passed others =>
              rw [filtered, List.length_cons, List.take_succ_cons,
                List.cons.injEq] at first
              have member : head ∈ tail.filter test := by
                rw [filtered, first.1]
                exact List.mem_cons_self
              exact absurd (List.mem_filter.mp member).2 passes
        · rintro ⟨nothing, _⟩
          rw [nothing]
          rfl

end HautePerformance.Library
