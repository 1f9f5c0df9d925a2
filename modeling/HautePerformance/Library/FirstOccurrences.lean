import Mathlib.Data.List.Nodup
import Mathlib.Data.List.Infix

/-!
# First occurrences

`List.eraseDups` keeps the first occurrence of every element.  It commutes with
filters, so that leaving an element out of a list leaves it out of the first
occurrences and moves the others up.
-/

namespace HautePerformance.Library

universe u

variable {α : Type u} [DecidableEq α]

/-- An element that has occurred is dropped at the end of the list. -/
theorem eraseDups_concat_of_mem {items : List α} {last : α}
    (occurred : last ∈ items) :
    (items ++ [last]).eraseDups = items.eraseDups := by
  rw [List.eraseDups_append]
  have removed : [last].removeAll items = [] := by
    simp [List.removeAll, occurred]
  rw [removed, List.eraseDups_nil, List.append_nil]

/-- A new element at the end of the list is kept. -/
theorem eraseDups_concat_of_not_mem {items : List α} {last : α}
    (isNew : last ∉ items) :
    (items ++ [last]).eraseDups = items.eraseDups ++ [last] := by
  rw [List.eraseDups_append]
  have kept : [last].removeAll items = [last] := by
    simp [List.removeAll, isNew]
  rw [kept]
  rfl

theorem nodup_eraseDups (items : List α) : items.eraseDups.Nodup := by
  induction items using List.reverseRecOn with
  | nil => exact List.nodup_nil
  | append_singleton items last inductionHypothesis =>
      by_cases occurred : last ∈ items
      · rw [eraseDups_concat_of_mem occurred]
        exact inductionHypothesis
      · rw [eraseDups_concat_of_not_mem occurred]
        have isNew : last ∉ items.eraseDups := by
          intro member
          exact occurred (List.mem_eraseDups.mp member)
        rw [← List.concat_eq_append]
        exact inductionHypothesis.concat isNew

theorem eraseDups_of_nodup {items : List α} (nodup : items.Nodup) :
    items.eraseDups = items := by
  induction items using List.reverseRecOn with
  | nil => rfl
  | append_singleton items last inductionHypothesis =>
      have isNew : last ∉ items := by
        intro member
        have disjoint := List.disjoint_of_nodup_append nodup
        exact disjoint member List.mem_cons_self
      have nodupItems : items.Nodup := nodup.of_append_left
      rw [eraseDups_concat_of_not_mem isNew, inductionHypothesis nodupItems]

/-- Filtering and taking first occurrences commute. -/
theorem filter_eraseDups (keep : α → Bool) (items : List α) :
    items.eraseDups.filter keep = (items.filter keep).eraseDups := by
  induction items using List.reverseRecOn with
  | nil => rfl
  | append_singleton items last inductionHypothesis =>
      by_cases kept : keep last = true
      · have filtered :
            (items ++ [last]).filter keep = items.filter keep ++ [last] := by
          simp [kept]
        by_cases occurred : last ∈ items
        · have occurredKept : last ∈ items.filter keep :=
            List.mem_filter.mpr ⟨occurred, kept⟩
          rw [filtered, eraseDups_concat_of_mem occurred,
            eraseDups_concat_of_mem occurredKept, inductionHypothesis]
        · have isNew : last ∉ items.filter keep := by
            intro member
            exact occurred (List.mem_filter.mp member).1
          rw [filtered, eraseDups_concat_of_not_mem occurred,
            eraseDups_concat_of_not_mem isNew, List.filter_append,
            inductionHypothesis]
          simp [kept]
      · have filtered :
            (items ++ [last]).filter keep = items.filter keep := by
          simp [kept]
        rw [filtered, ← inductionHypothesis]
        by_cases occurred : last ∈ items
        · rw [eraseDups_concat_of_mem occurred]
        · rw [eraseDups_concat_of_not_mem occurred, List.filter_append]
          simp [kept]

/-- What comes later adds nothing when it has all occurred. -/
theorem eraseDups_append_of_subset {items later : List α}
    (occurred : ∀ item, item ∈ later → item ∈ items) :
    (items ++ later).eraseDups = items.eraseDups := by
  rw [List.eraseDups_append]
  have removed : later.removeAll items = [] := by
    simp only [List.removeAll, List.filter_eq_nil_iff]
    intro item member
    simp [occurred item member]
  rw [removed, List.eraseDups_nil, List.append_nil]

/-- What comes later does not change what has come first. -/
theorem eraseDups_prefix (items later : List α) :
    items.eraseDups <+: (items ++ later).eraseDups := by
  rw [List.eraseDups_append]
  exact List.prefix_append _ _

/-- An element that has occurred may be dropped. -/
theorem eraseDups_append_cons_of_mem {items later : List α} {item : α}
    (occurred : item ∈ items) :
    (items ++ item :: later).eraseDups = (items ++ later).eraseDups := by
  rw [List.eraseDups_append, List.eraseDups_append]
  have removed : (item :: later).removeAll items = later.removeAll items := by
    simp [List.removeAll, occurred]
  rw [removed]

/-! ## Leaving one element out of a list without repetitions -/

variable {items : List α}

/-- Leaving out one element costs at most one place. -/
theorem length_le_filter_ne (nodup : items.Nodup) (left : α) :
    items.length ≤ (items.filter (· != left)).length + 1 := by
  have bound : items.length - 1 ≤ (items.erase left).length :=
    List.le_length_erase
  rw [nodup.erase_eq_filter] at bound
  omega

/-- The first elements of the list without `left`: one element more makes up for
it. -/
theorem take_filter_ne (nodup : items.Nodup) (left : α) (count : Nat) :
    (items.filter (· != left)).take count =
      ((items.take (count + 1)).erase left).take count := by
  have nodupTaken := nodup.sublist (List.take_sublist (count + 1) items)
  have split : items.filter (· != left) =
      (items.take (count + 1)).filter (· != left) ++
        (items.drop (count + 1)).filter (· != left) := by
    rw [← List.filter_append, List.take_append_drop]
  rw [nodupTaken.erase_eq_filter, split]
  by_cases long : count + 1 ≤ items.length
  · have taken : (items.take (count + 1)).length = count + 1 :=
      List.length_take_of_le long
    have bound := length_le_filter_ne nodupTaken left
    apply List.take_append_of_le_length
    omega
  · have nothing : items.drop (count + 1) = [] := by
      apply List.drop_eq_nil_of_le
      omega
    rw [nothing, List.filter_nil, List.append_nil]

/-- The first elements of the list, without `left`, come first in the list
without `left`. -/
theorem erase_take_prefix (nodup : items.Nodup) (left : α) (count : Nat) :
    (items.take count).erase left <+:
      (items.filter (· != left)).take count := by
  have nodupTaken := nodup.sublist (List.take_sublist count items)
  have split : items.filter (· != left) =
      (items.take count).filter (· != left) ++
        (items.drop count).filter (· != left) := by
    rw [← List.filter_append, List.take_append_drop]
  rw [nodupTaken.erase_eq_filter, split]
  have short : ((items.take count).filter (· != left)).length ≤ count :=
    calc ((items.take count).filter (· != left)).length
        ≤ (items.take count).length := List.length_filter_le _ _
      _ ≤ count := List.length_take_le _ _
  rw [List.take_append, List.take_of_length_le short]
  exact List.prefix_append _ _

/-- They are at most one element short of it. -/
theorem length_take_filter_ne_le (nodup : items.Nodup) (left : α)
    (count : Nat) :
    ((items.filter (· != left)).take count).length ≤
      ((items.take count).erase left).length + 1 := by
  have nodupTaken := nodup.sublist (List.take_sublist count items)
  have bound := length_le_filter_ne nodupTaken left
  have fewer : (items.filter (· != left)).length ≤ items.length :=
    List.length_filter_le _ _
  rw [nodupTaken.erase_eq_filter]
  simp only [List.length_take] at bound ⊢
  omega

/-- Leaving out an element that does not come first changes nothing. -/
theorem take_filter_ne_of_not_mem {left : α} {count : Nat}
    (absent : left ∉ items.take count) :
    (items.filter (· != left)).take count = items.take count := by
  have split : items.filter (· != left) =
      (items.take count).filter (· != left) ++
        (items.drop count).filter (· != left) := by
    rw [← List.filter_append, List.take_append_drop]
  have unchanged : (items.take count).filter (· != left) = items.take count := by
    apply List.filter_eq_self.mpr
    intro item member
    rw [bne_iff_ne]
    intro same
    exact absent (same ▸ member)
  by_cases long : count ≤ items.length
  · rw [split, unchanged]
    have taken : (items.take count).length = count :=
      List.length_take_of_le long
    rw [List.take_append_of_le_length (Nat.le_of_eq taken.symm),
      List.take_take, Nat.min_self]
  · have whole : items.take count = items := by
      apply List.take_of_length_le
      omega
    rw [whole] at unchanged ⊢
    rw [unchanged, whole]

end HautePerformance.Library
