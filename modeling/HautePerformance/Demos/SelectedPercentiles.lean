import HautePerformance.Demos.Percentiles

/-!
# Percentiles by selection

`stats_par_select` selects the maximum, then the other percentiles among the values
before it.  With fewer than three values the median is not before the 99th
percentile, and the last selection is out of range.
-/

namespace HautePerformance.Demos.Percentiles

open Library

variable {selection : Selection fun a b : UInt64 => a ≤ b}
variable {overflowChecks : Bool} {data : List UInt64} {idx : Nat}

theorem getElem?_append_cons {α : Type} {front back : List α} {value : α}
    {place : Nat} (isPlace : front.length = place) :
    (front ++ value :: back)[place]? = some value := by
  rw [← isPlace, List.getElem?_append_right (Nat.le_refl _), Nat.sub_self]
  rfl

/-- When the median comes before the 99th percentile, the selections give the
values of the three ranks. -/
theorem exists_statsParSelect (selection : Selection fun a b : UInt64 => a ≤ b)
    (index : idxP99 overflowChecks data.length = some idx)
    (medianBefore : data.length / 2 < idx) :
    ∃ stats,
      statsParSelect selection overflowChecks data = some stats ∧
        stats.Ranked data idx := by
  have notEmpty : data ≠ [] := by
    rintro rfl
    rw [(idxP99_eq_some_iff.mp index).1] at medianBefore
    cases medianBefore
  have positive : 0 < data.length := List.length_pos_of_ne_nil notEmpty
  have below := idxP99_lt index positive
  obtain ⟨others, max, behind, selected, place, othersLead, isMax⟩ :=
    selection.exists_run (leading_self data)
      (show data.length - 1 < data.length by omega)
  have readMax : (others ++ max :: behind)[data.length - 1]? = some max :=
    getElem?_append_cons place
  by_cases isLast : idx = data.length - 1
  · obtain ⟨lower, p50, upper, selectedP50, placeP50, _, isP50⟩ :=
      selection.exists_runOnFront othersLead
        (show data.length / 2 < others.length by omega) (max :: behind)
    rw [place] at selectedP50
    refine ⟨{ p50 := p50, p99 := max, max := max }, ?_, isP50,
      isLast ▸ isMax, isMax⟩
    simp [statsParSelect, notEmpty, index, isLast, selected, readMax,
      selectedP50, getElem?_append_cons placeP50]
  · obtain ⟨lower, p99, upper, selectedP99, placeP99, lowerLead, isP99⟩ :=
      selection.exists_runOnFront othersLead
        (show idx < others.length by omega) (max :: behind)
    rw [place] at selectedP99
    obtain ⟨lowest, p50, middle, selectedP50, placeP50, _, isP50⟩ :=
      selection.exists_runOnFront lowerLead
        (show data.length / 2 < lower.length by omega) (p99 :: upper)
    rw [placeP99] at selectedP50
    refine ⟨{ p50 := p50, p99 := p99, max := max }, ?_, isP50, isP99, isMax⟩
    simp [statsParSelect, notEmpty, index, isLast, selected, readMax,
      selectedP99, getElem?_append_cons placeP99, selectedP50,
      getElem?_append_cons placeP50]

/-- When it does not, the last selection is out of range. -/
theorem statsParSelect_eq_none (notEmpty : data ≠ [])
    (index : idxP99 overflowChecks data.length = some idx)
    (notBefore : idx ≤ data.length / 2) :
    statsParSelect selection overflowChecks data = none := by
  have positive : 0 < data.length := List.length_pos_of_ne_nil notEmpty
  have below := idxP99_lt index positive
  obtain ⟨others, max, behind, selected, place, othersLead, isMax⟩ :=
    selection.exists_run (leading_self data)
      (show data.length - 1 < data.length by omega)
  have readMax : (others ++ max :: behind)[data.length - 1]? = some max :=
    getElem?_append_cons place
  by_cases isLast : idx = data.length - 1
  · have outside :=
      selection.runOnFront_eq_none others (max :: behind)
        (show others.length ≤ data.length / 2 by omega)
    rw [place] at outside
    simp [statsParSelect, notEmpty, index, isLast, selected, readMax, outside]
  · obtain ⟨lower, p99, upper, selectedP99, placeP99, _, _⟩ :=
      selection.exists_runOnFront othersLead
        (show idx < others.length by omega) (max :: behind)
    rw [place] at selectedP99
    have outside :=
      selection.runOnFront_eq_none lower (p99 :: upper)
        (show lower.length ≤ data.length / 2 by omega)
    rw [placeP99] at outside
    simp [statsParSelect, notEmpty, index, isLast, selected, readMax,
      selectedP99, getElem?_append_cons placeP99, outside]

/-- The selections succeed if and only if the median comes before the 99th
percentile. -/
theorem statsParSelect_eq_some_iff {stats : Stats} :
    statsParSelect selection overflowChecks data = some stats ↔
      ∃ idx, idxP99 overflowChecks data.length = some idx ∧
        data.length / 2 < idx ∧ stats.Ranked data idx := by
  constructor
  · intro succeeds
    have notEmpty : data ≠ [] := by
      rintro rfl
      cases succeeds
    cases index : idxP99 overflowChecks data.length with
    | none =>
        simp [statsParSelect, notEmpty, index] at succeeds
    | some idx =>
        by_cases medianBefore : data.length / 2 < idx
        · obtain ⟨found, isFound, ranked⟩ :=
            exists_statsParSelect selection index medianBefore
          rw [succeeds] at isFound
          cases isFound
          exact ⟨idx, rfl, medianBefore, ranked⟩
        · rw [statsParSelect_eq_none notEmpty index (by omega)] at succeeds
          cases succeeds
  · rintro ⟨idx, index, medianBefore, ranked⟩
    obtain ⟨found, isFound, others⟩ :=
      exists_statsParSelect selection index medianBefore
    rw [isFound, others.unique ranked]

theorem medianBefore_iff {n : Nat} :
    (∃ idx, idxP99 overflowChecks n = some idx ∧ n / 2 < idx) ↔
      3 ≤ n ∧
        (n * 99 < 2 ^ 64 ∨
          overflowChecks = false ∧ n / 2 < n * 99 % 2 ^ 64 / 100) := by
  simp only [idxP99_eq_some_iff]
  constructor
  · rintro ⟨idx, ⟨rfl, fits | unchecked⟩, medianBefore⟩
    · rw [Nat.mod_eq_of_lt fits] at medianBefore
      exact ⟨by omega, Or.inl fits⟩
    · refine ⟨?_, Or.inr ⟨unchecked, medianBefore⟩⟩
      by_contra fewer
      have fits : n * 99 < 2 ^ 64 := by omega
      rw [Nat.mod_eq_of_lt fits] at medianBefore
      omega
  · rintro ⟨atLeastThree, fits | ⟨unchecked, medianBefore⟩⟩
    · refine ⟨_, ⟨rfl, Or.inl fits⟩, ?_⟩
      rw [Nat.mod_eq_of_lt fits]
      omega
    · exact ⟨_, ⟨rfl, Or.inr unchecked⟩, medianBefore⟩

/-- `stats_par_select` returns what `stats_par_tri` returns if and only if there are
at least three values.  For lengths from `2 ^ 64 / 99` on the product with 99
overflows: both panic if that is checked, and otherwise the wrapped index has to be
behind the median. -/
theorem selected_eq_sorted_iff (selection : Selection fun a b : UInt64 => a ≤ b)
    (overflowChecks : Bool) (data : List UInt64) :
    (∃ stats,
      statsParSelect selection overflowChecks data = some stats ∧
        statsParTri overflowChecks data = some stats) ↔
      3 ≤ data.length ∧
        (data.length * 99 < 2 ^ 64 ∨
          overflowChecks = false ∧
            data.length / 2 < data.length * 99 % 2 ^ 64 / 100) := by
  rw [← medianBefore_iff]
  constructor
  · rintro ⟨stats, selected, _⟩
    obtain ⟨idx, index, medianBefore, _⟩ :=
      statsParSelect_eq_some_iff.mp selected
    exact ⟨idx, index, medianBefore⟩
  · rintro ⟨idx, index, medianBefore⟩
    obtain ⟨stats, selected, ranked⟩ :=
      exists_statsParSelect selection index medianBefore
    exact ⟨stats, selected, statsParTri_eq_some_iff.mpr ⟨idx, index, ranked⟩⟩

/-- A single value is sorted, and its selection panics. -/
theorem single_value_not_selected :
    ¬ ∀ (selection : Selection fun a b : UInt64 => a ≤ b)
        (overflowChecks : Bool) (data : List UInt64),
      data ≠ [] →
      ∃ stats,
        statsParSelect selection overflowChecks data = some stats ∧
          statsParTri overflowChecks data = some stats := by
  intro equal
  obtain ⟨stats, selected, _⟩ := equal (Selection.sorting _) true [42] (by simp)
  have panics :
      statsParSelect (Selection.sorting _) true [42] = none := by
    decide
  rw [panics] at selected
  cases selected

end HautePerformance.Demos.Percentiles
