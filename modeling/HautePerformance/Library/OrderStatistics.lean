import Mathlib.Data.List.Sort

/-!
# Order statistics

The element of a given rank in a total order, told by counting: no more elements
come strictly before it than its rank, and more come before it or are equal to it.
The sorted list has it at that place, and so has a list that has been partitioned
there.
-/

namespace HautePerformance.Library

variable {α : Type} (r : α → α → Prop) [DecidableRel r]

/-- The element comes at this place when the values are put in order. -/
structure HasRank (values : List α) (rank : Nat) (x : α) : Prop where
  few : values.countP (fun y => ¬ r x y) ≤ rank
  many : rank < values.countP (fun y => r y x)

variable {r} {values other front back : List α} {rank : Nat} {x y : α}

namespace HasRank

theorem perm (hasRank : HasRank r values rank x) (same : other.Perm values) :
    HasRank r other rank x := by
  constructor
  · rw [same.countP_eq]
    exact hasRank.few
  · rw [same.countP_eq]
    exact hasRank.many

theorem lt_length (hasRank : HasRank r values rank x) : rank < values.length :=
  Nat.lt_of_lt_of_le hasRank.many List.countP_le_length

/-- An element between the two counts is equal to `x`. -/
theorem mem [Std.Antisymm r] (hasRank : HasRank r values rank x) :
    x ∈ values := by
  by_contra absent
  have fewer :
      values.countP (fun y => r y x) ≤ values.countP (fun y => ¬ r x y) := by
    refine List.countP_mono_left fun y member before => ?_
    have notAfter : ¬ r x y := by
      intro after
      have same : y = x := Std.Antisymm.antisymm y x (by simpa using before) after
      exact absent (same ▸ member)
    simpa using notAfter
  exact absurd (Nat.lt_of_lt_of_le hasRank.many fewer)
    (Nat.not_lt.mpr hasRank.few)

/-- Of two elements of one rank none comes strictly before the other. -/
theorem le [IsTrans α r] (hasRank : HasRank r values rank x)
    (otherRank : HasRank r values rank y) : r y x := by
  by_contra notBefore
  have fewer :
      values.countP (fun z => r z x) ≤ values.countP (fun z => ¬ r y z) := by
    refine List.countP_mono_left fun z _ before => ?_
    have notAfter : ¬ r y z := by
      intro after
      exact notBefore (IsTrans.trans y z x after (by simpa using before))
    simpa using notAfter
  exact absurd (Nat.lt_of_lt_of_le hasRank.many fewer)
    (Nat.not_lt.mpr otherRank.few)

theorem unique [IsTrans α r] [Std.Antisymm r]
    (hasRank : HasRank r values rank x)
    (otherRank : HasRank r values rank y) : x = y :=
  Std.Antisymm.antisymm x y (otherRank.le hasRank) (hasRank.le otherRank)

end HasRank

/-- The element at which the values have been partitioned. -/
theorem hasRank_of_partition (before : ∀ y, y ∈ front → r y x)
    (after : ∀ y, y ∈ back → r x y) (reflexive : r x x) :
    HasRank r (front ++ x :: back) front.length x := by
  constructor
  · have noneBehind : (x :: back).countP (fun y => ¬ r x y) = 0 := by
      refine List.countP_eq_zero.mpr fun y member => ?_
      rcases List.mem_cons.mp member with rfl | inBack
      · simpa using reflexive
      · simpa using after y inBack
    rw [List.countP_append, noneBehind, Nat.add_zero]
    exact List.countP_le_length
  · have allInFront : front.countP (fun y => r y x) = front.length :=
      List.countP_eq_length.mpr fun y member => by simpa using before y member
    rw [List.countP_append, allInFront, List.countP_cons_of_pos (by simpa using reflexive)]
    omega

/-- What has a rank among the values in front, none of the others being before
them, has it among all. -/
theorem HasRank.of_front [Std.Antisymm r] (hasRank : HasRank r front rank x)
    (ordered : ∀ y, y ∈ front → ∀ z, z ∈ back → r y z) :
    HasRank r (front ++ back) rank x := by
  constructor
  · have noneBehind : back.countP (fun y => ¬ r x y) = 0 :=
      List.countP_eq_zero.mpr fun z member => by
        simpa using ordered x hasRank.mem z member
    rw [List.countP_append, noneBehind, Nat.add_zero]
    exact hasRank.few
  · rw [List.countP_append]
    exact Nat.lt_of_lt_of_le hasRank.many (Nat.le_add_right _ _)

/-- In a sorted list every element has the rank of its place. -/
theorem hasRank_of_sorted [Std.Total r] (sorted : values.Pairwise r)
    (found : values[rank]? = some x) : HasRank r values rank x := by
  obtain ⟨inRange, isThere⟩ := List.getElem?_eq_some_iff.mp found
  have split : values = values.take rank ++ x :: values.drop (rank + 1) := by
    rw [← isThere, List.getElem_cons_drop, List.take_append_drop]
  have place : (values.take rank).length = rank :=
    List.length_take_of_le (Nat.le_of_lt inRange)
  rw [split, List.pairwise_append, List.pairwise_cons] at sorted
  have partitioned :=
    hasRank_of_partition
      (fun y member => sorted.2.2 y member x List.mem_cons_self)
      sorted.2.1.1 (Std.Refl.refl x)
  rw [place, ← split] at partitioned
  exact partitioned

/-- The element of a rank is the one that the sorted list has at that place. -/
theorem getElem?_insertionSort_iff [Std.Total r] [IsTrans α r]
    [Std.Antisymm r] :
    (values.insertionSort r)[rank]? = some x ↔ HasRank r values rank x := by
  have sorted : (values.insertionSort r).Pairwise r :=
    List.pairwise_insertionSort r values
  have same : (values.insertionSort r).Perm values :=
    List.perm_insertionSort r values
  constructor
  · intro found
    exact (hasRank_of_sorted sorted found).perm same.symm
  · intro hasRank
    have inRange : rank < (values.insertionSort r).length := by
      rw [same.length_eq]
      exact hasRank.lt_length
    have found : (values.insertionSort r)[rank]? =
        some (values.insertionSort r)[rank] :=
      List.getElem?_eq_getElem inRange
    have isThere :
        HasRank r values rank (values.insertionSort r)[rank] :=
      (hasRank_of_sorted sorted found).perm same.symm
    rw [found, isThere.unique hasRank]

/-! ## Partial selection -/

/-- A function that permutes the values so that the one of a rank comes to its
place, none that comes after it before it and none that comes before it behind it.
It fails when there are not as many values. -/
structure Selection (r : α → α → Prop) where
  run : List α → Nat → Option (List α)
  run_eq_none_iff : ∀ values index,
    run values index = none ↔ values.length ≤ index
  perm : ∀ values index selected,
    run values index = some selected → selected.Perm values
  partitioned : ∀ values index selected,
    run values index = some selected →
    ∃ front x back,
      selected = front ++ x :: back ∧ front.length = index ∧
        (∀ y, y ∈ front → r y x) ∧ ∀ y, y ∈ back → r x y

/-- Sorting is one of them. -/
def Selection.sorting (r : α → α → Prop) [DecidableRel r] [Std.Total r]
    [IsTrans α r] : Selection r where
  run values index :=
    if index < values.length then some (values.insertionSort r) else none
  run_eq_none_iff values index := by simp
  perm := by
    intro values index selected chosen
    obtain ⟨_, isSorted⟩ := Option.ite_none_right_eq_some.mp chosen
    cases isSorted
    exact List.perm_insertionSort r values
  partitioned := by
    intro values index selected chosen
    obtain ⟨inRange, isSorted⟩ := Option.ite_none_right_eq_some.mp chosen
    cases isSorted
    have sorted : (values.insertionSort r).Pairwise r :=
      List.pairwise_insertionSort r values
    have bound : index < (values.insertionSort r).length := by
      rwa [List.length_insertionSort]
    have split : values.insertionSort r =
        (values.insertionSort r).take index ++
          (values.insertionSort r)[index] ::
            (values.insertionSort r).drop (index + 1) := by
      rw [List.getElem_cons_drop, List.take_append_drop]
    rw [split, List.pairwise_append, List.pairwise_cons] at sorted
    exact ⟨_, _, _, split, List.length_take_of_le (Nat.le_of_lt bound),
      fun y member => sorted.2.2 y member _ List.mem_cons_self, sorted.2.1.1⟩

/-- These values are the first of all, in some order. -/
def Leading (r : α → α → Prop) (values front : List α) : Prop :=
  ∃ back,
    (front ++ back).Perm values ∧
      ∀ y, y ∈ front → ∀ z, z ∈ back → r y z

omit [DecidableRel r] in
theorem leading_self (values : List α) : Leading r values values :=
  ⟨[], by rw [List.append_nil], fun _ _ _ member => by cases member⟩

theorem Leading.hasRank [Std.Antisymm r] (leading : Leading r values front)
    (hasRank : HasRank r front rank x) : HasRank r values rank x := by
  obtain ⟨back, same, ordered⟩ := leading
  exact (hasRank.of_front ordered).perm same.symm

omit [DecidableRel r] in
/-- What a selection among the first values puts in front are the first values. -/
theorem Leading.of_partition [IsTrans α r] {first second : List α}
    (leading : Leading r values front)
    (same : (first ++ x :: second).Perm front)
    (before : ∀ y, y ∈ first → r y x) (after : ∀ y, y ∈ second → r x y) :
    Leading r values first := by
  obtain ⟨back, isAll, ordered⟩ := leading
  refine ⟨x :: second ++ back, ?_, ?_⟩
  · rw [← List.append_assoc]
    exact (same.append_right back).trans isAll
  · intro y inFirst z behind
    rcases List.mem_append.mp behind with inSecond | inBack
    · rcases List.mem_cons.mp inSecond with rfl | inSecond
      · exact before y inFirst
      · exact IsTrans.trans y x z (before y inFirst) (after z inSecond)
    · have inFront : y ∈ front :=
        same.mem_iff.mp (List.mem_append_left _ inFirst)
      exact ordered y inFront z inBack

namespace Selection

variable (selection : Selection r)

/-- The selection on the first `bound` values; the others stay where they are. -/
def runOnFront (bound : Nat) (values : List α) (index : Nat) :
    Option (List α) :=
  if bound ≤ values.length then
    (selection.run (values.take bound) index).map (· ++ values.drop bound)
  else none

variable {selection}

omit [DecidableRel r] in
theorem runOnFront_append (front back : List α) (index : Nat) :
    selection.runOnFront front.length (front ++ back) index =
      (selection.run front index).map (· ++ back) := by
  rw [runOnFront, if_pos (by simp), List.take_left, List.drop_left]

omit [DecidableRel r] in
theorem runOnFront_eq_none (front back : List α) {index : Nat}
    (outside : front.length ≤ index) :
    selection.runOnFront front.length (front ++ back) index = none := by
  rw [runOnFront_append, (selection.run_eq_none_iff front index).mpr outside]
  rfl

/-- The selection of a rank among the first values of all. -/
theorem exists_run [Std.Total r] [IsTrans α r] [Std.Antisymm r]
    (leading : Leading r values front) (inRange : rank < front.length) :
    ∃ first x second,
      selection.run front rank = some (first ++ x :: second) ∧
        first.length = rank ∧ Leading r values first ∧
        HasRank r values rank x := by
  cases chosen : selection.run front rank with
  | none =>
      have outside := (selection.run_eq_none_iff front rank).mp chosen
      exact absurd inRange (Nat.not_lt.mpr outside)
  | some selected =>
      have same := selection.perm front rank selected chosen
      obtain ⟨first, x, second, rfl, place, before, after⟩ :=
        selection.partitioned front rank selected chosen
      have hasRank : HasRank r front rank x := by
        rw [← place]
        exact (hasRank_of_partition before after (Std.Refl.refl x)).perm
          same.symm
      exact ⟨first, x, second, rfl, place,
        leading.of_partition same before after, leading.hasRank hasRank⟩

theorem exists_runOnFront [Std.Total r] [IsTrans α r] [Std.Antisymm r]
    (leading : Leading r values front) (inRange : rank < front.length)
    (back : List α) :
    ∃ first x second,
      selection.runOnFront front.length (front ++ back) rank =
          some (first ++ x :: second) ∧
        first.length = rank ∧ Leading r values first ∧
        HasRank r values rank x := by
  obtain ⟨first, x, second, chosen, place, leads, hasRank⟩ :=
    exists_run leading inRange
  refine ⟨first, x, second ++ back, ?_, place, leads, hasRank⟩
  rw [runOnFront_append, chosen, Option.map_some, List.append_assoc,
    List.cons_append]

end Selection

end HautePerformance.Library
