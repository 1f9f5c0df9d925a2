import Mathlib.Data.List.Sort
import Mathlib.Data.List.Nodup

/-!
# Entries sorted by key

Pairs of a key and a value, sorted by key.  When the keys are distinct they ascend
strictly, and so the order in which the entries came leaves no trace.
-/

namespace HautePerformance.Library

universe u v

variable {Key : Type u} [LinearOrder Key] {Value : Type v}
variable {items : List (Key × Value)}

/-- The keys ascend strictly. -/
def Ascending (items : List (Key × Value)) : Prop :=
  items.Pairwise fun left right => left.1 < right.1

/-- The entries in the order of their keys. -/
def sortByKey (items : List (Key × Value)) : List (Key × Value) :=
  items.insertionSort fun left right => left.1 ≤ right.1

theorem perm_sortByKey (items : List (Key × Value)) :
    (sortByKey items).Perm items :=
  List.perm_insertionSort _ items

theorem mem_sortByKey {item : Key × Value} :
    item ∈ sortByKey items ↔ item ∈ items :=
  (perm_sortByKey items).mem_iff

theorem length_sortByKey (items : List (Key × Value)) :
    (sortByKey items).length = items.length :=
  (perm_sortByKey items).length_eq

theorem pairwise_sortByKey (items : List (Key × Value)) :
    (sortByKey items).Pairwise fun left right => left.1 ≤ right.1 := by
  have total : Std.Total fun left right : Key × Value => left.1 ≤ right.1 :=
    ⟨fun left right => le_total left.1 right.1⟩
  have transitive :
      IsTrans (Key × Value) fun left right => left.1 ≤ right.1 :=
    ⟨fun _ _ _ first second => le_trans first second⟩
  exact List.pairwise_insertionSort _ items

/-- Distinct keys ascend strictly once they are sorted. -/
theorem ascending_sortByKey (distinct : (items.map Prod.fst).Nodup) :
    Ascending (sortByKey items) := by
  have sorted := pairwise_sortByKey items
  have sortedDistinct : ((sortByKey items).map Prod.fst).Nodup :=
    ((perm_sortByKey items).map Prod.fst).nodup_iff.mpr distinct
  have unequal : (sortByKey items).Pairwise
      fun left right => left.1 ≠ right.1 :=
    List.pairwise_map.mp sortedDistinct
  refine (sorted.and unequal).imp ?_
  intro left right relation
  exact lt_of_le_of_ne relation.1 relation.2

end HautePerformance.Library
