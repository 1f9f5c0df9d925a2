import Mathlib.Data.List.AList

/-!
# Merging maps entry by entry

A map with a default value for absent keys.  The entries of another map are
combined into it one after the other, which combines the values at every key.
-/

namespace HautePerformance.Library

variable {Key Value : Type} [DecidableEq Key]

/-- The value under a key, or the default. -/
def valueAt (default : Value) (map : AList fun _ : Key => Value) (key : Key) :
    Value :=
  (map.lookup key).getD default

section ValueAt

variable {default value : Value} {map : AList fun _ : Key => Value}
variable {key other : Key}

@[simp]
theorem valueAt_insert_self :
    valueAt default (map.insert key value) key = value := by
  simp [valueAt]

theorem valueAt_insert_ne (different : other ≠ key) :
    valueAt default (map.insert key value) other =
      valueAt default map other := by
  simp [valueAt, AList.lookup_insert_ne different]

end ValueAt

/-- The loop over the entries of the other map. -/
def combineEntries (combine : Value → Value → Value) (default : Value)
    (map : AList fun _ : Key => Value)
    (entries : List (Sigma fun _ : Key => Value)) :
    AList fun _ : Key => Value :=
  entries.foldl
    (fun merged entry =>
      merged.insert entry.1 (combine (valueAt default merged entry.1) entry.2))
    map

def mergeEntries (combine : Value → Value → Value) (default : Value)
    (map other : AList fun _ : Key => Value) : AList fun _ : Key => Value :=
  combineEntries combine default map other.entries

section Merge

variable {combine : Value → Value → Value} {default : Value} {key : Key}

theorem valueAt_combineEntries (unit : ∀ value, combine value default = value)
    {entries : List (Sigma fun _ : Key => Value)} :
    ∀ {map : AList fun _ : Key => Value},
      entries.NodupKeys →
      valueAt default (combineEntries combine default map entries) key =
        combine (valueAt default map key)
          ((entries.dlookup key).getD default) := by
  induction entries with
  | nil =>
      intro map _
      simp [combineEntries, unit]
  | cons entry rest inductionHypothesis =>
      intro map distinct
      obtain ⟨first, value⟩ := entry
      obtain ⟨firstOutside, restDistinct⟩ := List.nodupKeys_cons.mp distinct
      have step :
          combineEntries combine default map (⟨first, value⟩ :: rest) =
            combineEntries combine default
              (map.insert first (combine (valueAt default map first) value))
              rest :=
        rfl
      rw [step, inductionHypothesis restDistinct]
      by_cases same : key = first
      · subst same
        rw [List.dlookup_eq_none.mpr firstOutside, List.dlookup_cons_eq,
          valueAt_insert_self]
        simp [unit]
      · rw [List.dlookup_cons_ne _ _ same, valueAt_insert_ne same]

/-- Merging combines the values at each key. -/
theorem valueAt_mergeEntries (unit : ∀ value, combine value default = value)
    (map other : AList fun _ : Key => Value) :
    valueAt default (mergeEntries combine default map other) key =
      combine (valueAt default map key) (valueAt default other key) :=
  valueAt_combineEntries unit other.nodupKeys

end Merge

end HautePerformance.Library
