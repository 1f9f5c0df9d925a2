import HautePerformance.Library.CheckedInteger
import HautePerformance.Library.EntryMerge

/-!
# Totals by key

A map in which the amounts of every key are added up, one entry after the other.
The map depends on the entries through what they come to at each key, so a map of
totals can itself be added in as if it were the entries that it was made of.
-/

namespace HautePerformance.Library

variable {Key : Type} [DecidableEq Key]

/-- `*totals.entry(key).or_insert(0) += amount`, on words of so many bits. -/
def addEntry (overflowChecks : Bool) (bits : Nat)
    (totals : AList fun _ : Key => Nat) (entry : Sigma fun _ : Key => Nat) :
    Option (AList fun _ : Key => Nat) :=
  (machineWord overflowChecks bits (valueAt 0 totals entry.1 + entry.2)).map
    fun word => totals.insert entry.1 word

/-- What the entries of one key come to. -/
def amountOf (key : Key) (entries : List (Sigma fun _ : Key => Nat)) : Nat :=
  (entries.lookupAll key).sum

section AmountOf

variable {key other : Key} {amount : Nat}
variable {entries front back : List (Sigma fun _ : Key => Nat)}

@[simp]
theorem amountOf_nil : amountOf key [] = 0 :=
  rfl

@[simp]
theorem amountOf_cons_self :
    amountOf key (⟨key, amount⟩ :: entries) = amount + amountOf key entries := by
  simp [amountOf]

theorem amountOf_cons_ne (different : key ≠ other) :
    amountOf key (⟨other, amount⟩ :: entries) = amountOf key entries := by
  simp [amountOf, different]

theorem amountOf_append :
    amountOf key (front ++ back) = amountOf key front + amountOf key back := by
  induction front with
  | nil => simp
  | cons entry rest inductionHypothesis =>
      obtain ⟨first, amount⟩ := entry
      rw [List.cons_append]
      by_cases same : key = first
      · subst same
        rw [amountOf_cons_self, amountOf_cons_self, inductionHypothesis,
          Nat.add_assoc]
      · rw [amountOf_cons_ne same, amountOf_cons_ne same, inductionHypothesis]

/-- No key has more than all of them together. -/
theorem amountOf_le_sum : amountOf key entries ≤ (entries.map Sigma.snd).sum := by
  induction entries with
  | nil => simp
  | cons entry rest inductionHypothesis =>
      obtain ⟨first, amount⟩ := entry
      rw [List.map_cons, List.sum_cons]
      by_cases same : key = first
      · subst same
        rw [amountOf_cons_self]
        exact Nat.add_le_add_left inductionHypothesis amount
      · rw [amountOf_cons_ne same]
        exact inductionHypothesis.trans (Nat.le_add_left _ _)

/-- The entries of a map, in whatever order they are gone through. -/
theorem amountOf_of_perm {totals : AList fun _ : Key => Nat}
    (same : entries.Perm totals.entries) :
    amountOf key entries = valueAt 0 totals key := by
  have distinct : entries.NodupKeys :=
    (List.perm_nodupKeys same).mpr totals.nodupKeys
  have found : entries.dlookup key = totals.lookup key :=
    List.perm_dlookup key distinct same
  rw [amountOf, List.lookupAll_eq_dlookup key distinct, found, valueAt]
  cases totals.lookup key with
  | none => rfl
  | some amount => simp

end AmountOf

/-- The map holds what the entries come to, at the keys that they have. -/
structure Totals (totals : AList fun _ : Key => Nat)
    (entries : List (Sigma fun _ : Key => Nat)) : Prop where
  value : ∀ key, valueAt 0 totals key = amountOf key entries
  present : ∀ key, key ∈ totals ↔ key ∈ entries.keys

namespace Totals

variable {totals other : AList fun _ : Key => Nat}
variable {entries front back : List (Sigma fun _ : Key => Nat)}

theorem empty : Totals (∅ : AList fun _ : Key => Nat) [] where
  value := fun _ => rfl
  present := fun _ => by simp

/-- A map is the totals of its own entries. -/
theorem of_perm (same : entries.Perm totals.entries) : Totals totals entries where
  value := fun _ => (amountOf_of_perm same).symm
  present := fun _ => (same.map Sigma.fst).mem_iff.symm

theorem lookup_eq (left : Totals totals entries) (right : Totals other entries)
    (key : Key) : totals.lookup key = other.lookup key := by
  have sameValue : valueAt 0 totals key = valueAt 0 other key :=
    (left.value key).trans (right.value key).symm
  by_cases member : key ∈ entries.keys
  · obtain ⟨amount, found⟩ :=
      Option.isSome_iff_exists.mp
        (AList.lookup_isSome.mpr ((left.present key).mpr member))
    obtain ⟨otherAmount, otherFound⟩ :=
      Option.isSome_iff_exists.mp
        (AList.lookup_isSome.mpr ((right.present key).mpr member))
    rw [valueAt, valueAt, found, otherFound] at sameValue
    rw [found, otherFound]
    exact congrArg some sameValue
  · rw [AList.lookup_eq_none.mpr fun inside => member ((left.present key).mp inside),
      AList.lookup_eq_none.mpr fun inside => member ((right.present key).mp inside)]

/-- Entries that come to the same at every key have the same totals. -/
theorem congr (holds : Totals totals entries)
    (amounts : ∀ key, amountOf key entries = amountOf key front)
    (keys : ∀ key, key ∈ entries.keys ↔ key ∈ front.keys) :
    Totals totals front where
  value := fun key => (holds.value key).trans (amounts key)
  present := fun key => (holds.present key).trans (keys key)

variable (overflowChecks : Bool) {bits : Nat}

/-- One more entry. -/
theorem addEntry {entry : Sigma fun _ : Key => Nat} (holds : Totals totals front)
    (fits : amountOf entry.1 front + entry.2 < 2 ^ bits) :
    ∃ next, Library.addEntry overflowChecks bits totals entry = some next ∧
      Totals next (front ++ [entry]) := by
  obtain ⟨first, amount⟩ := entry
  refine ⟨totals.insert first (valueAt 0 totals first + amount), ?_, ?_, ?_⟩
  · rw [Library.addEntry, machineWord_of_fits (by rw [holds.value]; exact fits),
      Option.map_some]
  · intro key
    rw [amountOf_append]
    by_cases same : key = first
    · subst same
      rw [valueAt_insert_self, holds.value, amountOf_cons_self, amountOf_nil,
        Nat.add_zero]
    · rw [valueAt_insert_ne same, holds.value, amountOf_cons_ne same, amountOf_nil,
        Nat.add_zero]
  · intro key
    rw [AList.mem_insert, holds.present]
    simp [List.keys, or_comm]

/-- A list of entries, as long as no key gets more than a word holds. -/
theorem foldlM {back : List (Sigma fun _ : Key => Nat)} :
    ∀ {totals : AList fun _ : Key => Nat}
      {front : List (Sigma fun _ : Key => Nat)},
      Totals totals front →
      (∀ key, amountOf key (front ++ back) < 2 ^ bits) →
      ∃ last, back.foldlM (Library.addEntry overflowChecks bits) totals = some last ∧
        Totals last (front ++ back) := by
  induction back with
  | nil =>
      intro totals front holds _
      exact ⟨totals, rfl, by simpa using holds⟩
  | cons entry rest inductionHypothesis =>
      intro totals front holds fits
      have split : front ++ entry :: rest = (front ++ [entry]) ++ rest := by simp
      have room : amountOf entry.1 front + entry.2 < 2 ^ bits := by
        have whole := fits entry.1
        have atEntry : amountOf entry.1 (entry :: rest) =
            entry.2 + amountOf entry.1 rest := amountOf_cons_self
        rw [amountOf_append, atEntry] at whole
        omega
      obtain ⟨next, step, nextHolds⟩ := holds.addEntry overflowChecks room
      obtain ⟨last, steps, lastHolds⟩ :=
        inductionHypothesis nextHolds (by rw [← split]; exact fits)
      refine ⟨last, ?_, by rw [split]; exact lastHolds⟩
      rw [List.foldlM_cons, step]
      exact steps

/-- The entries of a map of totals, in whatever order, instead of those that it
was made of. -/
theorem merge {iterated : List (Sigma fun _ : Key => Nat)}
    (left : Totals totals front) (right : Totals other back)
    (order : iterated.Perm other.entries)
    (fits : ∀ key, amountOf key (front ++ back) < 2 ^ bits) :
    ∃ merged,
      iterated.foldlM (Library.addEntry overflowChecks bits) totals = some merged ∧
        Totals merged (front ++ back) := by
  have sameAmount : ∀ key,
      amountOf key (front ++ iterated) = amountOf key (front ++ back) := by
    intro key
    rw [amountOf_append, amountOf_append, amountOf_of_perm order, right.value]
  have sameKeys : ∀ key,
      key ∈ (front ++ iterated).keys ↔ key ∈ (front ++ back).keys := by
    intro key
    have inside : key ∈ iterated.keys ↔ key ∈ back.keys :=
      ((of_perm order).present key).symm.trans (right.present key)
    rw [List.keys_append, List.keys_append, List.mem_append, List.mem_append,
      inside]
  obtain ⟨merged, run, holds⟩ :=
    left.foldlM overflowChecks fun key => (sameAmount key).trans_lt (fits key)
  exact ⟨merged, run, holds.congr sameAmount sameKeys⟩

end Totals

end HautePerformance.Library
