import HautePerformance.Library.AscendingKeys
import HautePerformance.KvDistributed.StorageSteps

/-!
# What a scan returns

`scan` collects entries in the order in which the map iterates, stops at its limit
and sorts what it has.  Whatever that order is, the result ascends in the key and
holds as many matching entries as there are up to the limit.
-/

namespace HautePerformance.KvDistributed

open Library

namespace StorageEngine

variable {engine : StorageEngine} {keyPrefix : String} {limit now : Nat}

/-- The stored, live entries with the prefix, in iteration order. -/
def matching (engine : StorageEngine) (keyPrefix : String) (now : Nat) :
    List (String × ValueEntry) :=
  engine.iter.filter (selects keyPrefix now)

theorem mem_matching {key : String} {entry : ValueEntry} :
    (key, entry) ∈ engine.matching keyPrefix now ↔
      engine.lookup key = some entry ∧ startsWith key keyPrefix = true ∧
        entry.isExpired now = false := by
  rw [matching, List.mem_filter, mem_iter]
  simp [selects]

/-- The map holds one entry for a key. -/
theorem nodup_keys_iter (engine : StorageEngine) :
    (engine.iter.map Prod.fst).Nodup := by
  have keys : engine.iter.map Prod.fst = engine.store.entries.keys := by
    rw [iter, List.map_map]
    rfl
  rw [keys]
  exact engine.store.nodupKeys

theorem nodup_keys_matching (engine : StorageEngine) (keyPrefix : String)
    (now : Nat) : ((engine.matching keyPrefix now).map Prod.fst).Nodup := by
  have kept : (engine.matching keyPrefix now).Sublist engine.iter :=
    List.filter_sublist
  exact (nodup_keys_iter engine).sublist (kept.map Prod.fst)

/-- `scan` sorts the first matching entries it comes to. -/
theorem scan_eq :
    engine.scan keyPrefix limit now =
      sortByKey ((engine.matching keyPrefix now).take limit) := by
  rw [scan, scanLoop_eq, List.nil_append, List.length_nil, Nat.sub_zero]
  rfl

end StorageEngine

/-- There is one list of the matching entries that ascends in the key.  A scan
returns entries of it in the same order, as many as the limit allows, and all of
them when there is room; the node is left as it is. -/
theorem scan_sound_complete (node : NodeState) (keyPrefix : String)
    (limit : Nat) :
    let (after, result) := StorageCall.perform node (.scan keyPrefix limit)
    after = node ∧
      Ascending result ∧
      ∃ all,
        Ascending all ∧
          (∀ key entry,
            (key, entry) ∈ all ↔
              node.storage.lookup key = some entry ∧
                StorageEngine.startsWith key keyPrefix = true ∧
                entry.isExpired node.now = false) ∧
          result ⊆ all ∧
          result.length = min limit all.length ∧
          (all.length ≤ limit → result = all) := by
  have distinct :=
    node.storage.nodup_keys_matching keyPrefix node.now
  have taken :
      ((node.storage.matching keyPrefix node.now).take limit).Sublist
        (node.storage.matching keyPrefix node.now) :=
    List.take_sublist limit _
  change node = node ∧ Ascending (node.storage.scan _ _ _) ∧ _
  rw [StorageEngine.scan_eq]
  refine ⟨rfl, ascending_sortByKey (distinct.sublist (taken.map Prod.fst)),
    sortByKey (node.storage.matching keyPrefix node.now),
    ascending_sortByKey distinct, ?_, ?_, ?_, ?_⟩
  · intro key entry
    rw [mem_sortByKey, StorageEngine.mem_matching]
  · intro item member
    exact mem_sortByKey.mpr (taken.subset (mem_sortByKey.mp member))
  · rw [length_sortByKey, length_sortByKey, List.length_take]
  · intro room
    rw [length_sortByKey] at room
    rw [List.take_of_length_le room]

end HautePerformance.KvDistributed
