import HautePerformance.KvDistributed.VersionCounter

/-!
# Stored versions under concurrent writers

A write fixes its version in one step and inserts its entry in a later one.  A
write that is overtaken in between, by one of a greater version on the same key,
puts the older version back.  When no write is overtaken and no `fetch_add`
wraps, the stored versions never decrease and the greatest one is left.
-/

namespace HautePerformance.KvDistributed

open Library

namespace StorageCall

/-- The writing operations. -/
def isWrite : StorageCall → Bool
  | .put _ _ _ => true
  | .putWithVersion _ _ _ _ => true
  | _ => false

/-- The key and the version of a write that is bound to be inserted: a `put`
that has drawn its version, or a `put_with_version` that has passed its check. -/
def pendingWrite? {call : StorageCall} (position : Position call) :
    Option (String × UInt64) :=
  match call, position with
  | .put key _ _, .putNow version => some (key, version)
  | .put key _ _, .putInsert version _ => some (key, version)
  | .putWithVersion key _ version _, .versionNow => some (key, version)
  | .putWithVersion key _ version _, .versionInsert _ => some (key, version)
  | _, _ => none

/-- A write whose entry is inserted and that has not returned yet. -/
def applying? {call : StorageCall} (position : Position call) :
    Option (String × Bytes × UInt64) :=
  match call, position with
  | .putWithVersion key data version _, .versionCount =>
      some (key, data, version)
  | _, _ => none

/-- A returned write that was applied. -/
def applied? : (call : StorageCall) → call.Result →
    Option (String × Bytes × UInt64)
  | .put key data _, version => some (key, data, version)
  | .putWithVersion key data version _, true => some (key, data, version)
  | _, _ => none

variable {call : StorageCall} {node after : NodeState}
variable {position next : Position call} {result : call.Result}
variable {key : String} {data : Bytes} {version : UInt64}

theorem pendingWrite_of_insertion {entry : ValueEntry}
    (inserts : insertion? position = some (key, entry)) :
    pendingWrite? position = some (key, entry.version) := by
  cases position with
  | putInsert _ _ =>
      cases inserts
      rfl
  | versionInsert _ =>
      cases inserts
      rfl
  | _ => cases inserts

/-- A write removes nothing. -/
theorem removal_of_isWrite (writes : call.isWrite = true) :
    removal? position = none := by
  cases position <;> first | rfl | cases writes

/-- A write comes to be pending by drawing a version or by passing the check. -/
theorem pendingWrite_of_goOn
    (stepped : step node position = (after, .goOn next))
    (pending : pendingWrite? next = some (key, version)) :
    after.storage.store = node.storage.store ∧
      (pendingWrite? position = some (key, version) ∨
        (draws position = true ∧ version = node.storage.versionCounter + 1) ∨
        ∀ entry,
          node.storage.lookup key = some entry → entry.version < version) := by
  cases position with
  | putCount =>
      cases stepped
      cases pending
  | putFetchAdd =>
      cases stepped
      cases pending
      exact ⟨rfl, Or.inr (Or.inl ⟨rfl, rfl⟩)⟩
  | putNow drawn =>
      cases stepped
      exact ⟨rfl, Or.inl pending⟩
  | putInsert _ _ => cases stepped
  | versionLoad =>
      cases stepped
      cases pending
  | versionRaise cur =>
      simp only [step] at stepped
      split at stepped
      · split at stepped <;> cases stepped <;> cases pending
      · cases stepped
        cases pending
  | versionCheck =>
      simp only [step] at stepped
      split at stepped
      · rename_i existing found
        split at stepped
        · cases stepped
        · rename_i newer
          cases stepped
          cases pending
          refine ⟨rfl, Or.inr (Or.inr ?_)⟩
          intro entry stored
          rw [found] at stored
          cases stored
          exact UInt64.not_le.mp newer
      · rename_i absent
        cases stepped
        cases pending
        refine ⟨rfl, Or.inr (Or.inr ?_)⟩
        intro entry stored
        rw [absent] at stored
        cases stored
  | versionNow =>
      cases stepped
      exact ⟨rfl, Or.inl pending⟩
  | versionInsert _ =>
      cases stepped
      cases pending
  | versionCount => cases stepped
  | _ => cases next <;> cases pending

/-- An insertion is recorded: by the result of the call, or by its position. -/
theorem applied_of_insertion (node : NodeState) {entry : ValueEntry}
    (inserts : insertion? position = some (key, entry)) :
    (∃ result,
      step node position = (node.insert key entry, .finish result) ∧
        applied? call result = some (key, entry.data, entry.version)) ∨
      ∃ next,
        step node position = (node.insert key entry, .goOn next) ∧
          applying? next = some (key, entry.data, entry.version) := by
  cases position with
  | putInsert version createdAt =>
      cases inserts
      exact Or.inl ⟨version, rfl, rfl⟩
  | versionInsert createdAt =>
      cases inserts
      exact Or.inr ⟨.versionCount, rfl, rfl⟩
  | _ => cases inserts

theorem insertion_of_applying
    (stepped : step node position = (after, .goOn next))
    (applying : applying? next = some (key, data, version)) :
    ∃ entry,
      insertion? position = some (key, entry) ∧
        after = node.insert key entry ∧ entry.version = version := by
  cases position with
  | versionInsert createdAt =>
      cases stepped
      cases applying
      exact ⟨_, rfl, rfl, rfl⟩
  | versionLoad =>
      cases stepped
      cases applying
  | versionRaise cur =>
      simp only [step] at stepped
      split at stepped
      · split at stepped <;> cases stepped <;> cases applying
      · cases stepped
        cases applying
  | versionCheck =>
      simp only [step] at stepped
      split at stepped
      · split at stepped
        · cases stepped
        · cases stepped
          cases applying
      · cases stepped
        cases applying
  | versionNow =>
      cases stepped
      cases applying
  | versionCount => cases stepped
  | _ => cases next <;> cases applying

theorem finish_of_applying (node : NodeState)
    (applying : applying? position = some (key, data, version)) :
    ∃ after result,
      step node position = (after, .finish result) ∧
        applied? call result = some (key, data, version) := by
  cases position with
  | versionCount => exact ⟨_, true, rfl, applying⟩
  | _ => cases applying

theorem applying_of_finish
    (stepped : step node position = (after, .finish result))
    (applied : applied? call result = some (key, data, version)) :
    applying? position = some (key, data, version) ∨
      ∃ entry,
        insertion? position = some (key, entry) ∧
          after = node.insert key entry ∧ entry.version = version := by
  cases position with
  | putCount => cases stepped
  | putFetchAdd => cases stepped
  | putNow _ => cases stepped
  | putInsert drawn createdAt =>
      cases stepped
      cases applied
      exact Or.inr ⟨_, rfl, rfl, rfl⟩
  | versionLoad => cases stepped
  | versionRaise cur =>
      simp only [step] at stepped
      split at stepped
      · split at stepped <;> cases stepped
      · cases stepped
  | versionCheck =>
      simp only [step] at stepped
      split at stepped
      · split at stepped
        · cases stepped
          cases applied
        · cases stepped
      · cases stepped
  | versionNow => cases stepped
  | versionInsert _ => cases stepped
  | versionCount =>
      cases stepped
      exact Or.inl applied
  | _ => cases applied

end StorageCall

/-! ## Writes that have taken effect -/

/-- A write has been inserted, whether its call has returned or not. -/
def Written (pool : StoragePool) (key : String) (data : Bytes)
    (version : UInt64) : Prop :=
  (∃ record,
    record ∈ pool.returned ∧
      StorageCall.applied? record.call record.result =
        some (key, data, version)) ∨
    ∃ thread activity,
      pool.activity? thread = some activity ∧
        StorageCall.applying? activity.position = some (key, data, version)

/-- The move inserts an entry under a key. -/
def Inserts (source : StoragePool) (label : StorageLabel)
    (target : StoragePool) (key : String) (entry : ValueEntry) : Prop :=
  insertionAt? source label = some (key, entry) ∧
    target.shared = source.shared.insert key entry

section

variable {source target : StoragePool} {label : StorageLabel}
variable {key : String} {data : Bytes} {version : UInt64} {entry : ValueEntry}

theorem Inserts.lookup_eq (inserts : Inserts source label target key entry) :
    target.shared.storage.lookup key = some entry := by
  rw [inserts.2]
  exact NodeState.lookup_insert_self source.shared entry

/-- What has been written stays written. -/
theorem Written.of_moves (written : Written source key data version)
    (moves : storageObject.Moves source label target) :
    Written target key data version := by
  rcases written with
    ⟨record, recorded, applied⟩ | ⟨thread, activity, running, applying⟩
  · exact Or.inl ⟨record, moves.returned_subset recorded, applied⟩
  · by_cases isMover : label = .run thread
    · subst isMover
      obtain ⟨after, result, finishes, applied⟩ :=
        StorageCall.finish_of_applying source.shared applying
      rw [moves.eq_finish running finishes]
      exact Or.inl ⟨_, List.mem_cons_self, applied⟩
    · exact Or.inr
        ⟨thread, activity, moves.activity_kept running isMover, applying⟩

/-- An entry that is inserted is written. -/
theorem Inserts.written (inserts : Inserts source label target key entry)
    (moves : storageObject.Moves source label target) :
    Written target key entry.data entry.version := by
  obtain ⟨activity, moving, inserting⟩ := insertionAt?_eq_some.mp inserts.1
  cases label with
  | call _ _ => cases moving
  | environment _ => cases moving
  | run thread =>
      rcases StorageCall.applied_of_insertion source.shared inserting with
        ⟨result, finishes, applied⟩ | ⟨next, goesOn, applying⟩
      · rw [moves.eq_finish moving finishes]
        exact Or.inl ⟨_, List.mem_cons_self, applied⟩
      · rw [moves.eq_advance moving goesOn]
        refine Or.inr
          ⟨thread, { activity with position := next }, ?_, applying⟩
        exact AList.lookup_insert source.running

/-- What is written after a move was written before, or the move inserts it. -/
theorem Written.cases_of_moves (written : Written target key data version)
    (moves : storageObject.Moves source label target) :
    Written source key data version ∨
      ∃ entry, Inserts source label target key entry ∧
        entry.version = version := by
  rcases written with
    ⟨record, recorded, applied⟩ | ⟨thread, activity, running, applying⟩
  · rcases moves.returned_cases recorded with
      before | ⟨thread, activity, shared, result, rfl, running, stepped, rfl, rfl⟩
    · exact Or.inl (Or.inl ⟨record, before, applied⟩)
    · rcases StorageCall.applying_of_finish stepped applied with
        applying | ⟨entry, inserting, inserted, same⟩
      · exact Or.inl (Or.inr ⟨thread, activity, running, applying⟩)
      · have insertsNow :
            insertionAt? source (.run thread) = some (key, entry) :=
          insertionAt?_eq_some.mpr ⟨activity, running, inserting⟩
        exact Or.inr ⟨entry, ⟨insertsNow, inserted⟩, same⟩
  · rcases moves.running_cases running with
      ⟨before, _⟩ | ⟨call, _, _, rfl⟩ |
        ⟨earlier, shared, position, rfl, active, stepped, rfl, rfl⟩
    · exact Or.inl (Or.inr ⟨thread, activity, before, applying⟩)
    · cases call <;> cases applying
    · obtain ⟨entry, inserting, inserted, same⟩ :=
        StorageCall.insertion_of_applying stepped applying
      have insertsNow :
          insertionAt? source (.run thread) = some (key, entry) :=
        insertionAt?_eq_some.mpr ⟨earlier, active, inserting⟩
      exact Or.inr ⟨entry, ⟨insertsNow, inserted⟩, same⟩

/-- A move of writers leaves the entry of a key alone or replaces it. -/
theorem lookup_cases_of_writes
    (moves : storageObject.Moves source label target)
    (writes : ∀ activity,
      source.mover? label = some activity → activity.call.isWrite = true)
    (key : String) :
    target.shared.storage.lookup key = source.shared.storage.lookup key ∨
      ∃ entry, Inserts source label target key entry := by
  rcases lookup_cases moves key with
    same | ⟨entry, inserting, inserted, _⟩ | ⟨activity, moving, removing, _⟩
  · exact Or.inl same
  · exact Or.inr ⟨entry, inserting, inserted⟩
  · rw [StorageCall.removal_of_isWrite (writes activity moving)] at removing
    cases removing

end

/-! ## Writers that are not overtaken -/

/-- Only writing operations are called. -/
def callsWrite : StorageLabel → Bool
  | .call _ call => call.isWrite
  | _ => true

/-- No insertion overtakes a pending write of a lower version on its key. -/
def OvertakesNone (pool : StoragePool) (label : StorageLabel) : Prop :=
  ∀ insertion, insertion ∈ insertionAt? pool label →
    pool.All fun other =>
      ∀ pending, pending ∈ StorageCall.pendingWrite? other.position →
        pending.1 = insertion.1 → insertion.2.version ≤ pending.2

instance (pool : StoragePool) (label : StorageLabel) :
    Decidable (OvertakesNone pool label) :=
  inferInstanceAs
    (Decidable (∀ insertion, insertion ∈ insertionAt? pool label → _))

/-- Writers only, in runs where no write is overtaken and no draw wraps. -/
def WritesInOrder (pool : StoragePool) (label : StorageLabel) : Prop :=
  callsWrite label = true ∧ DrawsExist pool label ∧ OvertakesNone pool label

instance (pool : StoragePool) (label : StorageLabel) :
    Decidable (WritesInOrder pool label) :=
  inferInstanceAs (Decidable (_ ∧ _ ∧ _))

/-- Every entry was written, none is older than what was written under its key,
and no pending write is older than the entry it will replace. -/
def writeOrderOutline :
    Outline NodeState StorageCall.Position StorageCall.Result where
  Inv pool :=
    (∀ key entry, pool.shared.storage.lookup key = some entry →
      Written pool key entry.data entry.version) ∧
      ∀ key data version, Written pool key data version →
        ∃ entry,
          pool.shared.storage.lookup key = some entry ∧
            version ≤ entry.version
  At pool activity :=
    activity.call.isWrite = true ∧
      ∀ key version,
        StorageCall.pendingWrite? activity.position = some (key, version) →
        ∀ entry, pool.shared.storage.lookup key = some entry →
          entry.version ≤ version

section

variable {source target : StoragePool} {label : StorageLabel}

/-- An insertion replaces no entry of a greater version. -/
theorem Inserts.le_of_holds {key : String} {before entry : ValueEntry}
    (inserts : Inserts source label target key entry)
    (holds : writeOrderOutline.Holds source)
    (found : source.shared.storage.lookup key = some before) :
    before.version ≤ entry.version := by
  obtain ⟨activity, moving, inserting⟩ := insertionAt?_eq_some.mp inserts.1
  exact (holds.mover moving).2 key entry.version
    (StorageCall.pendingWrite_of_insertion inserting) before found

/-- The version stored under a key does not decrease in a move. -/
theorem version_le_of_moves (holds : writeOrderOutline.Holds source)
    (moves : storageObject.Moves source label target) {key : String}
    {before : ValueEntry}
    (found : source.shared.storage.lookup key = some before) :
    ∃ after,
      target.shared.storage.lookup key = some after ∧
        before.version ≤ after.version := by
  rcases lookup_cases_of_writes moves (fun _ moving => (holds.mover moving).1) key with
    same | ⟨entry, inserts⟩
  · exact ⟨before, same.trans found, UInt64.le_refl _⟩
  · exact ⟨entry, inserts.lookup_eq, inserts.le_of_holds holds found⟩

theorem writeOrderOutline_sound :
    writeOrderOutline.Sound storageObject fun pool label =>
      WritesInOrder pool label ∧ counterOutline.Holds pool where
  inv := by
    intro source label target _ holds moves
    refine ⟨?_, ?_⟩
    · intro key entry found
      rcases lookup_cases_of_writes moves (fun _ moving => (holds.mover moving).1) key with
        same | ⟨inserted, inserts⟩
      · rw [same] at found
        exact (holds.1.1 key entry found).of_moves moves
      · rw [inserts.lookup_eq] at found
        cases found
        exact inserts.written moves
    · intro key data version written
      rcases written.cases_of_moves moves with before | ⟨entry, inserts, same⟩
      · obtain ⟨entry, found, below⟩ := holds.1.2 key data version before
        obtain ⟨later, foundLater, grows⟩ :=
          version_le_of_moves holds moves found
        exact ⟨later, foundLater, UInt64.le_trans below grows⟩
      · exact ⟨entry, inserts.lookup_eq, UInt64.le_of_eq same.symm⟩
  begins := by
    intro source thread call admitted _ _
    refine ⟨admitted.1.1, ?_⟩
    intro key version pending
    cases call <;> cases pending
  advances := by
    intro source thread activity shared position admitted holds running stepped
    obtain ⟨isWrite, below⟩ := holds.2 thread activity running
    refine ⟨isWrite, ?_⟩
    intro key version pending entry found
    obtain ⟨sameStore, origin⟩ :=
      StorageCall.pendingWrite_of_goOn stepped pending
    have foundBefore : source.shared.storage.lookup key = some entry := by
      rw [StorageEngine.lookup, ← sameStore]
      exact found
    rcases origin with pendingBefore | ⟨justDraws, isNext⟩ | passed
    · exact below key version pendingBefore entry foundBefore
    · have hasNext := admitted.1.2.1 activity running justDraws
      have bounded := admitted.2.1.1 key entry foundBefore
      rw [isNext]
      exact UInt64.le_of_lt
        (UInt64.lt_of_le_of_lt bounded
          (StorageEngine.lt_add_one_of_hasNextVersion hasNext))
    · exact UInt64.le_of_lt (passed entry foundBefore)
  stable := by
    intro source label target thread activity admitted holds moves running _
    obtain ⟨isWrite, below⟩ := holds.2 thread activity running
    refine ⟨isWrite, ?_⟩
    intro key version pending entry found
    rcases lookup_cases_of_writes moves (fun _ moving => (holds.mover moving).1) key with
      same | ⟨inserted, inserts⟩
    · rw [same] at found
      exact below key version pending entry found
    · rw [inserts.lookup_eq] at found
      cases found
      have all := admitted.1.2.2 (key, entry) inserts.1
      exact all.at running (key, version) pending rfl

end

theorem writeOrderOutline_of_reachable
    {world : World StoragePool StorageLabel}
    (reachable : storageSystem.Reachable WritesInOrder world) :
    writeOrderOutline.Holds world.state := by
  have draws : ∀ pool label, WritesInOrder pool label → DrawsExist pool label :=
    fun _ _ inOrder => inOrder.2.1
  have strengthened :=
    reachable.assuming counterOutline.Holds fun _ earlier =>
      counterOutline_of_reachable draws earlier
  refine writeOrderOutline_sound.reachable ?_ strengthened
  intro node atStart
  refine ⟨?_, ?_⟩
  · intro key entry found
    have absent : (Pool.idle node : StoragePool).shared.storage.lookup key =
        none := by
      show node.storage.lookup key = none
      rw [atStart]
      rfl
    rw [absent] at found
    cases found
  · intro key data version written
    rcases written with ⟨_, recorded, _⟩ | ⟨_, _, running, _⟩
    · cases recorded
    · cases running

/-- The last step did not decrease the version stored under any key. -/
def LastStepKeepsVersions (world : World StoragePool StorageLabel) : Prop :=
  ∀ source label rest,
    world.trace = (source, label) :: rest →
    ∀ key before,
      source.shared.storage.lookup key = some before →
      ∃ after,
        world.state.shared.storage.lookup key = some after ∧
          before.version ≤ after.version

/-- Once all calls have returned, the entry under a key is the applied write of
the greatest version. -/
def GreatestVersionStays (pool : StoragePool) : Prop :=
  pool.AtRest →
    ∀ record, record ∈ pool.returned →
      ∀ key data version,
        StorageCall.applied? record.call record.result =
          some (key, data, version) →
        ∃ entry winner,
          pool.shared.storage.lookup key = some entry ∧
            winner ∈ pool.returned ∧
            StorageCall.applied? winner.call winner.result =
              some (key, entry.data, entry.version) ∧
            version ≤ entry.version

/-- Threads that run `put` and `put_with_version`, none overtaken by a write of
a greater version on its key and none wrapping the counter: no step of the run
decreases a stored version, and the greatest one is left in the end. -/
theorem stored_versions_increase {world : World StoragePool StorageLabel}
    (reachable : storageSystem.Reachable WritesInOrder world) :
    LastStepKeepsVersions world ∧ GreatestVersionStays world.state := by
  refine ⟨?_, ?_⟩
  · intro source label rest lastStep key before found
    cases reachable with
    | start atStart => cases lastStep
    | next reached step =>
        obtain ⟨_, executed, pushed⟩ := step
        rw [pushed] at lastStep
        cases lastStep
        exact version_le_of_moves (writeOrderOutline_of_reachable reached)
          (ConcurrentObject.moves_of_exec executed) found
  · intro atRest record recorded key data version applied
    have holds := writeOrderOutline_of_reachable reachable
    obtain ⟨entry, found, below⟩ :=
      holds.1.2 key data version (Or.inl ⟨record, recorded, applied⟩)
    rcases holds.1.1 key entry found with
      ⟨winner, winnerRecorded, winnerApplied⟩ | ⟨thread, activity, running, _⟩
    · exact ⟨entry, winner, found, winnerRecorded, winnerApplied, below⟩
    · have member := AList.mem_lookup_iff.mp running
      rw [atRest] at member
      cases member

/-- The version of the entry stored under a key. -/
def storedVersion? (pool : StoragePool) (key : String) : Option UInt64 :=
  (pool.shared.storage.lookup key).map ValueEntry.version

/-- A `put` inserts its version between the `compare_exchange` and the check of
a `put_with_version`. -/
theorem stored_versions_increase_two_threads :
    ∃ world : World StoragePool StorageLabel,
      world.state.AtRest ∧
        storedVersion? world.state "k" = some 7 ∧
        LastStepKeepsVersions world ∧ GreatestVersionStays world.state := by
  obtain ⟨world, reachable, checked⟩ :=
    System.exists_reachable_of_replay storageSystem WritesInOrder
      (Pool.idle { storage := StorageEngine.new, now := 0 })
      [.call 0 (.put "k" [1] none),
        .call 1 (.putWithVersion "k" [2] 7 none),
        .run 0, .run 0, .run 1, .run 1, .run 0, .run 0,
        .run 1, .run 1, .run 1, .run 1]
      (fun pool label => decide (WritesInOrder pool label))
      (fun world =>
        decide
          (world.state.AtRest ∧ storedVersion? world.state "k" = some 7))
      ⟨_, rfl, rfl⟩
      (fun _ _ admitted => of_decide_eq_true admitted)
      (by decide +kernel)
  obtain ⟨atRest, stored⟩ := of_decide_eq_true checked
  exact ⟨world, atRest, stored, stored_versions_increase reachable⟩

/-- Two puts on one key: the first draws version 1, the second draws and inserts
version 2, and the first then inserts version 1. -/
theorem not_stored_versions_increase :
    ¬ ∀ world : World StoragePool StorageLabel,
      storageSystem.Reachable
        (fun pool label => callsWrite label = true ∧ DrawsExist pool label)
        world →
      LastStepKeepsVersions world ∧ GreatestVersionStays world.state := by
  intro increase
  obtain ⟨world, reachable, checked⟩ :=
    System.exists_reachable_of_replay storageSystem
      (fun pool label => callsWrite label = true ∧ DrawsExist pool label)
      (Pool.idle { storage := StorageEngine.new, now := 0 })
      [.call 0 (.put "k" [1] none), .call 1 (.put "k" [2] none),
        .run 0, .run 0, .run 1, .run 1, .run 1, .run 1, .run 0, .run 0]
      (fun pool label =>
        decide (callsWrite label = true ∧ DrawsExist pool label))
      (fun world =>
        decide
          ((world.trace.head?.bind fun step =>
              storedVersion? step.1 "k") = some 2 ∧
            storedVersion? world.state "k" = some 1))
      ⟨_, rfl, rfl⟩
      (fun _ _ admitted => of_decide_eq_true admitted)
      (by decide +kernel)
  obtain ⟨before, after⟩ := of_decide_eq_true checked
  obtain ⟨keeps, _⟩ := increase world reachable
  obtain ⟨⟨source, label⟩, last, storedBefore⟩ :=
    Option.bind_eq_some_iff.mp before
  obtain ⟨rest, trace⟩ := List.head?_eq_some_iff.mp last
  obtain ⟨entry, found, isTwo⟩ := Option.map_eq_some_iff.mp storedBefore
  obtain ⟨later, foundLater, grows⟩ :=
    keeps source label rest trace "k" entry found
  have isOne : later.version = 1 := by
    simpa [storedVersion?, foundLater] using after
  rw [isTwo, isOne] at grows
  exact absurd grows (by decide)

end HautePerformance.KvDistributed
