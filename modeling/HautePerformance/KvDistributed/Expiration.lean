import HautePerformance.KvDistributed.StorageSteps

/-!
# Expiration under concurrent writers

`get` and `purge_expired` decide on the entry they have seen and later remove by
key.  An entry that a writer inserts in between is removed in its place, expired
or not.  When nothing comes in between, only expired entries are removed, and an
entry that is neither expired nor overwritten is found by every later `get`.
-/

namespace HautePerformance.KvDistributed

open Library

namespace StorageCall

def isDelete : StorageCall → Bool
  | .delete _ => true
  | _ => false

/-- The entry that a `get` has read and not yet examined. -/
def unexamined? {call : StorageCall} (position : Position call) :
    Option (String × ValueEntry) :=
  match call, position with
  | .get key, .getCheck entry => some (key, entry)
  | _, _ => none

/-- The keys that a call has found expired and is going to remove. -/
def pendingRemovals {call : StorageCall} (position : Position call) :
    List String :=
  match call, position with
  | .get key, .getRemove => [key]
  | .purgeExpired, .purgeRemove keys _ => keys
  | _, _ => []

/-- What a `get` is going to return, as far as it knows. -/
def reading? {call : StorageCall} (position : Position call) :
    Option (String × Option ValueEntry) :=
  match call, position with
  | .get key, .getCheck entry => some (key, some entry)
  | .get key, .getCountHit entry => some (key, some entry)
  | .get key, .getRemove => some (key, none)
  | .get key, .getCountExpired => some (key, none)
  | .get key, .getCountMiss => some (key, none)
  | _, _ => none

/-- What a `get` has returned. -/
def gotten? : (call : StorageCall) → call.Result →
    Option (String × Option ValueEntry)
  | .get key, entry => some (key, entry)
  | _, _ => none

variable {call : StorageCall} {node after : NodeState}
variable {position next : Position call} {result : call.Result}
variable {key : String}

/-- Apart from `delete`, a call removes only the keys it found expired. -/
theorem mem_pendingRemovals_of_removal (notDelete : call.isDelete = false)
    (removes : removal? position = some key) :
    key ∈ pendingRemovals position := by
  cases position with
  | getRemove =>
      cases removes
      exact List.mem_singleton_self _
  | deleteRemove => cases notDelete
  | purgeRemove keys count =>
      cases keys with
      | nil => cases removes
      | cons head rest =>
          cases removes
          exact List.mem_cons_self
  | _ => cases removes

/-- A key comes to be removed when a `get` finds its entry expired, or a purge
meets it. -/
theorem pendingRemovals_of_goOn
    (stepped : step node position = (after, .goOn next))
    (pending : key ∈ pendingRemovals next) :
    key ∈ pendingRemovals position ∨
      (∃ entry,
        unexamined? position = some (key, entry) ∧
          entry.isExpired node.now = true ∧ after = node) ∨
      (key ∈ node.storage.expiredKeys node.now ∧ after = node) := by
  cases position with
  | getCheck entry =>
      simp only [step] at stepped
      split at stepped
      · rename_i expired
        cases stepped
        rw [List.mem_singleton.mp pending]
        exact Or.inr (Or.inl ⟨entry, rfl, expired, rfl⟩)
      · cases stepped
        cases pending
  | getRead =>
      simp only [step] at stepped
      split at stepped <;> cases stepped <;> cases pending
  | purgeIterate =>
      cases stepped
      exact Or.inr (Or.inr ⟨pending, rfl⟩)
  | purgeRemove keys count =>
      cases keys with
      | nil => cases stepped
      | cons head rest =>
          cases stepped
          exact Or.inl (List.mem_cons_of_mem head pending)
  | getCount =>
      cases stepped
      cases pending
  | getRemove =>
      cases stepped
      cases pending
  | getCountExpired =>
      cases stepped
      cases pending
  | getCountMiss => cases stepped
  | getCountHit entry => cases stepped
  | _ => cases next <;> cases pending

/-- A `get` learns what it returns by reading the map and by examining the entry
it has read. -/
theorem reading_of_goOn {value : Option ValueEntry}
    (stepped : step node position = (after, .goOn next))
    (reads : reading? next = some (key, value)) :
    reading? position = some (key, value) ∨
      node.storage.lookup key = value ∨
      ∃ entry,
        reading? position = some (key, some entry) ∧
          entry.isExpired node.now = true := by
  cases position with
  | getCount =>
      cases stepped
      cases reads
  | getRead =>
      simp only [step] at stepped
      split at stepped
      · rename_i entry found
        cases stepped
        cases reads
        exact Or.inr (Or.inl found)
      · rename_i absent
        cases stepped
        cases reads
        exact Or.inr (Or.inl absent)
  | getCheck entry =>
      simp only [step] at stepped
      split at stepped
      · rename_i expired
        cases stepped
        cases reads
        exact Or.inr (Or.inr ⟨entry, rfl, expired⟩)
      · cases stepped
        exact Or.inl reads
  | getRemove =>
      cases stepped
      exact Or.inl reads
  | getCountExpired =>
      cases stepped
      exact Or.inl reads
  | getCountMiss => cases stepped
  | getCountHit entry => cases stepped
  | _ => cases next <;> cases reads

theorem reading_of_finish {value : Option ValueEntry}
    (stepped : step node position = (after, .finish result))
    (got : gotten? call result = some (key, value)) :
    reading? position = some (key, value) := by
  cases position with
  | getCount => cases stepped
  | getRead =>
      simp only [step] at stepped
      split at stepped <;> cases stepped
  | getCheck entry =>
      simp only [step] at stepped
      split at stepped <;> cases stepped
  | getRemove => cases stepped
  | getCountExpired => cases stepped
  | getCountMiss =>
      cases stepped
      exact got
  | getCountHit entry =>
      cases stepped
      exact got
  | _ => cases got

end StorageCall

/-- `delete` is not called. -/
def callsNoDelete : StorageLabel → Bool
  | .call _ call => !call.isDelete
  | _ => true

/-- Nothing comes between seeing an entry expired and removing its key: no entry
is inserted under a key that is going to be removed, and when a `get` finds the
entry it has read expired, that entry has not been replaced. -/
def DecisionsStand (pool : StoragePool) (label : StorageLabel) : Prop :=
  (∀ insertion, insertion ∈ insertionAt? pool label →
    pool.All fun other =>
      insertion.1 ∉ StorageCall.pendingRemovals other.position) ∧
    ∀ activity, activity ∈ pool.mover? label →
      ∀ read, read ∈ StorageCall.unexamined? activity.position →
        read.2.isExpired pool.shared.now = true →
        ∀ current, current ∈ pool.shared.storage.lookup read.1 →
          current = read.2

instance (pool : StoragePool) (label : StorageLabel) :
    Decidable (DecisionsStand pool label) :=
  inferInstanceAs (Decidable
    ((∀ insertion, insertion ∈ insertionAt? pool label → _) ∧
      ∀ activity, activity ∈ pool.mover? label →
        ∀ read, read ∈ StorageCall.unexamined? activity.position →
          _ → ∀ current, current ∈ pool.shared.storage.lookup read.1 → _))

/-- Runs without `delete` in which every decision to remove still stands when it
is carried out. -/
def ExpiresInOrder (pool : StoragePool) (label : StorageLabel) : Prop :=
  callsNoDelete label = true ∧ DecisionsStand pool label

instance (pool : StoragePool) (label : StorageLabel) :
    Decidable (ExpiresInOrder pool label) :=
  inferInstanceAs (Decidable (_ ∧ _))

/-! ## Removals -/

/-- What is going to be removed has expired. -/
def removalOutline :
    Outline NodeState StorageCall.Position StorageCall.Result where
  Inv _ := True
  At pool activity :=
    activity.call.isDelete = false ∧
      ∀ key, key ∈ StorageCall.pendingRemovals activity.position →
        ∀ entry, pool.shared.storage.lookup key = some entry →
          entry.isExpired pool.shared.now = true

section

variable {source target : StoragePool} {label : StorageLabel}

/-- A removed entry has expired. -/
theorem expired_of_removal (holds : removalOutline.Holds source)
    {activity : StorageActivity}
    (moving : source.mover? label = some activity) {key : String}
    (removing : StorageCall.removal? activity.position = some key)
    {entry : ValueEntry}
    (found : source.shared.storage.lookup key = some entry) :
    entry.isExpired source.shared.now = true := by
  obtain ⟨notDelete, expired⟩ := holds.mover moving
  exact expired key
    (StorageCall.mem_pendingRemovals_of_removal notDelete removing) entry found

/-- A key that was going to be removed before a move still has no live entry
after it. -/
theorem pending_expired_of_moves (stand : DecisionsStand source label)
    (holds : removalOutline.Holds source)
    (moves : storageObject.Moves source label target) {thread : Nat}
    {activity : StorageActivity}
    (running : source.activity? thread = some activity) {key : String}
    (pending : key ∈ StorageCall.pendingRemovals activity.position)
    {entry : ValueEntry}
    (found : target.shared.storage.lookup key = some entry) :
    entry.isExpired target.shared.now = true := by
  rcases lookup_cases moves key with
    same | ⟨inserted, inserting, _, _⟩ | ⟨_, _, _, removed⟩
  · rw [same] at found
    have expired := (holds.2 thread activity running).2 key pending entry found
    exact ValueEntry.isExpired_mono (now_le_of_moves moves) expired
  · have notPending := (stand.1 (key, inserted) inserting).at running
    exact absurd pending notPending
  · rw [removed] at found
    cases found

theorem removalOutline_sound :
    removalOutline.Sound storageObject ExpiresInOrder where
  inv := fun _ _ _ => trivial
  begins := by
    intro source thread call admitted _ _
    refine ⟨by simpa [callsNoDelete] using admitted.1, ?_⟩
    intro key pending
    cases call <;> cases pending
  advances := by
    intro source thread activity shared position admitted holds running stepped
    have moves := ConcurrentObject.Moves.advance running stepped
    refine ⟨(holds.2 thread activity running).1, ?_⟩
    intro key pending entry found
    rcases StorageCall.pendingRemovals_of_goOn stepped pending with
      before | ⟨read, unexamined, readExpired, same⟩ | ⟨expiredKey, same⟩
    · exact pending_expired_of_moves admitted.2 holds moves running before found
    · have current : entry = read := by
        refine admitted.2.2 activity running (key, read) unexamined readExpired
          entry ?_
        rw [← same]
        exact found
      rw [current]
      exact ValueEntry.isExpired_mono (now_le_of_moves moves) readExpired
    · obtain ⟨stored, foundStored, expired⟩ :=
        StorageEngine.mem_expiredKeys.mp expiredKey
      rw [← same] at foundStored
      have sameEntry := foundStored.symm.trans found
      cases sameEntry
      exact ValueEntry.isExpired_mono (now_le_of_moves moves) expired
  stable := by
    intro source label target thread activity admitted holds moves running _
    refine ⟨(holds.2 thread activity running).1, ?_⟩
    intro key pending entry found
    exact pending_expired_of_moves admitted.2 holds moves running pending found

end

theorem removalOutline_of_reachable {world : World StoragePool StorageLabel}
    (reachable : storageSystem.Reachable ExpiresInOrder world) :
    removalOutline.Holds world.state :=
  removalOutline_sound.reachable (fun _ _ => trivial) reachable

/-! ## Entries that stay -/

/-- An entry was inserted under a key at step `since` and not replaced: while it
is not expired it is there, and a `get` that began later has it or will. -/
def entryOutline (key : String) (entry : ValueEntry) (since : Nat) :
    Outline NodeState StorageCall.Position StorageCall.Result where
  Inv pool :=
    entry.isExpired pool.shared.now = false →
      pool.shared.storage.lookup key = some entry ∧
        ∀ record, record ∈ pool.returned → since < record.began →
          ∀ value,
            StorageCall.gotten? record.call record.result = some (key, value) →
            value = some entry
  At pool activity :=
    entry.isExpired pool.shared.now = false →
      since < activity.began →
      ∀ value,
        StorageCall.reading? activity.position = some (key, value) →
        value = some entry

section

variable {key : String} {entry : ValueEntry} {since : Nat}

/-- An entry that is live after a move was live before it. -/
theorem live_before {source target : StoragePool} {label : StorageLabel}
    (moves : storageObject.Moves source label target)
    (live : entry.isExpired target.shared.now = false) :
    entry.isExpired source.shared.now = false := by
  cases expired : entry.isExpired source.shared.now with
  | false => rfl
  | true =>
      have later := ValueEntry.isExpired_mono (now_le_of_moves moves) expired
      rw [live] at later
      cases later

theorem entryOutline_sound :
    (entryOutline key entry since).Sound storageObject fun pool label =>
      removalOutline.Holds pool ∧
        ∀ other, insertionAt? pool label ≠ some (key, other) where
  inv := by
    intro source label target admitted holds moves live
    have liveBefore := live_before moves live
    obtain ⟨stored, returned⟩ := holds.1 liveBefore
    refine ⟨?_, ?_⟩
    · rcases lookup_cases moves key with
        same | ⟨other, inserting, _, _⟩ | ⟨activity, moving, removing, _⟩
      · rw [same]
        exact stored
      · exact absurd inserting (admitted.2 other)
      · have expired := expired_of_removal admitted.1 moving removing stored
        rw [liveBefore] at expired
        cases expired
    · intro record recorded later value got
      rcases moves.returned_cases recorded with
        before | ⟨thread, activity, shared, result, _, running, stepped, _, rfl⟩
      · exact returned record before later value got
      · exact holds.2 thread activity running liveBefore later value
          (StorageCall.reading_of_finish stepped got)
  begins := by
    intro source thread call _ _ _ _ _ value reads
    cases call <;> cases reads
  advances := by
    intro source thread activity shared position admitted holds running stepped
      live later value reads
    have liveBefore :=
      live_before (ConcurrentObject.Moves.advance running stepped) live
    have knows := holds.2 thread activity running liveBefore later
    rcases StorageCall.reading_of_goOn stepped reads with
      readBefore | found | ⟨read, readBefore, expired⟩
    · exact knows value readBefore
    · rw [← found]
      exact (holds.1 liveBefore).1
    · have same := knows (some read) readBefore
      cases same
      rw [liveBefore] at expired
      cases expired
  stable := by
    intro source label target thread activity _ holds moves running _ live later
    exact holds.2 thread activity running (live_before moves live) later

end

/-- An entry that the last step removed had expired. -/
def LastStepRemovesExpired (world : World StoragePool StorageLabel) : Prop :=
  ∀ source label rest,
    world.trace = (source, label) :: rest →
    ∀ key entry,
      source.shared.storage.lookup key = some entry →
      world.state.shared.storage.lookup key = none →
      entry.isExpired source.shared.now = true

/-- Every `get` that began after an entry was inserted has returned it, if the
entry is not expired and was not overwritten. -/
def LiveEntriesFound (world : World StoragePool StorageLabel) : Prop :=
  ∀ recent source label older key entry,
    world.trace = recent ++ (source, label) :: older →
    insertionAt? source label = some (key, entry) →
    (∀ step, step ∈ recent →
      ∀ other, insertionAt? step.1 step.2 ≠ some (key, other)) →
    entry.isExpired world.state.shared.now = false →
    ∀ record, record ∈ world.state.returned →
      source.steps < record.began →
      ∀ value,
        StorageCall.gotten? record.call record.result = some (key, value) →
        value = some entry

/-- The outline of an entry holds when the entry has just been inserted: no
later call has begun yet. -/
theorem entryOutline_of_insertion {source target : StoragePool}
    {label : StorageLabel} {key : String} {entry : ValueEntry}
    (moves : storageObject.Moves source label target)
    (times : Outline.times.Holds target)
    (inserting : insertionAt? source label = some (key, entry)) :
    (entryOutline key entry source.steps).Holds target := by
  have steps := moves.steps_eq
  refine ⟨?_, ?_⟩
  · intro _
    refine ⟨?_, ?_⟩
    · rw [shared_of_insertionAt moves inserting]
      exact NodeState.lookup_insert_self source.shared entry
    · intro record recorded later
      have bounds := times.1 record recorded
      omega
  · intro thread activity running _ later
    have started : activity.began < target.steps :=
      times.2 thread activity running
    omega

/-- The outline of an entry holds from its insertion until it is overwritten. -/
theorem entryOutline_of_reachable {world : World StoragePool StorageLabel}
    (reachable : storageSystem.Reachable ExpiresInOrder world) :
    ∀ recent source label older key entry,
      world.trace = recent ++ (source, label) :: older →
      insertionAt? source label = some (key, entry) →
      (∀ step, step ∈ recent →
        ∀ other, insertionAt? step.1 step.2 ≠ some (key, other)) →
      (entryOutline key entry source.steps).Holds world.state := by
  induction reachable with
  | start _ =>
      intro recent source label older key entry trace
      cases recent <;> cases trace
  | @next before after label reached step inductionHypothesis =>
      intro recent source inserter older key entry trace inserting notAfter
      have moves := ConcurrentObject.moves_of_exec step.2.1
      rw [step.2.2] at trace
      cases recent with
      | nil =>
          obtain ⟨same, _⟩ := List.cons.inj trace
          cases same
          exact entryOutline_of_insertion moves
            (Outline.times_of_reachable (reached.next step)) inserting
      | cons last earlier =>
          obtain ⟨same, tail⟩ := List.cons.inj trace
          have holds :=
            inductionHypothesis earlier source inserter older key entry tail
              inserting
              (fun step member => notAfter step (List.mem_cons_of_mem _ member))
          have notNow := notAfter last List.mem_cons_self
          rw [← same] at notNow
          exact entryOutline_sound.preserved
            ⟨removalOutline_of_reachable reached, notNow⟩ holds moves

/-- Runs without `delete` in which no decision to remove is overtaken by a
writer: only expired entries are removed, and an entry that is neither expired
nor overwritten is found by every later `get`. -/
theorem expiration_spares_live_entries
    {world : World StoragePool StorageLabel}
    (reachable : storageSystem.Reachable ExpiresInOrder world) :
    LastStepRemovesExpired world ∧ LiveEntriesFound world := by
  refine ⟨?_, ?_⟩
  · intro source label rest lastStep key entry stored removed
    cases reachable with
    | start _ => cases lastStep
    | next reached step =>
        have holds := removalOutline_of_reachable reached
        rw [step.2.2] at lastStep
        cases lastStep
        rcases lookup_cases (ConcurrentObject.moves_of_exec step.2.1) key with
          same | ⟨inserted, _, _, isThere⟩ | ⟨activity, moving, removing, _⟩
        · rw [removed, stored] at same
          cases same
        · rw [removed] at isThere
          cases isThere
        · exact expired_of_removal holds moving removing stored
  · intro recent source label older key entry trace inserting notAfter live
      record recorded later value got
    have holds :=
      entryOutline_of_reachable reachable recent source label older key entry
        trace inserting notAfter
    exact (holds.1 live).2 record recorded later value got

/-- A `get` finds a live entry, and a purge then removes an expired one. -/
theorem expiration_spares_live_entries_two_keys :
    ∃ world : World StoragePool StorageLabel,
      (world.trace.head?.any fun step =>
          (step.1.shared.storage.lookup "a").isSome) = true ∧
        world.state.shared.storage.lookup "a" = none ∧
        (world.state.returned.map fun record =>
            StorageCall.gotten? record.call record.result) =
          [some ("b", some
            { data := [2], version := 2, createdAt := 0, ttl := none }),
            none, none] ∧
        LastStepRemovesExpired world ∧ LiveEntriesFound world := by
  obtain ⟨world, reachable, checked⟩ :=
    System.exists_reachable_of_replay storageSystem ExpiresInOrder
      (Pool.idle { storage := StorageEngine.new, now := 0 })
      [.call 0 (.put "a" [1] (some 1)), .run 0, .run 0, .run 0, .run 0,
        .call 0 (.put "b" [2] none), .run 0, .run 0, .run 0, .run 0,
        .environment 5,
        .call 0 (.get "b"), .run 0, .run 0, .run 0, .run 0,
        .call 1 .purgeExpired, .run 1, .run 1]
      (fun pool label => decide (ExpiresInOrder pool label))
      (fun world =>
        decide
          ((world.trace.head?.any fun step =>
              (step.1.shared.storage.lookup "a").isSome) = true ∧
            world.state.shared.storage.lookup "a" = none ∧
            (world.state.returned.map fun record =>
                StorageCall.gotten? record.call record.result) =
              [some ("b", some
                { data := [2], version := 2, createdAt := 0, ttl := none }),
                none, none]))
      ⟨_, rfl, rfl⟩
      (fun _ _ admitted => of_decide_eq_true admitted)
      (by decide +kernel)
  obtain ⟨wasThere, removed, got⟩ := of_decide_eq_true checked
  exact ⟨world, wasThere, removed, got,
    expiration_spares_live_entries reachable⟩

/-- A `get` finds an entry expired, a `put` inserts a new entry without TTL under
the key and returns, and the `get` then removes that entry. -/
theorem not_expiration_spares_live_entries :
    ¬ ∀ world : World StoragePool StorageLabel,
      storageSystem.Reachable (fun _ label => callsNoDelete label = true)
        world →
      LastStepRemovesExpired world ∧ LiveEntriesFound world := by
  intro spares
  obtain ⟨world, reachable, checked⟩ :=
    System.exists_reachable_of_replay storageSystem
      (fun _ label => callsNoDelete label = true)
      (Pool.idle { storage := StorageEngine.new, now := 0 })
      [.call 0 (.put "k" [1] (some 1)), .run 0, .run 0, .run 0, .run 0,
        .environment 2,
        .call 0 (.get "k"), .run 0, .run 0, .run 0,
        .call 1 (.put "k" [2] none), .run 1, .run 1, .run 1, .run 1,
        .run 0]
      (fun _ label => callsNoDelete label)
      (fun world =>
        decide
          ((world.trace.head?.bind fun step =>
              step.1.shared.storage.lookup "k") =
            some { data := [2], version := 2, createdAt := 2, ttl := none } ∧
            world.state.shared.storage.lookup "k" = none))
      ⟨_, rfl, rfl⟩ (fun _ _ admitted => admitted) (by decide +kernel)
  obtain ⟨before, removed⟩ := of_decide_eq_true checked
  obtain ⟨onlyExpired, _⟩ := spares world reachable
  obtain ⟨⟨source, label⟩, last, stored⟩ := Option.bind_eq_some_iff.mp before
  obtain ⟨rest, trace⟩ := List.head?_eq_some_iff.mp last
  have expired := onlyExpired source label rest trace "k" _ stored removed
  rw [ValueEntry.isExpired_of_no_ttl rfl] at expired
  cases expired

end HautePerformance.KvDistributed
