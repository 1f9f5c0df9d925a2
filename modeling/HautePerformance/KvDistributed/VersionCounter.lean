import HautePerformance.KvDistributed.StorageSteps

/-!
# The version counter under threads

While no `fetch_add` wraps, the counter stays at or above every version it has
been shown: the stored ones, those drawn by a `put` under way, and those that a
`put_with_version` has seen or raised it to.  Drawing a version goes beyond all
of them at once, which is why two puts never draw the same one and why a put
draws more than any write that had returned when it began.
-/

namespace HautePerformance.KvDistributed

open Library

namespace StorageCall

/-- The version up to which the counter is known to have gone when a thread
stands at a position. -/
def reached? {call : StorageCall} (position : Position call) :
    Option UInt64 :=
  match call, position with
  | .put _ _ _, .putNow version => some version
  | .put _ _ _, .putInsert version _ => some version
  | .putWithVersion _ _ _ _, .versionRaise cur => some cur
  | .putWithVersion _ _ version _, .versionCheck => some version
  | .putWithVersion _ _ version _, .versionNow => some version
  | .putWithVersion _ _ version _, .versionInsert _ => some version
  | .putWithVersion _ _ version _, .versionCount => some version
  | _, _ => none

/-- The version that a `put` under way has drawn. -/
def drawn? {call : StorageCall} (position : Position call) : Option UInt64 :=
  match call, position with
  | .put _ _ _, .putNow version => some version
  | .put _ _ _, .putInsert version _ => some version
  | _, _ => none

/-- The version that a returned `put` has drawn. -/
def drew? : (call : StorageCall) → call.Result → Option UInt64
  | .put _ _ _, version => some version
  | _, _ => none

/-- The version of a returned write, applied or not. -/
def wrote? : (call : StorageCall) → call.Result → Option UInt64
  | .put _ _ _, version => some version
  | .putWithVersion _ _ version _, _ => some version
  | _, _ => none

variable {call : StorageCall} {node after : NodeState}
variable {position next : Position call} {result : call.Result}
variable {version : UInt64}

theorem reached_of_drawn (drawn : drawn? position = some version) :
    reached? position = some version := by
  cases position with
  | putNow _ => exact drawn
  | putInsert _ _ => exact drawn
  | _ => cases drawn

theorem wrote_of_drew (drew : drew? call result = some version) :
    wrote? call result = some version := by
  cases call with
  | put _ _ _ => exact drew
  | _ => cases drew

/-- What a thread knows about the counter after a step it knew before, or it has
just read or set the counter. -/
theorem reached_of_goOn (stepped : step node position = (after, .goOn next))
    (reaches : reached? next = some version) :
    (∃ known, reached? position = some known ∧ version ≤ known) ∨
      version = after.storage.versionCounter := by
  cases position with
  | getRead =>
      simp only [step] at stepped
      split at stepped <;> cases stepped <;> cases reaches
  | getCheck entry =>
      simp only [step] at stepped
      split at stepped <;> cases stepped <;> cases reaches
  | putFetchAdd =>
      cases stepped
      cases reaches
      exact Or.inr rfl
  | putNow drawn =>
      cases stepped
      cases reaches
      exact Or.inl ⟨_, rfl, UInt64.le_refl _⟩
  | versionLoad =>
      cases stepped
      cases reaches
      exact Or.inr rfl
  | versionRaise cur =>
      simp only [step] at stepped
      split at stepped
      · split at stepped
        · cases stepped
          cases reaches
          exact Or.inr rfl
        · cases stepped
          cases reaches
          exact Or.inr rfl
      · rename_i notBelow
        cases stepped
        cases reaches
        exact Or.inl ⟨cur, rfl, UInt64.not_lt.mp notBelow⟩
  | versionCheck =>
      simp only [step] at stepped
      split at stepped
      · split at stepped
        · cases stepped
        · cases stepped
          cases reaches
          exact Or.inl ⟨_, rfl, UInt64.le_refl _⟩
      · cases stepped
        cases reaches
        exact Or.inl ⟨_, rfl, UInt64.le_refl _⟩
  | versionNow =>
      cases stepped
      cases reaches
      exact Or.inl ⟨_, rfl, UInt64.le_refl _⟩
  | versionInsert createdAt =>
      cases stepped
      cases reaches
      exact Or.inl ⟨_, rfl, UInt64.le_refl _⟩
  | purgeRemove keys count =>
      cases keys with
      | nil => cases stepped
      | cons key rest =>
          cases stepped
          cases reaches
  | _ => cases stepped <;> cases reaches

theorem reached_of_finish
    (stepped : step node position = (after, .finish result))
    (wrote : wrote? call result = some version) :
    reached? position = some version := by
  cases position with
  | putInsert drawn createdAt =>
      cases stepped
      exact wrote
  | versionCheck => exact wrote
  | versionCount => exact wrote
  | versionRaise cur =>
      simp only [step] at stepped
      split at stepped
      · split at stepped <;> cases stepped
      · cases stepped
  | putCount => cases stepped
  | putFetchAdd => cases stepped
  | putNow drawn => cases stepped
  | versionLoad => cases stepped
  | versionNow => cases stepped
  | versionInsert createdAt => cases stepped
  | _ => cases wrote

theorem drawn_of_goOn (stepped : step node position = (after, .goOn next))
    (drawn : drawn? next = some version) :
    drawn? position = some version ∨
      (draws position = true ∧ version = node.storage.versionCounter + 1) := by
  cases position with
  | putCount =>
      cases stepped
      cases drawn
  | putFetchAdd =>
      cases stepped
      cases drawn
      exact Or.inr ⟨rfl, rfl⟩
  | putNow version =>
      cases stepped
      exact Or.inl drawn
  | putInsert version createdAt => cases stepped
  | _ => cases next <;> cases drawn

theorem drawn_of_finish
    (stepped : step node position = (after, .finish result))
    (drew : drew? call result = some version) :
    drawn? position = some version := by
  cases position with
  | putInsert drawn createdAt =>
      cases stepped
      exact drew
  | putCount => cases stepped
  | putFetchAdd => cases stepped
  | putNow drawn => cases stepped
  | _ => cases drew

/-- What is inserted has a version that the counter has reached. -/
theorem reached_of_insertion {key : String} {entry : ValueEntry}
    (inserts : insertion? position = some (key, entry)) :
    reached? position = some entry.version := by
  cases position with
  | putInsert _ _ =>
      cases inserts
      rfl
  | versionInsert _ =>
      cases inserts
      rfl
  | _ => cases inserts

/-- The counter never goes down while `fetch_add` does not wrap. -/
theorem Touches.counter_le (touches : Touches node position after)
    (hasNext : draws position = true → node.storage.HasNextVersion) :
    node.storage.versionCounter ≤ after.storage.versionCounter := by
  cases touches with
  | nothing _ counter => exact UInt64.le_of_eq counter.symm
  | draw draws _ counter =>
      rw [counter]
      exact UInt64.le_of_lt
        (StorageEngine.lt_add_one_of_hasNextVersion (hasNext draws))
  | raise _ above => exact UInt64.le_of_lt above
  | insert _ inserted =>
      subst inserted
      exact UInt64.le_refl _
  | remove _ removed =>
      subst removed
      exact UInt64.le_refl _

/-- A step keeps the counter above the stored versions. -/
theorem Touches.coherent (touches : Touches node position after)
    (hasNext : draws position = true → node.storage.HasNextVersion)
    (known : ∀ version,
      reached? position = some version →
      version ≤ node.storage.versionCounter)
    (coherent : node.storage.Coherent) : after.storage.Coherent := by
  have notBelow := touches.counter_le hasNext
  have sameStore (store : after.storage.store = node.storage.store) :
      after.storage.Coherent := by
    refine coherent.of_fewer ?_ notBelow
    intro key entry found
    rwa [StorageEngine.lookup, store] at found
  cases touches with
  | nothing store _ => exact sameStore store
  | draw _ store _ => exact sameStore store
  | raise store _ => exact sameStore store
  | @insert key entry inserts inserted =>
      subst inserted
      intro other stored found
      by_cases same : other = key
      · subst same
        rw [NodeState.lookup_insert_self] at found
        cases found
        exact known entry.version (reached_of_insertion inserts)
      · rw [NodeState.lookup_insert_ne node entry same] at found
        exact coherent other stored found
  | @remove key _ removed =>
      subst removed
      refine coherent.of_fewer ?_ notBelow
      intro other stored found
      by_cases same : other = key
      · subst same
        rw [NodeState.lookup_remove_self] at found
        cases found
      · rwa [NodeState.lookup_remove_ne node same] at found

end StorageCall

/-- Every `fetch_add` finds a counter that has a next value. -/
def DrawsExist (pool : StoragePool) (label : StorageLabel) : Prop :=
  ∀ activity, activity ∈ pool.mover? label →
    StorageCall.draws activity.position = true →
    pool.shared.storage.HasNextVersion

instance (pool : StoragePool) (label : StorageLabel) :
    Decidable (DrawsExist pool label) :=
  inferInstanceAs (Decidable (∀ activity, activity ∈ pool.mover? label → _))

/-- The counter has reached every version it has been shown. -/
def counterOutline :
    Outline NodeState StorageCall.Position StorageCall.Result where
  Inv pool :=
    pool.shared.storage.Coherent ∧
      ∀ record, record ∈ pool.returned →
        ∀ version, StorageCall.wrote? record.call record.result = some version →
          version ≤ pool.shared.storage.versionCounter
  At pool activity :=
    ∀ version, StorageCall.reached? activity.position = some version →
      version ≤ pool.shared.storage.versionCounter

section

variable {source target : StoragePool} {label : StorageLabel}

theorem counter_le_of_moves (draws : DrawsExist source label)
    (moves : storageObject.Moves source label target) :
    source.shared.storage.versionCounter ≤
      target.shared.storage.versionCounter := by
  rcases storage_cases moves with same | ⟨activity, moving, touches⟩
  · exact UInt64.le_of_eq (by rw [same])
  · exact touches.counter_le (draws activity moving)

theorem counterOutline_sound :
    counterOutline.Sound storageObject DrawsExist where
  inv := by
    intro source label target draws holds moves
    have notBelow := counter_le_of_moves draws moves
    refine ⟨?_, ?_⟩
    · rcases storage_cases moves with same | ⟨activity, moving, touches⟩
      · rw [same]
        exact holds.1.1
      · exact touches.coherent (draws activity moving) (holds.mover moving)
          holds.1.1
    · intro record recorded version wrote
      rcases moves.returned_cases recorded with
        before | ⟨thread, activity, shared, result, _, running, stepped, _, rfl⟩
      · exact UInt64.le_trans (holds.1.2 record before version wrote) notBelow
      · have known :=
          holds.2 thread activity running version
            (StorageCall.reached_of_finish stepped wrote)
        exact UInt64.le_trans known notBelow
  begins := by
    intro source thread call _ _ _ version reaches
    cases call <;> cases reaches
  advances := by
    intro source thread activity shared position draws holds running stepped
      version reaches
    have notBelow :=
      counter_le_of_moves draws
        (ConcurrentObject.Moves.advance running stepped)
    rcases StorageCall.reached_of_goOn stepped reaches with
      ⟨known, reachedBefore, below⟩ | justSeen
    · have bounded := holds.2 thread activity running known reachedBefore
      exact UInt64.le_trans (UInt64.le_trans below bounded) notBelow
    · exact UInt64.le_of_eq justSeen
  stable := by
    intro source label target thread activity draws holds moves running _
      version reaches
    have bounded := holds.2 thread activity running version reaches
    exact UInt64.le_trans bounded (counter_le_of_moves draws moves)

end

theorem counterOutline_of_reachable {allowed : StoragePool → StorageLabel → Prop}
    (draws : ∀ pool label, allowed pool label → DrawsExist pool label)
    {world : World StoragePool StorageLabel}
    (reachable : storageSystem.Reachable allowed world) :
    counterOutline.Holds world.state := by
  refine counterOutline_sound.reachable ?_ (reachable.mono draws)
  intro node atStart
  refine ⟨?_, ?_⟩
  · show node.storage.Coherent
    rw [atStart]
    exact StorageEngine.coherent_new
  · intro record recorded
    cases recorded

/-! ## Distinct versions -/

/-- The version that a thread has drawn in the call it is in. -/
def drawnBy (pool : StoragePool) (thread : Nat) : Option UInt64 :=
  (pool.activity? thread).bind fun activity =>
    StorageCall.drawn? activity.position

/-- The versions that the puts have returned. -/
def putVersions (pool : StoragePool) : List UInt64 :=
  pool.returned.filterMap fun record =>
    StorageCall.drew? record.call record.result

/-- No version is drawn twice. -/
structure VersionsApart (pool : StoragePool) : Prop where
  nodup : (putVersions pool).Nodup
  notReturned : ∀ thread version,
    drawnBy pool thread = some version → version ∉ putVersions pool
  running : ∀ thread other version,
    drawnBy pool thread = some version →
    drawnBy pool other = some version →
    thread = other

section

variable {source target pool : StoragePool} {label : StorageLabel}
variable {thread : Nat} {version : UInt64}

theorem drawnBy_eq_some :
    drawnBy pool thread = some version ↔
      ∃ activity,
        pool.activity? thread = some activity ∧
          StorageCall.drawn? activity.position = some version := by
  simp [drawnBy, Option.bind_eq_some_iff]

theorem mem_putVersions :
    version ∈ putVersions pool ↔
      ∃ record,
        record ∈ pool.returned ∧
          StorageCall.drew? record.call record.result = some version := by
  simp [putVersions, List.mem_filterMap]

theorem drawnBy_le_counter (holds : counterOutline.Holds pool)
    (drawn : drawnBy pool thread = some version) :
    version ≤ pool.shared.storage.versionCounter := by
  obtain ⟨activity, running, drawn⟩ := drawnBy_eq_some.mp drawn
  exact holds.2 thread activity running version
    (StorageCall.reached_of_drawn drawn)

theorem putVersions_le_counter (holds : counterOutline.Holds pool)
    (returned : version ∈ putVersions pool) :
    version ≤ pool.shared.storage.versionCounter := by
  obtain ⟨record, recorded, drew⟩ := mem_putVersions.mp returned
  exact holds.1.2 record recorded version (StorageCall.wrote_of_drew drew)

/-- A version that a thread has drawn was drawn before, or it has just been
drawn and is new to the counter. -/
theorem drawnBy_cases (draws : DrawsExist source label)
    (moves : storageObject.Moves source label target)
    (drawn : drawnBy target thread = some version) :
    drawnBy source thread = some version ∨
      (label = .run thread ∧
        source.shared.storage.versionCounter < version) := by
  obtain ⟨activity, running, drawn⟩ := drawnBy_eq_some.mp drawn
  rcases moves.running_cases running with
    ⟨before, _⟩ | ⟨call, _, _, rfl⟩ |
      ⟨earlier, shared, position, rfl, active, stepped, _, rfl⟩
  · exact Or.inl (drawnBy_eq_some.mpr ⟨activity, before, drawn⟩)
  · cases call <;> cases drawn
  · rcases StorageCall.drawn_of_goOn stepped drawn with
      drawnBefore | ⟨justDraws, isNext⟩
    · exact Or.inl (drawnBy_eq_some.mpr ⟨earlier, active, drawnBefore⟩)
    · refine Or.inr ⟨rfl, ?_⟩
      rw [isNext]
      exact StorageEngine.lt_add_one_of_hasNextVersion
        (draws earlier active justDraws)

/-- The returned versions grow by the one that the returning thread had
drawn. -/
theorem putVersions_cases (moves : storageObject.Moves source label target) :
    putVersions target = putVersions source ∨
      ∃ thread version,
        drawnBy source thread = some version ∧
          drawnBy target thread = none ∧
          putVersions target = version :: putVersions source := by
  cases moves with
  | call _ => exact Or.inl rfl
  | advance _ _ => exact Or.inl rfl
  | @finish thread activity shared result running stepped =>
      cases drew : StorageCall.drew? activity.call result with
      | none =>
          refine Or.inl ?_
          simp [putVersions, Pool.finish, drew]
      | some version =>
          refine Or.inr ⟨thread, version, ?_, ?_, ?_⟩
          · exact drawnBy_eq_some.mpr
              ⟨activity, running, StorageCall.drawn_of_finish stepped drew⟩
          · simp [drawnBy, Pool.activity?, Pool.finish]
          · simp [putVersions, Pool.finish, drew]
  | environment => exact Or.inl rfl

theorem VersionsApart.of_moves (apart : VersionsApart source)
    (holds : counterOutline.Holds source) (draws : DrawsExist source label)
    (moves : storageObject.Moves source label target) :
    VersionsApart target where
  nodup := by
    rcases putVersions_cases moves with
      same | ⟨thread, version, drawn, _, grown⟩
    · rw [same]
      exact apart.nodup
    · rw [grown, List.nodup_cons]
      exact ⟨apart.notReturned thread version drawn, apart.nodup⟩
  notReturned := by
    intro thread version drawn returned
    rcases drawnBy_cases draws moves drawn with before | ⟨_, isNew⟩
    · rcases putVersions_cases moves with
        same | ⟨other, last, otherDrawn, ended, grown⟩
      · rw [same] at returned
        exact apart.notReturned thread version before returned
      · rw [grown] at returned
        rcases List.mem_cons.mp returned with isLast | earlier
        · subst isLast
          have sameThread := apart.running thread other version before otherDrawn
          subst sameThread
          rw [ended] at drawn
          cases drawn
        · exact apart.notReturned thread version before earlier
    · have bounded : version ≤ source.shared.storage.versionCounter := by
        rcases putVersions_cases moves with
          same | ⟨other, last, otherDrawn, _, grown⟩
        · rw [same] at returned
          exact putVersions_le_counter holds returned
        · rw [grown] at returned
          rcases List.mem_cons.mp returned with isLast | earlier
          · rw [isLast]
            exact drawnBy_le_counter holds otherDrawn
          · exact putVersions_le_counter holds earlier
      exact UInt64.lt_irrefl _ (UInt64.lt_of_lt_of_le isNew bounded)
  running := by
    intro thread other version drawn otherDrawn
    rcases drawnBy_cases draws moves drawn with before | ⟨isMover, isNew⟩
    · rcases drawnBy_cases draws moves otherDrawn with
        otherBefore | ⟨_, otherIsNew⟩
      · exact apart.running thread other version before otherBefore
      · have bounded := drawnBy_le_counter holds before
        exact absurd (UInt64.lt_of_lt_of_le otherIsNew bounded)
          (UInt64.lt_irrefl _)
    · rcases drawnBy_cases draws moves otherDrawn with
        otherBefore | ⟨otherIsMover, _⟩
      · have bounded := drawnBy_le_counter holds otherBefore
        exact absurd (UInt64.lt_of_lt_of_le isNew bounded)
          (UInt64.lt_irrefl _)
      · rw [isMover] at otherIsMover
        cases otherIsMover
        rfl

end

theorem versionsApart_of_reachable {allowed : StoragePool → StorageLabel → Prop}
    (draws : ∀ pool label, allowed pool label → DrawsExist pool label)
    {world : World StoragePool StorageLabel}
    (reachable : storageSystem.Reachable allowed world) :
    VersionsApart world.state := by
  have strengthened :=
    reachable.assuming counterOutline.Holds fun _ earlier =>
      counterOutline_of_reachable draws earlier
  refine strengthened.state_invariant VersionsApart ?_ ?_
  · intro pool atStart
    obtain ⟨node, _, rfl⟩ := atStart
    refine ⟨List.nodup_nil, ?_, ?_⟩
    · intro thread version drawn
      cases drawn
    · intro thread other version drawn
      cases drawn
  · intro label source target apart admitted executed
    exact apart.of_moves admitted.2 (draws source label admitted.1)
      (ConcurrentObject.moves_of_exec executed)

/-! ## Versions in real time -/

/-- A put draws a greater version than any write that had returned when it
began. -/
def realTimeOutline :
    Outline NodeState StorageCall.Position StorageCall.Result where
  Inv pool :=
    ∀ earlier, earlier ∈ pool.returned →
      ∀ later, later ∈ pool.returned →
        earlier.ended ≤ later.began →
        ∀ written drawn,
          StorageCall.wrote? earlier.call earlier.result = some written →
          StorageCall.drew? later.call later.result = some drawn →
          written < drawn
  At pool activity :=
    ∀ earlier, earlier ∈ pool.returned →
      earlier.ended ≤ activity.began →
      ∀ written drawn,
        StorageCall.wrote? earlier.call earlier.result = some written →
        StorageCall.drawn? activity.position = some drawn →
        written < drawn

theorem realTimeOutline_sound :
    realTimeOutline.Sound storageObject fun pool label =>
      DrawsExist pool label ∧
        counterOutline.Holds pool ∧ Outline.times.Holds pool where
  inv := by
    intro source label target admitted holds moves earlier earlierRecorded
      later laterRecorded order written drawn wrote drew
    obtain ⟨_, _, times⟩ := admitted
    rcases moves.returned_cases laterRecorded with
      laterBefore | ⟨thread, activity, shared, result, _, running, stepped, _, rfl⟩
    · rcases moves.returned_cases earlierRecorded with
        earlierBefore | ⟨_, _, _, _, _, _, _, _, rfl⟩
      · exact holds.1 earlier earlierBefore later laterBefore order written
          drawn wrote drew
      · have bounds := times.1 later laterBefore
        have order : source.steps + 1 ≤ later.began := order
        omega
    · have started : activity.began < source.steps :=
        times.2 thread activity running
      rcases moves.returned_cases earlierRecorded with
        earlierBefore | ⟨_, _, _, _, _, _, _, _, rfl⟩
      · exact holds.2 thread activity running earlier earlierBefore order
          written drawn wrote (StorageCall.drawn_of_finish stepped drew)
      · have order : source.steps + 1 ≤ activity.began := order
        omega
  begins := by
    intro source thread call _ _ _ earlier _ _ written drawn _ drawnAtEntry
    cases call <;> cases drawnAtEntry
  advances := by
    intro source thread activity shared position admitted holds running stepped
      earlier recorded order written drawn wrote isDrawn
    obtain ⟨draws, counter, _⟩ := admitted
    rcases StorageCall.drawn_of_goOn stepped isDrawn with
      drawnBefore | ⟨justDraws, isNext⟩
    · exact holds.2 thread activity running earlier recorded order written
        drawn wrote drawnBefore
    · have bounded := counter.1.2 earlier recorded written wrote
      have above :=
        StorageEngine.lt_add_one_of_hasNextVersion
          (draws activity running justDraws)
      rw [isNext]
      exact UInt64.lt_of_le_of_lt bounded above
  stable := by
    intro source label target thread activity admitted holds moves running _
      earlier recorded order written drawn wrote isDrawn
    obtain ⟨_, _, times⟩ := admitted
    have started : activity.began < source.steps :=
      times.2 thread activity running
    rcases moves.returned_cases recorded with
      before | ⟨_, _, _, _, _, _, _, _, rfl⟩
    · exact holds.2 thread activity running earlier before order written drawn
        wrote isDrawn
    · have order : source.steps + 1 ≤ activity.began := order
      omega

theorem realTimeOutline_of_reachable
    {allowed : StoragePool → StorageLabel → Prop}
    (draws : ∀ pool label, allowed pool label → DrawsExist pool label)
    {world : World StoragePool StorageLabel}
    (reachable : storageSystem.Reachable allowed world) :
    realTimeOutline.Holds world.state := by
  have strengthened :=
    reachable.assuming
      (fun pool => counterOutline.Holds pool ∧ Outline.times.Holds pool)
      fun _ reached =>
        ⟨counterOutline_of_reachable draws reached,
          Outline.times_of_reachable reached⟩
  refine realTimeOutline_sound.reachable ?_ (strengthened.mono ?_)
  · intro node _ earlier recorded
    cases recorded
  · intro pool label both
    exact ⟨draws pool label both.1, both.2⟩

/-- The version counter, while no `fetch_add` finds it at its maximum: it is
never below a stored version, puts return distinct versions, and a put returns
more than the version of any write that had returned when it began. -/
theorem version_counter_ordered {world : World StoragePool StorageLabel}
    (reachable : storageSystem.Reachable DrawsExist world) :
    world.state.shared.storage.Coherent ∧
      (putVersions world.state).Nodup ∧
      ∀ earlier, earlier ∈ world.state.returned →
        ∀ later, later ∈ world.state.returned →
          earlier.ended ≤ later.began →
          ∀ written drawn,
            StorageCall.wrote? earlier.call earlier.result = some written →
            StorageCall.drew? later.call later.result = some drawn →
            written < drawn := by
  have draws : ∀ pool label, DrawsExist pool label → DrawsExist pool label :=
    fun _ _ allowed => allowed
  exact ⟨(counterOutline_of_reachable draws reachable).1.1,
    (versionsApart_of_reachable draws reachable).nodup,
    (realTimeOutline_of_reachable draws reachable).1⟩

/-- A `put` and a `put_with_version` whose `compare_exchange` fails once, then a
second `put`. -/
theorem version_counter_ordered_two_threads :
    ∃ world : World StoragePool StorageLabel,
      putVersions world.state = [8, 1] ∧
        world.state.shared.storage.Coherent ∧
        (putVersions world.state).Nodup ∧
        ∀ earlier, earlier ∈ world.state.returned →
          ∀ later, later ∈ world.state.returned →
            earlier.ended ≤ later.began →
            ∀ written drawn,
              StorageCall.wrote? earlier.call earlier.result =
                some written →
              StorageCall.drew? later.call later.result = some drawn →
              written < drawn := by
  obtain ⟨world, reachable, checked⟩ :=
    System.exists_reachable_of_replay storageSystem DrawsExist
      (Pool.idle { storage := StorageEngine.new, now := 0 })
      [.call 0 (.put "k" [1] none),
        .call 1 (.putWithVersion "k" [2] 7 none),
        .run 0, .run 1, .run 0, .run 1, .run 1, .run 0, .run 0,
        .run 1, .run 1, .run 1, .run 1,
        .call 0 (.put "k" [3] none),
        .run 0, .run 0, .run 0, .run 0]
      (fun pool label => decide (DrawsExist pool label))
      (fun world => decide (putVersions world.state = [8, 1]))
      ⟨_, rfl, rfl⟩
      (fun _ _ admitted => of_decide_eq_true admitted)
      (by decide +kernel)
  exact ⟨world, of_decide_eq_true checked, version_counter_ordered reachable⟩

end HautePerformance.KvDistributed
