import HautePerformance.KvDistributed.StatsSnapshots

/-!
# What a snapshot may show

In every run the counters agree with the steps that have been made.  A snapshot
therefore shows at most as many outcomes as there were gets when it loaded the
misses, and at most as many expirations as there were entries stored and removals
that came too late.
-/

namespace HautePerformance.KvDistributed

open Library

/-- What the recorded steps have counted. -/
def tallied (field : StepCounts → Nat) (trace : MeteredTrace) : Nat :=
  Pool.tally
    (fun pool activity =>
      field (MeteredCall.counts pool.shared activity.call activity.position))
    trace

/-- A snapshot of a call that began and ended at these steps: it shows no more
outcomes than gets, up to the gets counted meanwhile, and no more expirations than
entries stored until then, up to the removals that came too late. -/
structure Coherent (trace : MeteredTrace) (began ended : Nat)
    (snapshot : StatsSnapshot) : Prop where
  outcomes :
    tallied StepCounts.gets trace < 2 ^ 64 →
    snapshot.hits.toNat + snapshot.misses.toNat ≤
      snapshot.gets.toNat +
        tallied StepCounts.gets (Pool.within began ended trace)
  expired :
    snapshot.expired.toNat ≤
      tallied StepCounts.inserted (Pool.before ended trace) +
        tallied StepCounts.tooLate (Pool.before ended trace)

/-! ## The books -/

def awaiting (activity : MeteredActivity) : Nat :=
  MeteredCall.onStorage StorageCall.awaitsOutcome activity.call
    activity.position

def owing (activity : MeteredActivity) : Nat :=
  MeteredCall.onStorage StorageCall.owesExpired activity.call
    activity.position

/-- The counters agree with the recorded steps. -/
structure Booked (trace : MeteredTrace) (pool : MeteredPool) : Prop where
  gets :
    pool.shared.storage.stats.gets =
      UInt64.ofNat (tallied StepCounts.gets trace)
  hits :
    pool.shared.storage.stats.hits.toNat ≤ tallied StepCounts.hits trace
  misses :
    pool.shared.storage.stats.misses.toNat ≤ tallied StepCounts.misses trace
  outcomes :
    tallied StepCounts.hits trace + tallied StepCounts.misses trace +
        pool.total awaiting =
      tallied StepCounts.gets trace
  entries :
    pool.shared.storage.len + tallied StepCounts.taken trace ≤
      tallied StepCounts.inserted trace
  expired :
    pool.shared.storage.stats.expired.toNat + pool.total owing ≤
      tallied StepCounts.taken trace + tallied StepCounts.tooLate trace

namespace Booked

variable {trace : MeteredTrace} {source target : MeteredPool}
variable {label : MeteredLabel}

theorem idle {node : NodeState} (new : node.storage = StorageEngine.new) :
    Booked [] (Pool.idle node) where
  gets := by
    rw [Pool.idle, new]
    rfl
  hits := by
    rw [Pool.idle, new]
    exact Nat.le_refl 0
  misses := by
    rw [Pool.idle, new]
    exact Nat.le_refl 0
  outcomes := by
    rw [Pool.total_idle]
    rfl
  entries := by
    rw [Pool.idle, new]
    exact Nat.le_refl 0
  expired := by
    rw [Pool.total_idle, Pool.idle, new]
    exact Nat.le_refl 0

theorem tallied_of_not_run (field : StepCounts → Nat)
    (noMover : source.mover? label = none) :
    tallied field ((source, label) :: trace) = tallied field trace := by
  rw [tallied, Pool.tally_cons, noMover]
  exact Nat.zero_add _

theorem tallied_run {thread : Nat} {activity : MeteredActivity}
    (field : StepCounts → Nat)
    (running : source.activity? thread = some activity) :
    tallied field ((source, .run thread) :: trace) =
      field (MeteredCall.counts source.shared activity.call
        activity.position) +
        tallied field trace :=
  Pool.tally_run running

/-- A step that no thread makes enters nothing. -/
theorem of_not_run (booked : Booked trace source)
    (noMover : source.mover? label = none)
    (storage : target.shared.storage = source.shared.storage)
    (sameAwaiting : target.total awaiting = source.total awaiting)
    (sameOwing : target.total owing = source.total owing) :
    Booked ((source, label) :: trace) target := by
  constructor
  · rw [storage, tallied_of_not_run _ noMover]
    exact booked.gets
  · rw [storage, tallied_of_not_run _ noMover]
    exact booked.hits
  · rw [storage, tallied_of_not_run _ noMover]
    exact booked.misses
  · rw [sameAwaiting, tallied_of_not_run _ noMover,
      tallied_of_not_run _ noMover, tallied_of_not_run _ noMover]
    exact booked.outcomes
  · rw [storage, tallied_of_not_run _ noMover, tallied_of_not_run _ noMover]
    exact booked.entries
  · rw [storage, sameOwing, tallied_of_not_run _ noMover,
      tallied_of_not_run _ noMover]
    exact booked.expired

/-- A step of a thread enters what it counts. -/
theorem of_run (booked : Booked trace source) {thread : Nat}
    {activity : MeteredActivity}
    (moves : meteredObject.Moves source (.run thread) target)
    (running : source.activity? thread = some activity)
    (stepped : target.shared =
      (MeteredCall.step source.shared activity.position).1) :
    Booked ((source, .run thread) :: trace) target := by
  let next := (MeteredCall.step source.shared activity.position).2
  have balanced :
      Balanced source.shared target.shared
        (MeteredCall.counts source.shared activity.call activity.position)
        (awaiting activity)
        (next.weigh
          (MeteredCall.onStorage StorageCall.awaitsOutcome activity.call))
        (owing activity)
        (next.weigh
          (MeteredCall.onStorage StorageCall.owesExpired activity.call)) := by
    rw [stepped]
    exact MeteredCall.balanced_step source.shared activity.position
  have awaits :
      target.total awaiting + awaiting activity =
        source.total awaiting +
          next.weigh
            (MeteredCall.onStorage StorageCall.awaitsOutcome activity.call) :=
    moves.total_run running _
  have owes :
      target.total owing + owing activity =
        source.total owing +
          next.weigh
            (MeteredCall.onStorage StorageCall.owesExpired activity.call) :=
    moves.total_run running _
  have outcomes := booked.outcomes
  have balancedOutcomes := balanced.outcomes
  have expired := booked.expired
  have balancedExpired := balanced.expired
  constructor
  · rw [tallied_run _ running, balanced.gets, booked.gets, UInt64.ofNat_add,
      UInt64.add_comm]
  · rw [tallied_run _ running, Nat.add_comm]
    exact balanced.hits.trans (Nat.add_le_add_right booked.hits _)
  · rw [tallied_run _ running, Nat.add_comm]
    exact balanced.misses.trans (Nat.add_le_add_right booked.misses _)
  · rw [tallied_run _ running, tallied_run _ running, tallied_run _ running]
    omega
  · have entries := booked.entries
    have balancedEntries := balanced.entries
    rw [tallied_run _ running, tallied_run _ running]
    omega
  · rw [tallied_run _ running, tallied_run _ running]
    omega

/-- Every step of the pool keeps the books. -/
theorem step (booked : Booked trace source)
    (moves : meteredObject.Moves source label target) :
    Booked ((source, label) :: trace) target := by
  have whole := moves
  cases moves with
  | call free =>
      refine booked.of_not_run rfl rfl ?_ ?_
      · rw [Pool.total_begin _ free]
        exact (Nat.add_eq_right).mpr
          (MeteredCall.onStorage_enter StorageCall.awaitsOutcome_enter _)
      · rw [Pool.total_begin _ free]
        exact (Nat.add_eq_right).mpr
          (MeteredCall.onStorage_enter StorageCall.owesExpired_enter _)
  | advance running stepped =>
      exact booked.of_run whole running (congrArg Prod.fst stepped).symm
  | finish running stepped =>
      exact booked.of_run whole running (congrArg Prod.fst stepped).symm
  | environment => exact booked.of_not_run rfl rfl rfl rfl

end Booked

/-! ## What a snapshot has loaded -/

/-- The gets were loaded after the call began: those of before are among them. -/
def LoadedGets (trace : MeteredTrace) (began : Nat) (gets : UInt64) : Prop :=
  ∃ counted,
    gets = UInt64.ofNat counted ∧
      tallied StepCounts.gets (Pool.before began trace) ≤ counted ∧
      counted ≤ tallied StepCounts.gets trace

/-- The counters loaded so far are no larger than what has been counted. -/
def LoadedSoFar (trace : MeteredTrace) (began : Nat) :
    (call : MeteredCall) → MeteredCall.Position call → Prop
  | _, .loadPuts gets => LoadedGets trace began gets
  | _, .loadDeletes gets _ => LoadedGets trace began gets
  | _, .loadHits gets _ _ => LoadedGets trace began gets
  | _, .loadMisses gets _ _ hits =>
      LoadedGets trace began gets ∧
        hits.toNat ≤ tallied StepCounts.hits trace
  | _, .loadExpired gets _ _ hits misses =>
      LoadedGets trace began gets ∧
        hits.toNat ≤ tallied StepCounts.hits trace ∧
        misses.toNat ≤ tallied StepCounts.misses trace
  | _, _ => True

section Loading

variable {trace : MeteredTrace} {source : MeteredPool} {label : MeteredLabel}
variable {began : Nat}

theorem tallied_cons_le (field : StepCounts → Nat) :
    tallied field trace ≤ tallied field ((source, label) :: trace) := by
  rw [tallied, tallied, Pool.tally_cons]
  exact Nat.le_add_left _ _

theorem LoadedGets.cons {gets : UInt64} (loaded : LoadedGets trace began gets)
    (after : began ≤ source.steps) :
    LoadedGets ((source, label) :: trace) began gets := by
  obtain ⟨counted, isCount, atLeast, atMost⟩ := loaded
  refine ⟨counted, isCount, ?_, atMost.trans (tallied_cons_le _)⟩
  rwa [Pool.before_cons after]

/-- What has been loaded stays true in the steps that follow. -/
theorem LoadedSoFar.cons {call : MeteredCall}
    {position : MeteredCall.Position call}
    (loaded : LoadedSoFar trace began call position)
    (after : began ≤ source.steps) :
    LoadedSoFar ((source, label) :: trace) began call position := by
  cases position with
  | storage position => trivial
  | loadGets => trivial
  | loadPuts gets => exact LoadedGets.cons loaded after
  | loadDeletes gets puts => exact LoadedGets.cons loaded after
  | loadHits gets puts deletes => exact LoadedGets.cons loaded after
  | loadMisses gets puts deletes hits =>
      exact ⟨loaded.1.cons after, loaded.2.trans (tallied_cons_le _)⟩
  | loadExpired gets puts deletes hits misses =>
      exact ⟨loaded.1.cons after, loaded.2.1.trans (tallied_cons_le _),
        loaded.2.2.trans (tallied_cons_le _)⟩

/-- A load adds a counter as it is. -/
theorem LoadedSoFar.advance {call : MeteredCall}
    {position next : MeteredCall.Position call} {shared : NodeState}
    (booked : Booked trace source)
    (loaded : LoadedSoFar trace began call position)
    (stepped :
      MeteredCall.step source.shared position = (shared, .goOn next)) :
    LoadedSoFar trace began call next := by
  cases position with
  | storage position =>
      cases next with
      | storage later => trivial
  | loadGets =>
      cases stepped
      exact ⟨_, booked.gets, Pool.tally_before_le began, Nat.le_refl _⟩
  | loadPuts gets =>
      cases stepped
      exact loaded
  | loadDeletes gets puts =>
      cases stepped
      exact loaded
  | loadHits gets puts deletes =>
      cases stepped
      exact ⟨loaded, booked.hits⟩
  | loadMisses gets puts deletes hits =>
      cases stepped
      exact ⟨loaded.1, loaded.2, booked.misses⟩
  | loadExpired gets puts deletes hits misses => cases stepped

/-- The last load makes a coherent snapshot. -/
theorem LoadedSoFar.finish {position : MeteredCall.Position .snapshot}
    {shared : NodeState} {snapshot : StatsSnapshot} {ended : Nat}
    (booked : Booked trace source)
    (loaded : LoadedSoFar trace began .snapshot position)
    (stepped :
      MeteredCall.step source.shared position = (shared, .finish snapshot))
    (order : began ≤ ended)
    (earlier : ∀ step, step ∈ trace → step.1.steps < ended) :
    Coherent trace began ended snapshot := by
  cases position with
  | loadExpired gets puts deletes hits misses =>
      cases stepped
      obtain ⟨⟨counted, isCount, atLeast, atMost⟩, hitsLoaded, missesLoaded⟩ :=
        loaded
      have all : Pool.before ended trace = trace := Pool.before_eq_self earlier
      refine { outcomes := fun fits => ?_, expired := ?_ }
      · have exact : gets.toNat = counted := by
          rw [isCount]
          exact UInt64.toNat_ofNat_of_lt' (Nat.lt_of_le_of_lt atMost fits)
        have stretches :
            tallied StepCounts.gets trace =
              tallied StepCounts.gets (Pool.before began trace) +
                tallied StepCounts.gets (Pool.within began ended trace) := by
          have split :
              tallied StepCounts.gets (Pool.before ended trace) =
                tallied StepCounts.gets (Pool.before began trace) +
                  tallied StepCounts.gets (Pool.within began ended trace) :=
            Pool.tally_before_eq order
          rwa [all] at split
        have outcomes := booked.outcomes
        dsimp only
        omega
      · rw [all]
        have entries := booked.entries
        have expired := booked.expired
        dsimp only
        omega
  | _ => cases stepped

/-- Later steps do not matter for a snapshot. -/
theorem Coherent.cons {ended : Nat} {snapshot : StatsSnapshot}
    (coherent : Coherent trace began ended snapshot) :
    Coherent ((source, label) :: trace) began ended snapshot where
  outcomes := by
    intro fits
    have before := coherent.outcomes
      (Nat.lt_of_le_of_lt (tallied_cons_le _) fits)
    exact before.trans
      (Nat.add_le_add_left (Pool.tally_filter_cons_le _) _)
  expired :=
    coherent.expired.trans
      (Nat.add_le_add (Pool.tally_filter_cons_le _)
        (Pool.tally_filter_cons_le _))

end Loading

/-! ## Every run -/

/-- The snapshots of a run, those under way and those that have returned. -/
structure SnapshotsOk (world : MeteredWorld) : Prop where
  booked : Booked world.trace world.state
  running : ∀ (thread : Nat) (activity : MeteredActivity),
    world.state.activity? thread = some activity →
    LoadedSoFar world.trace activity.began activity.call activity.position
  returned : ∀ (thread began ended : Nat) (snapshot : StatsSnapshot),
    (⟨thread, .snapshot, snapshot, began, ended⟩ :
      Returned MeteredCall.Result) ∈ world.state.returned →
    Coherent world.trace began ended snapshot

/-- One step preserves them. -/
theorem SnapshotsOk.step {source : MeteredWorld} {target : MeteredPool}
    {label : MeteredLabel}
    (reachable : meteredSystem.Reachable (fun _ _ => True) source)
    (ok : SnapshotsOk source)
    (moves : meteredObject.Moves source.state label target) :
    SnapshotsOk (source.push label target) where
  booked := ok.booked.step moves
  running := by
    intro thread activity running
    rcases moves.running_cases running with
      ⟨before, _⟩ | ⟨call, _, _, rfl⟩ |
        ⟨earlier, shared, position, _, active, stepped, _, rfl⟩
    · have started := (Outline.times_of_reachable reachable).2 thread activity
        before
      exact (ok.running thread activity before).cons (Nat.le_of_lt started)
    · cases call with
      | storage call => trivial
      | snapshot => trivial
    · have started := (Outline.times_of_reachable reachable).2 thread earlier
        active
      exact ((ok.running thread earlier active).advance ok.booked
        stepped).cons (Nat.le_of_lt started)
  returned := by
    intro thread began ended snapshot recorded
    rcases moves.returned_cases recorded with
      before | ⟨mover, activity, shared, result, _, active, stepped, _, made⟩
    · exact (ok.returned thread began ended snapshot before).cons
    · obtain ⟨call, start, position⟩ := activity
      have loaded := ok.running mover _ active
      have started := (Outline.times_of_reachable reachable).2 mover _ active
      cases made
      have earlier := ConcurrentObject.steps_lt reachable
      exact (loaded.finish ok.booked stepped
        (Nat.le_succ_of_le (Nat.le_of_lt started))
        fun step member => Nat.lt_succ_of_lt (earlier step member)).cons

/-- In every run of any number of threads, every snapshot is coherent.  Its `expired`
is bounded by what the trace has counted, so an entry that two threads find expired
counts twice. -/
theorem snapshot_coherent {world : MeteredWorld}
    (reachable : meteredSystem.Reachable (fun _ _ => True) world)
    {record : Returned MeteredCall.Result}
    (returned : record ∈ world.state.returned) {snapshot : StatsSnapshot}
    (shows : snapshot? record = some snapshot) :
    Coherent world.trace record.began record.ended snapshot := by
  have ok : SnapshotsOk world := by
    refine reachable.invariant SnapshotsOk ?_ ?_
    · rintro pool ⟨node, new, rfl⟩
      exact
        { booked := Booked.idle new
          running := fun _ _ running => by cases running
          returned := fun _ _ _ _ recorded => by cases recorded }
    · intro label source target reached ok step
      rw [step.2.2]
      exact ok.step reached (ConcurrentObject.moves_of_exec step.2.1)
  obtain ⟨thread, call, result, began, ended⟩ := record
  cases call with
  | storage call => cases shows
  | snapshot =>
      cases shows
      exact ok.returned thread began ended _ returned

/-- The run of these labels on a new engine returns this snapshot. -/
theorem exists_snapshot (labels : List MeteredLabel) (snapshot : StatsSnapshot)
    (checked :
      (meteredSystem.replay
          ⟨[], Pool.idle { storage := StorageEngine.new, now := 0 }⟩
          labels).map
        (fun world =>
          world.trace.all (fun _ => true) &&
            world.state.returned.any fun record =>
              decide (snapshot? record = some snapshot)) =
        some true) :
    ∃ world record,
      meteredSystem.Reachable (fun _ _ => True) world ∧
        record ∈ world.state.returned ∧ snapshot? record = some snapshot := by
  obtain ⟨world, reachable, found⟩ :=
    System.exists_reachable_of_replay meteredSystem (fun _ _ => True)
      (Pool.idle { storage := StorageEngine.new, now := 0 }) labels
      (fun _ _ => true)
      (fun world =>
        world.state.returned.any fun record =>
          decide (snapshot? record = some snapshot))
      ⟨_, rfl, rfl⟩ (fun _ _ _ => trivial) checked
  obtain ⟨record, returned, shows⟩ := List.any_eq_true.mp found
  exact ⟨world, record, reachable, returned, of_decide_eq_true shows⟩

/-- A `get` runs after the gets have been loaded and before the misses are. -/
theorem exists_snapshot_during_get :
    ∃ world record,
      meteredSystem.Reachable (fun _ _ => True) world ∧
        record ∈ world.state.returned ∧
        snapshot? record =
          some
            { gets := 0
              puts := 0
              deletes := 0
              hits := 0
              misses := 1
              expired := 0 } :=
  exists_snapshot
    [.call 0 .snapshot, .run 0, .call 1 (.storage (.get "k")), .run 1, .run 1,
      .run 1, .run 0, .run 0, .run 0, .run 0, .run 0]
    _ (by decide +kernel)

/-- Two readers find the same expired entry. -/
theorem exists_snapshot_after_double_expiration :
    ∃ world record,
      meteredSystem.Reachable (fun _ _ => True) world ∧
        record ∈ world.state.returned ∧
        snapshot? record =
          some
            { gets := 2
              puts := 1
              deletes := 0
              hits := 0
              misses := 2
              expired := 2 } :=
  exists_snapshot
    [.call 0 (.storage (.put "k" [1] (some 0))), .run 0, .run 0, .run 0, .run 0,
      .environment 1, .call 1 (.storage (.get "k")),
      .call 2 (.storage (.get "k")), .run 1, .run 1, .run 1, .run 2, .run 2,
      .run 2, .run 1, .run 1, .run 1, .run 2, .run 2, .run 2,
      .call 0 .snapshot, .run 0, .run 0, .run 0, .run 0, .run 0, .run 0]
    _ (by decide +kernel)

/-- The snapshot taken during a `get` is coherent. -/
theorem snapshot_coherent_during_get :
    ∃ (world : MeteredWorld) (record : Returned MeteredCall.Result),
      Coherent world.trace record.began record.ended
        { gets := 0
          puts := 0
          deletes := 0
          hits := 0
          misses := 1
          expired := 0 } := by
  obtain ⟨world, record, reachable, returned, shows⟩ :=
    exists_snapshot_during_get
  exact ⟨world, record, snapshot_coherent reachable returned shows⟩

/-- A snapshot may show an outcome of a `get` that it does not show, and an entry
that has expired twice. -/
theorem snapshot_outruns_counters :
    (¬ ∀ (world : MeteredWorld) (record : Returned MeteredCall.Result)
        (snapshot : StatsSnapshot),
      meteredSystem.Reachable (fun _ _ => True) world →
      record ∈ world.state.returned →
      snapshot? record = some snapshot →
      snapshot.hits.toNat + snapshot.misses.toNat ≤ snapshot.gets.toNat) ∧
    ¬ ∀ (world : MeteredWorld) (record : Returned MeteredCall.Result)
        (snapshot : StatsSnapshot),
      meteredSystem.Reachable (fun _ _ => True) world →
      record ∈ world.state.returned →
      snapshot? record = some snapshot →
      snapshot.expired.toNat ≤ snapshot.puts.toNat := by
  constructor
  · intro noMoreOutcomes
    obtain ⟨world, record, reachable, returned, shows⟩ :=
      exists_snapshot_during_get
    exact absurd (noMoreOutcomes world record _ reachable returned shows)
      (by decide)
  · intro noMoreExpirations
    obtain ⟨world, record, reachable, returned, shows⟩ :=
      exists_snapshot_after_double_expiration
    exact absurd (noMoreExpirations world record _ reachable returned shows)
      (by decide)

end HautePerformance.KvDistributed
