import HautePerformance.Library.Atomic
import HautePerformance.Library.CheckedInteger
import HautePerformance.Library.PoolUpdates

/-!
# Lock-free statistics

`ServiceStats` of `exo06_stats.rs`, six atomic words that threads update without a
lock, next to `ServiceStatsMutex`, which updates six numbers under one.  The
minimum and the maximum are replaced in a loop, with a weak compare-and-exchange
and with reads that may be late.
-/

namespace HautePerformance.Demos.LockFreeStats

open Library

structure ServiceStats where
  total : Atomic UInt64
  success : Atomic UInt64
  failed : Atomic UInt64
  latenceMin : Atomic UInt64
  latenceMax : Atomic UInt64
  latenceSum : Atomic UInt64
  deriving DecidableEq, Repr

def ServiceStats.new : ServiceStats where
  total := Atomic.new 0
  success := Atomic.new 0
  failed := Atomic.new 0
  -- `u64::MAX`
  latenceMin := Atomic.new 0xFFFFFFFFFFFFFFFF
  latenceMax := Atomic.new 0
  latenceSum := Atomic.new 0

/-- A turn of the loop of `atomic_max`. -/
def atomicMax (weather : Weather) (target : Atomic UInt64)
    (value current : UInt64) : Atomic UInt64 × Option UInt64 :=
  target.retry (fun value current => value > current) weather value current

/-- A turn of the loop of `atomic_min`. -/
def atomicMin (weather : Weather) (target : Atomic UInt64)
    (value current : UInt64) : Atomic UInt64 × Option UInt64 :=
  target.retry (fun value current => value < current) weather value current

/-- The arguments of `record`. -/
structure RecordCall where
  success : Bool
  latenceUs : UInt64
  deriving DecidableEq, Repr

/-- Where a thread stands in `record`. -/
inductive RecordPosition where
  | countTotal
  | countOutcome
  | addLatence
  | loadMin
  | retryMin (current : UInt64)
  | loadMax
  | retryMax (current : UInt64)
  deriving DecidableEq, Repr

/-- The statistics, and how the memory treats the next step. -/
structure Memory where
  stats : ServiceStats
  weather : Weather
  deriving DecidableEq, Repr

namespace RecordCall

/-- One atomic step of `record`. -/
def step (call : RecordCall) (memory : Memory) :
    RecordPosition → Memory × Next RecordPosition Unit
  | .countTotal =>
      ({ memory with
          stats :=
            { memory.stats with total := memory.stats.total.fetchAdd 1 } },
        .goOn .countOutcome)
  | .countOutcome =>
      if call.success then
        ({ memory with
            stats :=
              { memory.stats with success := memory.stats.success.fetchAdd 1 } },
          .goOn .addLatence)
      else
        ({ memory with
            stats :=
              { memory.stats with failed := memory.stats.failed.fetchAdd 1 } },
          .goOn .addLatence)
  | .addLatence =>
      ({ memory with
          stats :=
            { memory.stats with
              latenceSum := memory.stats.latenceSum.fetchAdd call.latenceUs } },
        .goOn .loadMin)
  | .loadMin =>
      (memory, .goOn (.retryMin (memory.stats.latenceMin.load memory.weather)))
  | .retryMin current =>
      let turn :=
        atomicMin memory.weather memory.stats.latenceMin call.latenceUs current
      ({ memory with stats := { memory.stats with latenceMin := turn.1 } },
        match turn.2 with
        | none => .goOn .loadMax
        | some actual => .goOn (.retryMin actual))
  | .loadMax =>
      (memory, .goOn (.retryMax (memory.stats.latenceMax.load memory.weather)))
  | .retryMax current =>
      let turn :=
        atomicMax memory.weather memory.stats.latenceMax call.latenceUs current
      ({ memory with stats := { memory.stats with latenceMax := turn.1 } },
        match turn.2 with
        | none => .finish ()
        | some actual => .goOn (.retryMax actual))

end RecordCall

/-- Threads record; the environment is the weather. -/
def statsObject :
    ConcurrentObject Memory Weather
      (fun _ : RecordCall => RecordPosition) (fun _ => Unit) where
  enter := fun _ => .countTotal
  step := fun {call} memory position => call.step memory position
  environment := fun weather memory => { memory with weather := weather }

abbrev StatsPool :=
  Pool Memory (fun _ : RecordCall => RecordPosition) (fun _ => Unit)

abbrev StatsLabel :=
  PoolLabel RecordCall Weather

abbrev StatsWorld :=
  World StatsPool StatsLabel

/-- Any number of threads that share new statistics. -/
def statsSystem : System StatsPool StatsLabel :=
  statsObject.system fun memory => memory.stats = ServiceStats.new

/-! ## The version with a mutex -/

structure StatsInner where
  total : UInt64
  success : UInt64
  failed : UInt64
  latenceMin : UInt64
  latenceMax : UInt64
  latenceSum : UInt64
  deriving DecidableEq, Repr

namespace StatsInner

def new : StatsInner where
  total := 0
  success := 0
  failed := 0
  latenceMin := 0xFFFFFFFFFFFFFFFF
  latenceMax := 0
  latenceSum := 0

/-- `ServiceStatsMutex::record` under its lock.  A panic poisons the mutex. -/
def record (overflowChecks : Bool) (g : StatsInner) (call : RecordCall) :
    Option StatsInner := do
  let total ← addU64 overflowChecks g.total 1
  let success ←
    (if call.success then addU64 overflowChecks g.success 1 else some g.success)
  let failed ←
    (if call.success then some g.failed else addU64 overflowChecks g.failed 1)
  let latenceSum ← addU64 overflowChecks g.latenceSum call.latenceUs
  some
    { total := total
      success := success
      failed := failed
      latenceMin :=
        if call.latenceUs < g.latenceMin then call.latenceUs else g.latenceMin
      latenceMax :=
        if call.latenceUs > g.latenceMax then call.latenceUs else g.latenceMax
      latenceSum := latenceSum }

/-- Records one after the other on new statistics. -/
def recordAll (overflowChecks : Bool) (calls : List RecordCall) :
    Option StatsInner :=
  calls.foldlM (record overflowChecks) new

end StatsInner

/-- What the atomic words hold. -/
def ServiceStats.fields (stats : ServiceStats) : StatsInner where
  total := stats.total.value
  success := stats.success.value
  failed := stats.failed.value
  latenceMin := stats.latenceMin.value
  latenceMax := stats.latenceMax.value
  latenceSum := stats.latenceSum.value

/-! ## Field by field -/

inductive Field where
  | total
  | success
  | failed
  | latenceSum
  | latenceMin
  | latenceMax
  deriving DecidableEq, Repr

namespace Field

/-- What a record does to the field. -/
def update : Field → UInt64 → RecordCall → UInt64
  | .total, value, _ => value + 1
  | .success, value, call => if call.success then value + 1 else value
  | .failed, value, call => if call.success then value else value + 1
  | .latenceSum, value, call => value + call.latenceUs
  | .latenceMin, value, call =>
      if call.latenceUs < value then call.latenceUs else value
  | .latenceMax, value, call =>
      if call.latenceUs > value then call.latenceUs else value

/-- The steps of `record` come in stages, and a field has its own. -/
def stage : Field → Nat
  | .total => 0
  | .success => 1
  | .failed => 1
  | .latenceSum => 2
  | .latenceMin => 3
  | .latenceMax => 4

end Field

def StatsInner.get (inner : StatsInner) : Field → UInt64
  | .total => inner.total
  | .success => inner.success
  | .failed => inner.failed
  | .latenceSum => inner.latenceSum
  | .latenceMin => inner.latenceMin
  | .latenceMax => inner.latenceMax

theorem StatsInner.ext_get {first second : StatsInner}
    (same : ∀ field, first.get field = second.get field) : first = second := by
  obtain ⟨total, success, failed, latenceMin, latenceMax, latenceSum⟩ := first
  obtain ⟨_, _, _, _, _, _⟩ := second
  have sameTotal := same .total
  have sameSuccess := same .success
  have sameFailed := same .failed
  have sameMin := same .latenceMin
  have sameMax := same .latenceMax
  have sameSum := same .latenceSum
  simp only [StatsInner.get] at sameTotal sameSuccess sameFailed sameMin sameMax sameSum
  subst sameTotal sameSuccess sameFailed sameMin sameMax sameSum
  rfl

section Extremes

variable {value : UInt64} {call : RecordCall}

theorem toNat_update_latenceMin :
    (Field.update .latenceMin value call).toNat =
      min call.latenceUs.toNat value.toNat := by
  by_cases less : call.latenceUs < value
  · rw [show Field.update .latenceMin value call = call.latenceUs from if_pos less]
    exact (Nat.min_eq_left (Nat.le_of_lt (UInt64.lt_iff_toNat_lt.mp less))).symm
  · rw [show Field.update .latenceMin value call = value from if_neg less]
    exact (Nat.min_eq_right
      (Nat.le_of_not_lt fun below => less (UInt64.lt_iff_toNat_lt.mpr below))).symm

theorem toNat_update_latenceMax :
    (Field.update .latenceMax value call).toNat =
      max call.latenceUs.toNat value.toNat := by
  by_cases more : call.latenceUs > value
  · rw [show Field.update .latenceMax value call = call.latenceUs from if_pos more]
    exact (Nat.max_eq_left (Nat.le_of_lt (UInt64.lt_iff_toNat_lt.mp more))).symm
  · rw [show Field.update .latenceMax value call = value from if_neg more]
    exact (Nat.max_eq_right
      (Nat.le_of_not_lt fun above => more (UInt64.lt_iff_toNat_lt.mpr above))).symm

end Extremes

/-- The order in which records are made does not matter to a field. -/
instance (field : Field) : RightCommutative field.update where
  right_comm := by
    intro value first second
    cases field with
    | total => rfl
    | success =>
        simp only [Field.update]
        split <;> split <;> rfl
    | failed =>
        simp only [Field.update]
        split <;> split <;> rfl
    | latenceSum =>
        simp only [Field.update]
        rw [UInt64.add_assoc, UInt64.add_comm first.latenceUs, UInt64.add_assoc]
    | latenceMin =>
        apply UInt64.toNat_inj.mp
        simp only [toNat_update_latenceMin]
        exact Nat.min_left_comm _ _ _
    | latenceMax =>
        apply UInt64.toNat_inj.mp
        simp only [toNat_update_latenceMax]
        exact Nat.max_left_comm _ _ _

/-- A record under the lock updates every field. -/
theorem get_record {overflowChecks : Bool} {g after : StatsInner}
    {call : RecordCall} (recorded : g.record overflowChecks call = some after)
    (field : Field) : after.get field = field.update (g.get field) call := by
  simp only [StatsInner.record, Option.bind_eq_bind, Option.bind_eq_some_iff,
    Option.some.injEq] at recorded
  obtain ⟨total, totalAdded, success, successAdded, failed, failedAdded,
    latenceSum, sumAdded, rfl⟩ := recorded
  cases field with
  | total => exact (addU64_eq_some.mp totalAdded).1
  | success =>
      simp only [StatsInner.get, Field.update]
      cases outcome : call.success with
      | true =>
          rw [outcome] at successAdded
          exact (addU64_eq_some.mp successAdded).1
      | false =>
          rw [outcome] at successAdded
          exact (Option.some.inj successAdded).symm
  | failed =>
      simp only [StatsInner.get, Field.update]
      cases outcome : call.success with
      | true =>
          rw [outcome] at failedAdded
          exact (Option.some.inj failedAdded).symm
      | false =>
          rw [outcome] at failedAdded
          exact (addU64_eq_some.mp failedAdded).1
  | latenceSum => exact (addU64_eq_some.mp sumAdded).1
  | latenceMin => rfl
  | latenceMax => rfl

/-- Records under the lock, as long as none panics. -/
theorem get_foldlM_record {overflowChecks : Bool} {calls : List RecordCall}
    (field : Field) :
    ∀ {g inner : StatsInner},
      calls.foldlM (StatsInner.record overflowChecks) g = some inner →
      inner.get field = calls.foldl field.update (g.get field) := by
  induction calls with
  | nil =>
      intro g inner run
      cases run
      rfl
  | cons call rest inductionHypothesis =>
      intro g inner run
      rw [List.foldlM_cons, Option.bind_eq_bind, Option.bind_eq_some_iff] at run
      obtain ⟨middle, recorded, others⟩ := run
      rw [inductionHypothesis others, get_record recorded field]
      rfl

/-! ## What a step does -/

section Loops

variable {motive : Memory × Next RecordPosition Unit → Prop}
variable (call : RecordCall) (memory : Memory) (current : UInt64)

/-- The ways in which a turn of the loop of `atomic_min` can go. -/
@[elab_as_elim]
theorem step_retryMin
    (settled : ¬ call.latenceUs < current → motive (memory, .goOn .loadMax))
    (replaced : call.latenceUs < memory.stats.latenceMin.value →
      motive
        ({ memory with
            stats :=
              { memory.stats with
                latenceMin := memory.stats.latenceMin.store call.latenceUs } },
          .goOn .loadMax))
    (again :
      motive (memory, .goOn (.retryMin (memory.stats.latenceMin.load memory.weather)))) :
    motive (call.step memory (.retryMin current)) := by
  have turn :
      memory.stats.latenceMin.Turns (fun value current => value < current)
        memory.weather call.latenceUs current
        (atomicMin memory.weather memory.stats.latenceMin call.latenceUs current) :=
    Atomic.turns_retry _ _ _ _ _
  simp only [RecordCall.step]
  generalize atomicMin memory.weather memory.stats.latenceMin call.latenceUs current =
    result at turn ⊢
  cases turn with
  | settled notBetter => exact settled notBetter
  | replaced better => exact replaced better
  | again => exact again

/-- The ways in which a turn of the loop of `atomic_max` can go. -/
@[elab_as_elim]
theorem step_retryMax
    (settled : ¬ call.latenceUs > current → motive (memory, .finish ()))
    (replaced : call.latenceUs > memory.stats.latenceMax.value →
      motive
        ({ memory with
            stats :=
              { memory.stats with
                latenceMax := memory.stats.latenceMax.store call.latenceUs } },
          .finish ()))
    (again :
      motive (memory, .goOn (.retryMax (memory.stats.latenceMax.load memory.weather)))) :
    motive (call.step memory (.retryMax current)) := by
  have turn :
      memory.stats.latenceMax.Turns (fun value current => value > current)
        memory.weather call.latenceUs current
        (atomicMax memory.weather memory.stats.latenceMax call.latenceUs current) :=
    Atomic.turns_retry _ _ _ _ _
  simp only [RecordCall.step]
  generalize atomicMax memory.weather memory.stats.latenceMax call.latenceUs current =
    result at turn ⊢
  cases turn with
  | settled notBetter => exact settled notBetter
  | replaced better => exact replaced better
  | again => exact again

end Loops

/-- The stage of a position. -/
def RecordPosition.stage : RecordPosition → Nat
  | .countTotal => 0
  | .countOutcome => 1
  | .addLatence => 2
  | .loadMin => 3
  | .retryMin _ => 3
  | .loadMax => 4
  | .retryMax _ => 4

/-- The stage of where a step leads. -/
def stageOf : Next RecordPosition Unit → Nat
  | .goOn position => position.stage
  | .finish _ => 5

/-- What the thread has seen is not ahead of what the words hold. -/
def Behind (stats : ServiceStats) : RecordPosition → Prop
  | .retryMin current => stats.latenceMin.value ≤ current
  | .retryMax current => current ≤ stats.latenceMax.value
  | _ => True

/-- The step leaves the fields as they are and the call in its stage, or it updates
the fields of the stage and takes the call to the next one. -/
inductive Steps (call : RecordCall) (memory : Memory) (stage : Nat) :
    Memory × Next RecordPosition Unit → Prop
  | stays {after : Memory} {next : Next RecordPosition Unit} :
      stageOf next = stage →
      (∀ field, after.stats.fields.get field = memory.stats.fields.get field) →
      Steps call memory stage (after, next)
  | passes {after : Memory} {next : Next RecordPosition Unit} :
      stageOf next = stage + 1 →
      (∀ field, after.stats.fields.get field =
        if field.stage = stage then
          field.update (memory.stats.fields.get field) call
        else memory.stats.fields.get field) →
      Steps call memory stage (after, next)

theorem steps_step (call : RecordCall) (memory : Memory)
    {position : RecordPosition} (behind : Behind memory.stats position) :
    Steps call memory position.stage (call.step memory position) := by
  cases position with
  | countTotal =>
      refine Steps.passes rfl fun field => ?_
      cases field <;> rfl
  | countOutcome =>
      simp only [RecordCall.step]
      split
      · rename_i success
        refine Steps.passes rfl fun field => ?_
        cases field with
        | success => exact (if_pos success).symm
        | failed => exact (if_pos success).symm
        | _ => rfl
      · rename_i failed
        refine Steps.passes rfl fun field => ?_
        cases field with
        | success => exact (if_neg failed).symm
        | failed => exact (if_neg failed).symm
        | _ => rfl
  | addLatence =>
      refine Steps.passes rfl fun field => ?_
      cases field <;> rfl
  | loadMin => exact Steps.stays rfl fun _ => rfl
  | retryMin current =>
      refine step_retryMin call memory current ?_ ?_ ?_
      · intro notBetter
        have noUpdate : ¬ call.latenceUs < memory.stats.latenceMin.value :=
          fun better => notBetter (UInt64.lt_of_lt_of_le better behind)
        refine Steps.passes rfl fun field => ?_
        cases field with
        | latenceMin => exact (if_neg noUpdate).symm
        | _ => rfl
      · intro better
        refine Steps.passes rfl fun field => ?_
        cases field with
        | latenceMin => exact (if_pos better).symm
        | _ => rfl
      · exact Steps.stays rfl fun _ => rfl
  | loadMax => exact Steps.stays rfl fun _ => rfl
  | retryMax current =>
      refine step_retryMax call memory current ?_ ?_ ?_
      · intro notBetter
        have noUpdate : ¬ call.latenceUs > memory.stats.latenceMax.value :=
          fun better => notBetter (UInt64.lt_of_le_of_lt behind better)
        refine Steps.passes rfl fun field => ?_
        cases field with
        | latenceMax => exact (if_neg noUpdate).symm
        | _ => rfl
      · intro better
        refine Steps.passes rfl fun field => ?_
        cases field with
        | latenceMax => exact (if_pos better).symm
        | _ => rfl
      · exact Steps.stays rfl fun _ => rfl

/-! ## Minimum and maximum move in one direction -/

/-- The minimum has only gone down, and the maximum up. -/
structure Directed (stats : ServiceStats) : Prop where
  latenceMin : stats.latenceMin.Ordered (· ≤ ·)
  latenceMax : stats.latenceMax.Ordered (· ≥ ·)

theorem directed_new : Directed ServiceStats.new where
  latenceMin := Atomic.ordered_new (UInt64.le_refl _)
  latenceMax := Atomic.ordered_new (UInt64.le_refl _)

/-- What the step of one thread means for the others: the minimum does not go up,
and the maximum does not go down. -/
structure Extends (stats later : ServiceStats) : Prop where
  directed : Directed later
  latenceMin : later.latenceMin.value ≤ stats.latenceMin.value
  latenceMax : stats.latenceMax.value ≤ later.latenceMax.value

namespace Extends

variable {stats later : ServiceStats}

theorem refl (directed : Directed stats) : Extends stats stats where
  directed := directed
  latenceMin := UInt64.le_refl _
  latenceMax := UInt64.le_refl _

/-- A step on the other fields. -/
theorem of_same (directed : Directed stats)
    (sameMin : later.latenceMin = stats.latenceMin)
    (sameMax : later.latenceMax = stats.latenceMax) : Extends stats later where
  directed := ⟨sameMin ▸ directed.latenceMin, sameMax ▸ directed.latenceMax⟩
  latenceMin := by rw [sameMin]; exact UInt64.le_refl _
  latenceMax := by rw [sameMax]; exact UInt64.le_refl _

/-- What has been seen stays behind. -/
theorem behind (extends_ : Extends stats later) {position : RecordPosition}
    (seen : Behind stats position) : Behind later position := by
  cases position with
  | retryMin current => exact UInt64.le_trans extends_.latenceMin seen
  | retryMax current => exact UInt64.le_trans seen extends_.latenceMax
  | _ => trivial

end Extends

theorem extends_step (call : RecordCall) (memory : Memory)
    (position : RecordPosition) (directed : Directed memory.stats) :
    Extends memory.stats (call.step memory position).1.stats := by
  cases position with
  | countOutcome =>
      simp only [RecordCall.step]
      split
      · exact Extends.of_same directed rfl rfl
      · exact Extends.of_same directed rfl rfl
  | retryMin current =>
      refine step_retryMin call memory current ?_ ?_ ?_
      · exact fun _ => Extends.refl directed
      · intro better
        have below : call.latenceUs ≤ memory.stats.latenceMin.value :=
          UInt64.le_of_lt better
        exact
          { directed :=
              { latenceMin :=
                  directed.latenceMin.store (UInt64.le_refl _)
                    fun _ => UInt64.le_trans below
                latenceMax := directed.latenceMax }
            latenceMin := below
            latenceMax := UInt64.le_refl _ }
      · exact Extends.refl directed
  | retryMax current =>
      refine step_retryMax call memory current ?_ ?_ ?_
      · exact fun _ => Extends.refl directed
      · intro better
        have above : memory.stats.latenceMax.value ≤ call.latenceUs :=
          UInt64.le_of_lt better
        exact
          { directed :=
              { latenceMin := directed.latenceMin
                latenceMax :=
                  directed.latenceMax.store (UInt64.le_refl _)
                    fun _ earlier => UInt64.le_trans earlier above }
            latenceMin := UInt64.le_refl _
            latenceMax := above }
      · exact Extends.refl directed
  | _ => exact Extends.of_same directed rfl rfl

/-- Where a step leads, the thread has seen nothing ahead of the words. -/
theorem behind_step (call : RecordCall) (memory : Memory)
    {position next : RecordPosition} (directed : Directed memory.stats) :
    (call.step memory position).2 = .goOn next →
    Behind (call.step memory position).1.stats next := by
  cases position with
  | countTotal =>
      rintro ⟨⟩
      trivial
  | countOutcome =>
      simp only [RecordCall.step]
      split <;> rintro ⟨⟩ <;> trivial
  | addLatence =>
      rintro ⟨⟩
      trivial
  | loadMin =>
      rintro ⟨⟩
      exact directed.latenceMin.load
  | retryMin current =>
      refine step_retryMin call memory current ?_ ?_ ?_
      · rintro _ ⟨⟩
        trivial
      · rintro _ ⟨⟩
        trivial
      · rintro ⟨⟩
        exact directed.latenceMin.load
  | loadMax =>
      rintro ⟨⟩
      exact directed.latenceMax.load
  | retryMax current =>
      refine step_retryMax call memory current ?_ ?_ ?_
      · rintro _ ⟨⟩
      · rintro _ ⟨⟩
      · rintro ⟨⟩
        exact directed.latenceMax.load

/-- No thread holds a value that is ahead of the words. -/
def seen : Outline Memory (fun _ : RecordCall => RecordPosition) (fun _ => Unit) where
  Inv := fun pool => Directed pool.shared.stats
  At := fun pool activity => Behind pool.shared.stats activity.position

theorem extends_moves {source target : StatsPool} {label : StatsLabel}
    (directed : Directed source.shared.stats)
    (moves : statsObject.Moves source label target) :
    Extends source.shared.stats target.shared.stats := by
  rcases moves.shared_cases with
    unchanged | ⟨thread, activity, _, _, stepped⟩ | ⟨weather, changed⟩
  · rw [unchanged]
    exact Extends.refl directed
  · rw [stepped]
    exact extends_step activity.call source.shared activity.position directed
  · rw [changed]
    exact Extends.refl directed

theorem directed_of_start (memory : Memory) (new : memory.stats = ServiceStats.new) :
    Directed memory.stats := by
  rw [new]
  exact directed_new

theorem seen_sound : seen.Sound statsObject fun _ _ => True where
  inv := fun _ holds moves => (extends_moves holds.1 moves).directed
  begins := fun _ _ _ => trivial
  advances := by
    intro source thread activity shared position _ holds _ stepped
    have behind :
        Behind (activity.call.step source.shared activity.position).1.stats position :=
      behind_step activity.call source.shared holds.1 (congrArg Prod.snd stepped)
    have sameShared : (activity.call.step source.shared activity.position).1 = shared :=
      congrArg Prod.fst stepped
    rw [sameShared] at behind
    exact behind
  stable := fun _ holds moves running _ =>
    (extends_moves holds.1 moves).behind (holds.2 _ _ running)

/-! ## The two versions -/

/-- The calls that have updated a field. -/
def Field.applied (field : Field) (_ : RecordCall) (position : RecordPosition) : Bool :=
  decide (field.stage < position.stage)

theorem Field.stage_lt (field : Field) : field.stage < 5 := by
  cases field <;> decide

theorem applied_next (field : Field) (call : RecordCall)
    (next : Next RecordPosition Unit) :
    next.applied (field.applied call) = decide (field.stage < stageOf next) := by
  cases next with
  | goOn position => rfl
  | finish result => exact (decide_eq_true field.stage_lt).symm

theorem updatesOnce (field : Field) :
    UpdatesOnce statsObject (fun memory => memory.stats.fields.get field) field.update
      field.applied fun pool _ => True ∧ seen.Holds pool where
  enter := fun _ => decide_eq_false (Nat.not_lt_zero _)
  environment := fun _ _ => rfl
  step := by
    intro pool thread activity admitted running
    have behind : Behind pool.shared.stats activity.position :=
      admitted.2.2 thread activity running
    have steps := steps_step activity.call pool.shared behind
    dsimp only [statsObject]
    generalize activity.call.step pool.shared activity.position = result at steps ⊢
    cases steps with
    | stays sameStage unchanged =>
        refine Or.inl ⟨?_, unchanged field⟩
        rw [applied_next, sameStage, Field.applied]
    | passes nextStage changed =>
        rw [applied_next, nextStage, Field.applied]
        dsimp only
        rw [changed field]
        by_cases own : field.stage = activity.position.stage
        · rw [if_pos own]
          exact Or.inr
            ⟨decide_eq_false (by omega), decide_eq_true (by omega), rfl⟩
        · rw [if_neg own]
          exact Or.inl ⟨decide_eq_decide.mpr (by omega), rfl⟩

/-- The words have room for the records to come. -/
structure Room (g : StatsInner) (calls : List RecordCall) : Prop where
  total : g.total.toNat + calls.length < 2 ^ 64
  success : g.success.toNat ≤ g.total.toNat
  failed : g.failed.toNat ≤ g.total.toNat
  latenceSum :
    g.latenceSum.toNat + (calls.map (·.latenceUs.toNat)).sum < 2 ^ 64

section Room

variable {overflowChecks : Bool} {g after : StatsInner} {call : RecordCall}
variable {calls : List RecordCall}

theorem toNat_add_of_fits {a b : UInt64} (fits : a.toNat + b.toNat < 2 ^ 64) :
    (a + b).toNat = a.toNat + b.toNat := by
  rw [UInt64.toNat_add, Nat.mod_eq_of_lt fits]

theorem Room.record (room : Room g (call :: calls))
    (recorded : g.record overflowChecks call = some after) : Room after calls := by
  have one : (1 : UInt64).toNat = 1 := rfl
  have total := room.total
  have success := room.success
  have failed := room.failed
  have latenceSum := room.latenceSum
  rw [List.length_cons] at total
  rw [List.map_cons, List.sum_cons] at latenceSum
  have newTotal : after.total.toNat = g.total.toNat + 1 := by
    rw [show after.total = g.total + 1 from get_record recorded .total]
    exact toNat_add_of_fits (by omega)
  have newSuccess : after.success.toNat ≤ g.success.toNat + 1 := by
    have value : after.success = if call.success then g.success + 1 else g.success :=
      get_record recorded .success
    rw [value]
    split
    · exact (toNat_add_of_fits (by omega)).le
    · exact Nat.le_succ _
  have newFailed : after.failed.toNat ≤ g.failed.toNat + 1 := by
    have value : after.failed = if call.success then g.failed else g.failed + 1 :=
      get_record recorded .failed
    rw [value]
    split
    · exact Nat.le_succ _
    · exact (toNat_add_of_fits (by omega)).le
  have newSum :
      after.latenceSum.toNat = g.latenceSum.toNat + call.latenceUs.toNat := by
    rw [show after.latenceSum = g.latenceSum + call.latenceUs from
      get_record recorded .latenceSum]
    exact toNat_add_of_fits (by omega)
  constructor <;> omega

/-- A record that has room does not panic. -/
theorem exists_record (room : overflowChecks = false ∨ Room g (call :: calls)) :
    ∃ after, g.record overflowChecks call = some after := by
  have add : ∀ a b : UInt64,
      (Room g (call :: calls) → a.toNat + b.toNat < 2 ^ 64) →
      addU64 overflowChecks a b = some (a + b) := by
    intro a b fits
    rcases room with unchecked | room
    · exact addU64_eq_some.mpr ⟨rfl, Or.inr unchecked⟩
    · exact addU64_eq_some.mpr ⟨rfl, Or.inl (fits room)⟩
  have one : (1 : UInt64).toNat = 1 := rfl
  have total : addU64 overflowChecks g.total 1 = some (g.total + 1) := by
    refine add _ _ fun room => ?_
    have total := room.total
    rw [List.length_cons] at total
    omega
  have success : addU64 overflowChecks g.success 1 = some (g.success + 1) := by
    refine add _ _ fun room => ?_
    have total := room.total
    have success := room.success
    rw [List.length_cons] at total
    omega
  have failed : addU64 overflowChecks g.failed 1 = some (g.failed + 1) := by
    refine add _ _ fun room => ?_
    have total := room.total
    have failed := room.failed
    rw [List.length_cons] at total
    omega
  have latenceSum : addU64 overflowChecks g.latenceSum call.latenceUs =
      some (g.latenceSum + call.latenceUs) := by
    refine add _ _ fun room => ?_
    have latenceSum := room.latenceSum
    rw [List.map_cons, List.sum_cons] at latenceSum
    omega
  simp only [StatsInner.record, total, latenceSum]
  cases outcome : call.success with
  | true => simp [success]
  | false => simp [failed]

theorem exists_foldlM_record :
    ∀ {g : StatsInner},
      (overflowChecks = false ∨ Room g calls) →
      ∃ inner, calls.foldlM (StatsInner.record overflowChecks) g = some inner := by
  induction calls with
  | nil => exact fun {g} _ => ⟨g, rfl⟩
  | cons call rest inductionHypothesis =>
      intro g room
      obtain ⟨after, recorded⟩ := exists_record room
      obtain ⟨inner, others⟩ :=
        inductionHypothesis (room.imp_right fun room => room.record recorded)
      exact ⟨inner, by rw [List.foldlM_cons, recorded]; exact others⟩

end Room

/-- What the atomic words hold when all calls have returned, field by field. -/
theorem fields_of_atRest {world : StatsWorld}
    (reachable : statsSystem.Reachable (fun _ _ => True) world)
    (rest : world.state.AtRest) {order : List RecordCall}
    (same : order.Perm (world.state.returned.map Returned.call)) (field : Field) :
    world.state.shared.stats.fields.get field =
      order.foldl field.update (StatsInner.new.get field) := by
  have holds : ∀ earlier,
      statsSystem.Reachable (fun _ _ => True) earlier → seen.Holds earlier.state :=
    fun _ reached => seen_sound.reachable directed_of_start reached
  refine (updatesOnce field).part_of_atRest ?_ (reachable.assuming seen.Holds holds)
    rest same
  intro memory new
  rw [show memory.stats = ServiceStats.new from new]
  cases field <;> rfl

/-- When every call has returned, the atomic words hold what the mutex protects
after the same records in any order.  Under the lock no record panics, unless
overflow is checked and there are more records than a word counts. -/
theorem lockFree_eq_mutex (overflowChecks : Bool) {world : StatsWorld}
    (reachable : statsSystem.Reachable (fun _ _ => True) world)
    (rest : world.state.AtRest) (order : List RecordCall)
    (same : order.Perm (world.state.returned.map Returned.call))
    (fits : (order.map (·.latenceUs.toNat)).sum < u64Bound) :
    (∀ inner, StatsInner.recordAll overflowChecks order = some inner →
      world.state.shared.stats.fields = inner) ∧
    (overflowChecks = false ∨ order.length < u64Bound →
      ∃ inner, StatsInner.recordAll overflowChecks order = some inner) := by
  constructor
  · intro inner run
    refine StatsInner.ext_get fun field => ?_
    rw [fields_of_atRest reachable rest same, get_foldlM_record field run]
  · intro few
    refine exists_foldlM_record (few.imp_right fun few => ?_)
    exact
      { total := by
          show 0 + order.length < 2 ^ 64
          rw [Nat.zero_add]
          exact few
        success := Nat.le_refl _
        failed := Nat.le_refl _
        latenceSum := by
          show 0 + (order.map (·.latenceUs.toNat)).sum < 2 ^ 64
          rw [Nat.zero_add]
          exact fits }

/-- One thread has replaced the minimum that the other one has read, and one
exchange fails for no reason. -/
theorem exists_contended_run :
    ∃ world : StatsWorld,
      statsSystem.Reachable (fun _ _ => True) world ∧
        (decide world.state.AtRest &&
          decide (world.state.returned.map Returned.call =
            [⟨false, 9⟩, ⟨true, 5⟩])) = true :=
  System.exists_reachable_of_replay statsSystem (fun _ _ => True)
    (Pool.idle { stats := ServiceStats.new, weather := ⟨false, 0⟩ })
    [.call 0 ⟨true, 5⟩, .call 1 ⟨false, 9⟩, .run 0, .run 0, .run 0, .run 1, .run 1,
      .run 1, .run 0, .run 1, .run 0, .run 1, .run 1, .run 0,
      .environment ⟨true, 1⟩, .run 0, .environment ⟨false, 0⟩, .run 0, .run 1,
      .run 1]
    (fun _ _ => true) _ ⟨_, rfl, rfl⟩ (fun _ _ _ => trivial) (by decide +kernel)

theorem lockFree_eq_mutex_contended :
    ∃ world : StatsWorld,
      statsSystem.Reachable (fun _ _ => True) world ∧
        some world.state.shared.stats.fields =
          StatsInner.recordAll true [⟨true, 5⟩, ⟨false, 9⟩] := by
  obtain ⟨world, reachable, checked⟩ := exists_contended_run
  rw [Bool.and_eq_true, decide_eq_true_iff, decide_eq_true_iff] at checked
  obtain ⟨rest, returned⟩ := checked
  have agree := lockFree_eq_mutex true reachable rest [⟨true, 5⟩, ⟨false, 9⟩]
    (by rw [returned]; exact List.Perm.swap _ _ _) (by decide)
  obtain ⟨inner, run⟩ := agree.2 (Or.inr (by decide))
  exact ⟨world, reachable, (congrArg some (agree.1 inner run)).trans run.symm⟩

end HautePerformance.Demos.LockFreeStats
