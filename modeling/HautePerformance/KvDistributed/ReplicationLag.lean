import Mathlib.Algebra.GroupWithZero.Nat
import Mathlib.Data.List.Induction

/-!
# The replication lag

`update_replication_lag` of `metrics.rs` keeps a moving average of the latencies of
the puts.  It takes a stored zero for "no sample yet", so that the sample after an
average of zero replaces it instead of being averaged with it.
-/

namespace HautePerformance.KvDistributed

/-- `u64::saturating_mul`. -/
def saturatingMul (a b : UInt64) : UInt64 :=
  if a.toNat * b.toNat < 2 ^ 64 then a * b else 18446744073709551615

/-- `u64::saturating_add`. -/
def saturatingAdd (a b : UInt64) : UInt64 :=
  if a.toNat + b.toNat < 2 ^ 64 then a + b else 18446744073709551615

theorem toNat_saturatingMul {a b : UInt64} (fits : a.toNat * b.toNat < 2 ^ 64) :
    (saturatingMul a b).toNat = a.toNat * b.toNat := by
  rw [saturatingMul, if_pos fits, UInt64.toNat_mul]
  exact Nat.mod_eq_of_lt fits

theorem toNat_saturatingAdd {a b : UInt64} (fits : a.toNat + b.toNat < 2 ^ 64) :
    (saturatingAdd a b).toNat = a.toNat + b.toNat := by
  rw [saturatingAdd, if_pos fits, UInt64.toNat_add]
  exact Nat.mod_eq_of_lt fits

/-- The part of `Metrics` that holds the lag. -/
structure Metrics where
  replicationLagUs : UInt64
  deriving DecidableEq, Repr

namespace Metrics

def new : Metrics :=
  { replicationLagUs := 0 }

/-- `Metrics::update_replication_lag`. -/
def updateReplicationLag (self : Metrics) (latMs : UInt64) : Metrics :=
  let latUs := saturatingMul latMs 1000
  let prev := self.replicationLagUs
  let next :=
    if prev == 0 then latUs
    else saturatingAdd (saturatingMul prev 7) latUs / 8
  { self with replicationLagUs := next }

/-- The stored lag after calls with the latencies, one after the other. -/
def lagAfter (latencies : List UInt64) : UInt64 :=
  (latencies.foldl updateReplicationLag new).replicationLagUs

end Metrics

/-! ## The average that is meant -/

/-- `new = (7*prev + lat) / 8`, in microseconds for a latency in milliseconds. -/
def averageStep (prev : Nat) (latency : UInt64) : Nat :=
  (7 * prev + 1000 * latency.toNat) / 8

/-- The average of a sequence is seeded by the first latency. -/
def average : List UInt64 → Nat
  | [] => 0
  | first :: rest => rest.foldl averageStep (1000 * first.toNat)

theorem average_concat {latencies : List UInt64} (nonempty : latencies ≠ [])
    (latency : UInt64) :
    average (latencies ++ [latency]) =
      averageStep (average latencies) latency := by
  cases latencies with
  | nil => exact absurd rfl nonempty
  | cons first rest =>
      rw [List.cons_append, average, List.foldl_append]
      rfl

/-- Far enough from the end of the range for the arithmetic of the average. -/
def Moderate (latency : UInt64) : Prop :=
  8000 * latency.toNat < 2 ^ 64

/-- The value is between the least and the greatest of the latencies, in
microseconds. -/
def Between (latencies : List UInt64) (value : Nat) : Prop :=
  (∃ least, least ∈ latencies ∧ 1000 * least.toNat ≤ value) ∧
    ∃ greatest, greatest ∈ latencies ∧ value ≤ 1000 * greatest.toNat

/-- No positive latency comes directly after a beginning of the sequence whose
average is zero. -/
def NoSampleAfterZero (latencies : List UInt64) : Prop :=
  ∀ done latency later, latencies = done ++ latency :: later →
    done ≠ [] → average done = 0 → latency = 0

namespace Metrics

/-! ## One call -/

variable {prev latency : UInt64}

theorem lagAfter_concat (latencies : List UInt64) (latency : UInt64) :
    lagAfter (latencies ++ [latency]) =
      (updateReplicationLag ⟨lagAfter latencies⟩ latency).replicationLagUs := by
  rw [lagAfter, List.foldl_append]
  rfl

theorem toNat_latUs (moderate : Moderate latency) :
    (saturatingMul latency 1000).toNat = 1000 * latency.toNat := by
  have small : 8000 * latency.toNat < 2 ^ 64 := moderate
  have fits : latency.toNat * (1000 : UInt64).toNat < 2 ^ 64 := by
    rw [show (1000 : UInt64).toNat = 1000 from rfl]
    omega
  rw [toNat_saturatingMul fits, show (1000 : UInt64).toNat = 1000 from rfl]
  exact Nat.mul_comm _ _

/-- A call with no sample yet, or after an average of zero. -/
theorem update_of_zero (moderate : Moderate latency) (zero : prev = 0) :
    (updateReplicationLag ⟨prev⟩ latency).replicationLagUs.toNat =
      1000 * latency.toNat := by
  simp only [updateReplicationLag, zero, beq_self_eq_true, if_true]
  exact toNat_latUs moderate

/-- A call after a positive average. -/
theorem update_of_positive (moderate : Moderate latency) (positive : prev ≠ 0)
    (bounded : 8 * prev.toNat < 2 ^ 64) :
    (updateReplicationLag ⟨prev⟩ latency).replicationLagUs.toNat =
      averageStep prev.toNat latency := by
  have small : 8000 * latency.toNat < 2 ^ 64 := moderate
  have seven : (saturatingMul prev 7).toNat = 7 * prev.toNat := by
    have fits : prev.toNat * (7 : UInt64).toNat < 2 ^ 64 := by
      rw [show (7 : UInt64).toNat = 7 from rfl]
      omega
    rw [toNat_saturatingMul fits, show (7 : UInt64).toNat = 7 from rfl]
    exact Nat.mul_comm _ _
  have latUs := toNat_latUs moderate
  have fits : (saturatingMul prev 7).toNat +
      (saturatingMul latency 1000).toNat < 2 ^ 64 := by
    rw [seven, latUs]
    omega
  have isPositive : (prev == 0) = false := beq_eq_false_iff_ne.mpr positive
  simp only [updateReplicationLag, isPositive, Bool.false_eq_true, if_false]
  rw [UInt64.toNat_div, toNat_saturatingAdd fits, seven, latUs]
  rfl

/-! ## A sequence of calls -/

variable {latencies : List UInt64}

theorem between_concat {prev : Nat} (between : Between latencies prev) :
    Between (latencies ++ [latency]) (averageStep prev latency) := by
  obtain ⟨⟨least, leastMember, above⟩, greatest, greatestMember, below⟩ :=
    between
  have lastMember : latency ∈ latencies ++ [latency] :=
    List.mem_append_right _ List.mem_cons_self
  have leastListed : least ∈ latencies ++ [latency] :=
    List.mem_append_left _ leastMember
  have greatestListed : greatest ∈ latencies ++ [latency] :=
    List.mem_append_left _ greatestMember
  unfold averageStep
  constructor
  · by_cases order : least.toNat ≤ latency.toNat
    · exact ⟨least, leastListed, by omega⟩
    · exact ⟨latency, lastMember, by omega⟩
  · by_cases order : latency.toNat ≤ greatest.toNat
    · exact ⟨greatest, greatestListed, by omega⟩
    · exact ⟨latency, lastMember, by omega⟩

theorem between_last (latencies : List UInt64) (latency : UInt64) :
    Between (latencies ++ [latency]) (1000 * latency.toNat) := by
  have lastMember : latency ∈ latencies ++ [latency] :=
    List.mem_append_right _ List.mem_cons_self
  exact ⟨⟨latency, lastMember, Nat.le_refl _⟩,
    latency, lastMember, Nat.le_refl _⟩

/-- A stored average is far enough from the end of the range to be averaged. -/
theorem bounded_of_between {value : Nat}
    (moderate : ∀ latency, latency ∈ latencies → Moderate latency)
    (between : Between latencies value) : 8 * value < 2 ^ 64 := by
  obtain ⟨_, greatest, member, below⟩ := between
  have small : 8000 * greatest.toNat < 2 ^ 64 := moderate greatest member
  omega

/-- The lag is always between the least and the greatest latency. -/
theorem between_lagAfter (nonempty : latencies ≠ [])
    (moderate : ∀ latency, latency ∈ latencies → Moderate latency) :
    Between latencies (lagAfter latencies).toNat := by
  induction latencies using List.reverseRecOn with
  | nil => exact absurd rfl nonempty
  | append_singleton done latency inductionHypothesis =>
      have moderateLast : Moderate latency :=
        moderate latency (List.mem_append_right _ List.mem_cons_self)
      have moderateDone (other : UInt64) (member : other ∈ done) :
          Moderate other :=
        moderate other (List.mem_append_left _ member)
      rw [lagAfter_concat]
      by_cases zero : lagAfter done = 0
      · rw [update_of_zero moderateLast zero]
        exact between_last done latency
      · have started : done ≠ [] := by
          rintro rfl
          exact zero rfl
        have between := inductionHypothesis started moderateDone
        rw [update_of_positive moderateLast zero
          (bounded_of_between moderateDone between)]
        exact between_concat between

theorem noSampleAfterZero_of_concat
    (noSample : NoSampleAfterZero (latencies ++ [latency])) :
    NoSampleAfterZero latencies := by
  intro done sample later split started zero
  apply noSample done sample (later ++ [latency]) _ started zero
  rw [split, List.append_assoc, List.cons_append]

/-- Where no positive latency comes after an average of zero, the lag is the
average. -/
theorem lagAfter_eq_average (nonempty : latencies ≠ [])
    (moderate : ∀ latency, latency ∈ latencies → Moderate latency)
    (noSample : NoSampleAfterZero latencies) :
    (lagAfter latencies).toNat = average latencies := by
  induction latencies using List.reverseRecOn with
  | nil => exact absurd rfl nonempty
  | append_singleton done latency inductionHypothesis =>
      have moderateLast : Moderate latency :=
        moderate latency (List.mem_append_right _ List.mem_cons_self)
      have moderateDone (other : UInt64) (member : other ∈ done) :
          Moderate other :=
        moderate other (List.mem_append_left _ member)
      rw [lagAfter_concat]
      by_cases started : done = []
      · rw [started]
        exact update_of_zero moderateLast rfl
      · have soFar := inductionHypothesis started moderateDone
          (noSampleAfterZero_of_concat noSample)
        rw [average_concat started, ← soFar]
        by_cases zero : lagAfter done = 0
        · have averageZero : average done = 0 := by
            rw [← soFar, zero]
            rfl
          have noLatency : latency = 0 :=
            noSample done latency [] rfl started averageZero
          rw [update_of_zero moderateLast zero, noLatency, zero]
          rfl
        · exact update_of_positive moderateLast zero
            (bounded_of_between moderateDone
              (between_lagAfter started moderateDone))

/-- A positive latency after an average of zero is not averaged with it. -/
theorem latency_eq_zero_of_averages {done : List UInt64}
    (moderate : Moderate latency) (started : done ≠ [])
    (before : (lagAfter done).toNat = average done)
    (after : (lagAfter (done ++ [latency])).toNat =
      average (done ++ [latency]))
    (zero : average done = 0) : latency = 0 := by
  have stored : lagAfter done = 0 := by
    apply UInt64.toNat_inj.mp
    rw [before, zero]
    rfl
  have replaced : (lagAfter (done ++ [latency])).toNat =
      1000 * latency.toNat := by
    rw [lagAfter_concat]
    exact update_of_zero moderate stored
  rw [replaced, average_concat started, zero, averageStep] at after
  apply UInt64.toNat_inj.mp
  rw [show (0 : UInt64).toNat = 0 from rfl]
  omega

/-- After every call of a sequence the lag is the average of the latencies so far,
and between the least and the greatest of them, if and only if no positive latency
comes directly after an average of zero. -/
theorem lag_averages_iff
    (moderate : ∀ latency, latency ∈ latencies → Moderate latency) :
    (∀ done, done <+: latencies → done ≠ [] →
      (lagAfter done).toNat = average done ∧
        Between done (lagAfter done).toNat) ↔
      NoSampleAfterZero latencies := by
  constructor
  · intro averages done latency later split started zero
    have longer : done ++ [latency] <+: latencies := by
      refine ⟨later, ?_⟩
      rw [split, List.append_assoc, List.singleton_append]
    have shorter : done <+: latencies := ⟨latency :: later, split.symm⟩
    have member : latency ∈ latencies := by
      rw [split]
      exact List.mem_append_right _ List.mem_cons_self
    exact latency_eq_zero_of_averages (moderate latency member) started
      (averages done shorter started).1
      (averages (done ++ [latency]) longer (by simp)).1 zero
  · rintro noSample done ⟨later, rfl⟩ started
    have moderateDone (latency : UInt64) (member : latency ∈ done) :
        Moderate latency :=
      moderate latency (List.mem_append_left _ member)
    have noSampleDone : NoSampleAfterZero done := by
      intro earlier latency rest split
      apply noSample earlier latency (rest ++ later)
      rw [split, List.append_assoc, List.cons_append]
    exact ⟨lagAfter_eq_average started moderateDone noSampleDone,
      between_lagAfter started moderateDone⟩

/-- Ten milliseconds, then twenty. -/
theorem lag_averages_ten_twenty :
    (lagAfter [10, 20]).toNat = average [10, 20] ∧
      Between [10, 20] (lagAfter [10, 20]).toNat := by
  have moderate : ∀ latency, latency ∈ [(10 : UInt64), 20] →
      Moderate latency := by
    unfold Moderate
    exact List.forall_mem_cons.mpr ⟨by decide, List.forall_mem_singleton.mpr (by decide)⟩
  have noSample : NoSampleAfterZero [10, 20] := by
    intro done latency later split started zero
    rcases done with _ | ⟨first, _ | ⟨second, rest⟩⟩
    · exact absurd rfl started
    · simp only [List.singleton_append, List.cons.injEq] at split
      rw [← split.1] at zero
      cases zero
    · simp at split
  exact (lag_averages_iff moderate).mpr noSample [10, 20]
    (List.prefix_refl _) (by simp)

/-- A first put that takes less than a millisecond, and one of eight milliseconds:
the lag is eight milliseconds and not one. -/
theorem lag_after_zero_sample :
    ¬ ∀ latencies : List UInt64,
      latencies ≠ [] →
      (∀ latency, latency ∈ latencies → Moderate latency) →
      (lagAfter latencies).toNat = average latencies := by
  intro averages
  have moderate : ∀ latency, latency ∈ [(0 : UInt64), 8] →
      Moderate latency := by
    unfold Moderate
    exact List.forall_mem_cons.mpr ⟨by decide, List.forall_mem_singleton.mpr (by decide)⟩
  have equal := averages [0, 8] (by simp) moderate
  exact absurd equal (by decide)

end Metrics

end HautePerformance.KvDistributed
