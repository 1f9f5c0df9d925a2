import HautePerformance.Library.CheckedInteger
import HautePerformance.Library.OrderStatistics

/-!
# Percentiles

The three functions of `exo01_percentiles.rs`: the percentiles of a slice read off
the sorted values, found by partial selection, and counted in a histogram.  A panic
is no value.  Lengths and indices are `usize`, taken as 64 bits.
-/

namespace HautePerformance.Demos.Percentiles

open Library

structure Stats where
  p50 : UInt64
  p99 : UInt64
  max : UInt64
  deriving DecidableEq, Repr

/-- `(n * 99) / 100`. -/
def idxP99 (overflowChecks : Bool) (n : Nat) : Option Nat :=
  (machineWord overflowChecks 64 (n * 99)).map (· / 100)

def statsParTri (overflowChecks : Bool) (data : List UInt64) : Option Stats :=
  -- `assert!(!data.is_empty())`
  if data.isEmpty then none
  else do
    let v := data.insertionSort (· ≤ ·)
    let n := v.length
    let p50 ← v[n / 2]?
    let idx ← idxP99 overflowChecks n
    let p99 ← v[idx]?
    let max ← v[n - 1]?
    some { p50 := p50, p99 := p99, max := max }

/-- `stats_par_select`, with `select_nth_unstable` as a parameter. -/
def statsParSelect (selection : Selection fun a b : UInt64 => a ≤ b)
    (overflowChecks : Bool) (data : List UInt64) : Option Stats :=
  if data.isEmpty then none
  else do
    let n := data.length
    let idxMax := n - 1
    let idxP99 ← idxP99 overflowChecks n
    let idxP50 := n / 2
    if idxP99 = idxMax then
      let v ← selection.run data idxMax
      let max ← v[idxMax]?
      let v ← selection.runOnFront idxMax v idxP50
      let p50 ← v[idxP50]?
      some { p50 := p50, p99 := max, max := max }
    else
      let v ← selection.run data idxMax
      let max ← v[idxMax]?
      let v ← selection.runOnFront idxMax v idxP99
      let p99 ← v[idxP99]?
      let v ← selection.runOnFront idxP99 v idxP50
      let p50 ← v[idxP50]?
      some { p50 := p50, p99 := p99, max := max }

/-! ## The histogram -/

/-- `vec![0u32; length]`, which panics when the vector takes more than
`isize::MAX` bytes. -/
def zeroCounters (length : Nat) : Option (List Nat) :=
  if 4 * length ≤ 2 ^ 63 - 1 then some (List.replicate length 0) else none

/-- What the loop over the data has counted. -/
structure Histogram where
  hist : List Nat
  vraiMax : UInt64

/-- The loop over the data: `hist[v] += 1` on `u32` counters.  A value beyond the
bound panics here, if the debug assertion has not before. -/
def Histogram.count (overflowChecks : Bool) (counted : Histogram)
    (v : UInt64) : Option Histogram := do
  let count ← counted.hist[v.toNat]?
  let next ← machineWord overflowChecks 32 (count + 1)
  some
    { hist := counted.hist.set v.toNat next
      vraiMax := if v > counted.vraiMax then v else counted.vraiMax }

/-- The variables of the loop over the histogram. -/
structure Cumulated where
  cumul : Nat
  p50 : UInt64
  p99 : UInt64
  p50Trouve : Bool

/-- The loop over the counters from `valeur` on. -/
def Cumulated.run (overflowChecks : Bool) (seuilP50 seuilP99 : Nat) :
    Nat → List Nat → Cumulated → Option Cumulated
  | _, [], cumulated => some cumulated
  | valeur, count :: rest, cumulated => do
      let cumul ← machineWord overflowChecks 64 (cumulated.cumul + count)
      let found :=
        if !cumulated.p50Trouve && decide (cumul ≥ seuilP50) then
          { cumulated with
            cumul := cumul, p50 := UInt64.ofNat valeur, p50Trouve := true }
        else { cumulated with cumul := cumul }
      if cumul ≥ seuilP99 then
        some { found with p99 := UInt64.ofNat valeur }
      else
        run overflowChecks seuilP50 seuilP99 (valeur + 1) rest found

def statsParHistogramme (overflowChecks : Bool) (data : List UInt64)
    (borneMax : UInt64) : Option Stats :=
  if data.isEmpty then none
  else do
    let length ← machineWord overflowChecks 64 (borneMax.toNat + 1)
    let hist ← zeroCounters length
    let counted ←
      data.foldlM (Histogram.count overflowChecks)
        { hist := hist, vraiMax := 0 }
    let n := data.length
    let seuilP50 := n / 2 + 1
    let seuilP99 ← (idxP99 overflowChecks n).map (· + 1)
    let cumulated ←
      Cumulated.run overflowChecks seuilP50 seuilP99 0 counted.hist
        { cumul := 0, p50 := 0, p99 := 0, p50Trouve := false }
    some
      { p50 := cumulated.p50, p99 := cumulated.p99, max := counted.vraiMax }

/-! ## What sorting gives -/

/-- The value comes at this place when the data are sorted. -/
abbrev Ranked (data : List UInt64) (rank : Nat) (value : UInt64) : Prop :=
  HasRank (fun a b : UInt64 => a ≤ b) data rank value

/-- The statistics are the values of these ranks. -/
structure Stats.Ranked (stats : Stats) (data : List UInt64) (idx : Nat) :
    Prop where
  p50 : Percentiles.Ranked data (data.length / 2) stats.p50
  p99 : Percentiles.Ranked data idx stats.p99
  max : Percentiles.Ranked data (data.length - 1) stats.max

theorem Stats.Ranked.unique {stats other : Stats} {data : List UInt64}
    {idx : Nat} (ranked : stats.Ranked data idx)
    (otherRanked : other.Ranked data idx) : stats = other := by
  cases stats
  cases other
  rw [Stats.mk.injEq]
  exact ⟨ranked.p50.unique otherRanked.p50, ranked.p99.unique otherRanked.p99,
    ranked.max.unique otherRanked.max⟩

theorem idxP99_eq_some_iff {overflowChecks : Bool} {n idx : Nat} :
    idxP99 overflowChecks n = some idx ↔
      idx = n * 99 % 2 ^ 64 / 100 ∧
        (n * 99 < 2 ^ 64 ∨ overflowChecks = false) := by
  rw [idxP99, Option.map_eq_some_iff]
  constructor
  · rintro ⟨word, exact, rfl⟩
    obtain ⟨rfl, fits⟩ := machineWord_eq_some.mp exact
    exact ⟨rfl, fits⟩
  · rintro ⟨rfl, fits⟩
    exact ⟨_, machineWord_eq_some.mpr ⟨rfl, fits⟩, rfl⟩

theorem idxP99_lt {overflowChecks : Bool} {n idx : Nat}
    (index : idxP99 overflowChecks n = some idx) (positive : 0 < n) :
    idx < n := by
  have atMost : n * 99 % 2 ^ 64 ≤ n * 99 := Nat.mod_le _ _
  rw [(idxP99_eq_some_iff.mp index).1]
  omega

/-- `stats_par_tri` gives the values of the three ranks. -/
theorem statsParTri_eq_some_iff {overflowChecks : Bool} {data : List UInt64}
    {stats : Stats} :
    statsParTri overflowChecks data = some stats ↔
      ∃ idx, idxP99 overflowChecks data.length = some idx ∧
        stats.Ranked data idx := by
  cases data with
  | nil =>
      constructor
      · intro isSome
        cases isSome
      · rintro ⟨idx, _, ranked⟩
        cases ranked.p50.lt_length
  | cons first rest =>
      simp only [statsParTri, List.isEmpty_cons, Bool.false_eq_true, if_false,
        List.length_insertionSort, Option.bind_eq_bind,
        Option.bind_eq_some_iff, Option.some.injEq,
        getElem?_insertionSort_iff]
      constructor
      · rintro ⟨p50, isP50, idx, index, p99, isP99, max, isMax, rfl⟩
        exact ⟨idx, index, isP50, isP99, isMax⟩
      · rintro ⟨idx, index, ranked⟩
        exact ⟨stats.p50, ranked.p50, idx, index, stats.p99, ranked.p99,
          stats.max, ranked.max, rfl⟩

end HautePerformance.Demos.Percentiles
