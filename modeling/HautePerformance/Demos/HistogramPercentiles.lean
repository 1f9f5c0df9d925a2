import HautePerformance.Demos.Percentiles

/-!
# Percentiles by counting

The histogram of `stats_par_histogramme` has a counter for each value up to the
bound.  The counters up to a value add up to the number of data that are at most
that value, so the first value at which the sum reaches a threshold is the one of
that rank.
-/

namespace HautePerformance.Demos.Percentiles

open Library

variable {overflowChecks : Bool} {data done : List UInt64}

/-! ## Counting the data -/

/-- How often each value below the length is among the data. -/
def histogramOf (length : Nat) (data : List UInt64) : List Nat :=
  (List.range length).map fun valeur =>
    data.countP fun v => v.toNat = valeur

@[simp]
theorem length_histogramOf (length : Nat) (data : List UInt64) :
    (histogramOf length data).length = length := by
  simp [histogramOf]

theorem histogramOf_nil (length : Nat) :
    histogramOf length [] = List.replicate length 0 := by
  simp [histogramOf, List.map_const']

theorem histogramOf_concat (length : Nat) (done : List UInt64) (v : UInt64) :
    (histogramOf length done).set v.toNat
        (done.countP (fun other => other.toNat = v.toNat) + 1) =
      histogramOf length (done ++ [v]) := by
  apply List.ext_getElem
  · simp
  · intro valeur inRange _
    by_cases same : v.toNat = valeur
    · subst same
      simp [histogramOf]
    · rw [List.getElem_set_ne same]
      simp [histogramOf, same]

/-- One more value is counted. -/
theorem count_histogramOf {length : Nat} {vraiMax v : UInt64}
    (inRange : v.toNat < length) (few : done.length < 2 ^ 32 - 1) :
    Histogram.count overflowChecks
        { hist := histogramOf length done, vraiMax := vraiMax } v =
      some
        { hist := histogramOf length (done ++ [v])
          vraiMax := if v > vraiMax then v else vraiMax } := by
  have counter : (histogramOf length done)[v.toNat]? =
      some (done.countP fun other => other.toNat = v.toNat) := by
    simp [histogramOf, inRange]
  have atMost :
      done.countP (fun other => other.toNat = v.toNat) ≤ done.length :=
    List.countP_le_length
  have fits :
      machineWord overflowChecks 32
          (done.countP (fun other => other.toNat = v.toNat) + 1) =
        some (done.countP (fun other => other.toNat = v.toNat) + 1) :=
    machineWord_of_fits (by omega)
  simp only [Histogram.count, counter, Option.bind_eq_bind, Option.bind_some,
    fits, histogramOf_concat]

/-- The greatest value so far. -/
structure IsMaximum (done : List UInt64) (vraiMax : UInt64) : Prop where
  upper : ∀ v, v ∈ done → v ≤ vraiMax
  reached : vraiMax ∈ done ∨ vraiMax = 0

theorem IsMaximum.concat {vraiMax : UInt64} (isMaximum : IsMaximum done vraiMax)
    (v : UInt64) :
    IsMaximum (done ++ [v]) (if v > vraiMax then v else vraiMax) := by
  split
  · rename_i greater
    constructor
    · intro other member
      rcases List.mem_append.mp member with earlier | isLast
      · exact UInt64.le_trans (isMaximum.upper other earlier)
          (UInt64.le_of_lt greater)
      · rw [List.mem_singleton.mp isLast]
        exact UInt64.le_refl v
    · exact Or.inl (by simp)
  · rename_i notGreater
    constructor
    · intro other member
      rcases List.mem_append.mp member with earlier | isLast
      · exact isMaximum.upper other earlier
      · rw [List.mem_singleton.mp isLast]
        exact UInt64.not_lt.mp notGreater
    · rcases isMaximum.reached with member | isZero
      · exact Or.inl (List.mem_append_left _ member)
      · exact Or.inr isZero

/-- The loop over the data counts them all. -/
theorem foldlM_count {length : Nat} :
    ∀ {done rest : List UInt64} {vraiMax : UInt64},
      IsMaximum done vraiMax →
      (∀ v, v ∈ rest → v.toNat < length) →
      (done ++ rest).length < 2 ^ 32 →
      ∃ greatest,
        rest.foldlM (Histogram.count overflowChecks)
            { hist := histogramOf length done, vraiMax := vraiMax } =
          some
            { hist := histogramOf length (done ++ rest)
              vraiMax := greatest } ∧
          IsMaximum (done ++ rest) greatest := by
  intro done rest
  induction rest generalizing done with
  | nil =>
      intro vraiMax isMaximum _ _
      rw [List.append_nil]
      exact ⟨vraiMax, rfl, isMaximum⟩
  | cons v rest inductionHypothesis =>
      intro vraiMax isMaximum inRange few
      have fewSoFar : done.length < 2 ^ 32 - 1 := by
        rw [List.length_append, List.length_cons] at few
        omega
      have regroup : done ++ v :: rest = done ++ [v] ++ rest := by
        rw [List.append_assoc, List.singleton_append]
      rw [regroup] at few ⊢
      rw [List.foldlM_cons,
        count_histogramOf (inRange v List.mem_cons_self) fewSoFar]
      exact inductionHypothesis (isMaximum.concat v)
        (fun other member => inRange other (List.mem_cons_of_mem v member)) few

/-! ## Adding up the counters -/

/-- How many of the data are less than the value. -/
def countBelow (data : List UInt64) (valeur : Nat) : Nat :=
  data.countP fun v => v.toNat < valeur

theorem countBelow_succ (data : List UInt64) (valeur : Nat) :
    countBelow data valeur + data.countP (fun v => v.toNat = valeur) =
      countBelow data (valeur + 1) := by
  induction data with
  | nil => rfl
  | cons v rest inductionHypothesis =>
      simp only [countBelow, List.countP_cons, decide_eq_true_eq]
        at inductionHypothesis ⊢
      rcases Nat.lt_trichotomy v.toNat valeur with less | same | greater
      · rw [if_pos less, if_neg (by omega), if_pos (by omega)]
        omega
      · rw [if_neg (by omega), if_pos same, if_pos (by omega)]
        omega
      · rw [if_neg (by omega), if_neg (by omega), if_neg (by omega)]
        omega

theorem countBelow_le_length (data : List UInt64) (valeur : Nat) :
    countBelow data valeur ≤ data.length :=
  List.countP_le_length

/-- The value at which the count passes the rank. -/
theorem ranked_of_countBelow {rank valeur : Nat} (isWord : valeur < 2 ^ 64)
    (few : countBelow data valeur ≤ rank)
    (many : rank < countBelow data (valeur + 1)) :
    Ranked data rank (UInt64.ofNat valeur) := by
  have word : (UInt64.ofNat valeur).toNat = valeur := by
    rw [UInt64.toNat_ofNat']
    exact Nat.mod_eq_of_lt isWord
  have before : (fun v : UInt64 => decide ¬ UInt64.ofNat valeur ≤ v) =
      fun v => decide (v.toNat < valeur) := by
    funext v
    simp only [UInt64.le_iff_toNat_le, word, Nat.not_le]
  have upTo : (fun v : UInt64 => decide (v ≤ UInt64.ofNat valeur)) =
      fun v => decide (v.toNat < valeur + 1) := by
    funext v
    simp only [UInt64.le_iff_toNat_le, word, Nat.lt_succ_iff]
  constructor
  · rw [before]
    exact few
  · rw [upTo]
    exact many

/-- The loop has not reached the 99th percentile, and knows the median if it has
passed it. -/
structure Scanned (data : List UInt64) (idx valeur : Nat)
    (cumulated : Cumulated) : Prop where
  cumul : cumulated.cumul = countBelow data valeur
  notReached : countBelow data valeur ≤ idx
  found : cumulated.p50Trouve = true →
    Ranked data (data.length / 2) cumulated.p50
  notFound : cumulated.p50Trouve = false →
    countBelow data valeur ≤ data.length / 2

/-- The variables after one more counter. -/
def Cumulated.add (seuilP50 valeur cumul : Nat) (cumulated : Cumulated) :
    Cumulated :=
  if !cumulated.p50Trouve && decide (cumul ≥ seuilP50) then
    { cumulated with
      cumul := cumul, p50 := UInt64.ofNat valeur, p50Trouve := true }
  else { cumulated with cumul := cumul }

theorem Cumulated.run_cons {seuilP50 seuilP99 valeur count cumul : Nat}
    {rest : List Nat} {cumulated : Cumulated}
    (sum : machineWord overflowChecks 64 (cumulated.cumul + count) =
      some cumul) :
    run overflowChecks seuilP50 seuilP99 valeur (count :: rest) cumulated =
      if cumul ≥ seuilP99 then
        some
          { cumulated.add seuilP50 valeur cumul with
            p99 := UInt64.ofNat valeur }
      else
        run overflowChecks seuilP50 seuilP99 (valeur + 1) rest
          (cumulated.add seuilP50 valeur cumul) := by
  simp only [run, sum, Option.bind_eq_bind, Option.bind_some]
  rfl

/-- The median is noted at the value that passes it, and kept from then on. -/
theorem Scanned.add {idx valeur : Nat} {cumulated : Cumulated}
    (scanned : Scanned data idx valeur cumulated) (isWord : valeur < 2 ^ 64) :
    let added :=
      cumulated.add (data.length / 2 + 1) valeur (countBelow data (valeur + 1))
    added.cumul = countBelow data (valeur + 1) ∧
      (added.p50Trouve = true → Ranked data (data.length / 2) added.p50) ∧
      (added.p50Trouve = false →
        countBelow data (valeur + 1) ≤ data.length / 2) := by
  intro added
  cases known : cumulated.p50Trouve with
  | true =>
      have isAdded : added =
          { cumulated with cumul := countBelow data (valeur + 1) } := by
        simp [added, Cumulated.add, known]
      rw [isAdded]
      refine ⟨rfl, fun _ => scanned.found known, ?_⟩
      intro unknown
      rw [known] at unknown
      cases unknown
  | false =>
      by_cases passes : data.length / 2 + 1 ≤ countBelow data (valeur + 1)
      · have isAdded : added =
            { cumulated with
              cumul := countBelow data (valeur + 1)
              p50 := UInt64.ofNat valeur
              p50Trouve := true } := by
          simp [added, Cumulated.add, known, passes]
        rw [isAdded]
        refine ⟨rfl, fun _ => ?_, fun unknown => by cases unknown⟩
        exact ranked_of_countBelow isWord (scanned.notFound known) passes
      · have isAdded : added =
            { cumulated with cumul := countBelow data (valeur + 1) } := by
          simp [added, Cumulated.add, known, passes]
        rw [isAdded]
        refine ⟨rfl, fun noted => ?_, fun _ => by omega⟩
        rw [known] at noted
        cases noted

/-- The loop finds the values of both ranks. -/
theorem exists_run {idx : Nat} (order : data.length / 2 ≤ idx)
    (few : data.length < 2 ^ 64) :
    ∀ {count valeur : Nat} {cumulated : Cumulated},
      Scanned data idx valeur cumulated →
      valeur + count ≤ 2 ^ 64 →
      idx < countBelow data (valeur + count) →
      ∃ final,
        Cumulated.run overflowChecks (data.length / 2 + 1) (idx + 1) valeur
            ((List.range' valeur count).map fun valeur =>
              data.countP fun v => v.toNat = valeur)
            cumulated =
          some final ∧
        Ranked data (data.length / 2) final.p50 ∧
        Ranked data idx final.p99 := by
  intro count
  induction count with
  | zero =>
      intro valeur cumulated scanned _ beyond
      exact absurd beyond (Nat.not_lt.mpr scanned.notReached)
  | succ count inductionHypothesis =>
      intro valeur cumulated scanned inRange beyond
      have isWord : valeur < 2 ^ 64 := by omega
      have sum :
          machineWord overflowChecks 64
              (cumulated.cumul +
                data.countP fun v => v.toNat = valeur) =
            some (countBelow data (valeur + 1)) := by
        rw [scanned.cumul, countBelow_succ]
        have atMost := countBelow_le_length data (valeur + 1)
        exact machineWord_of_fits (by omega)
      obtain ⟨cumul, found, notFound⟩ := scanned.add isWord
      rw [List.range'_succ, List.map_cons, Cumulated.run_cons sum]
      by_cases reached : countBelow data (valeur + 1) ≥ idx + 1
      · rw [if_pos reached]
        refine ⟨_, rfl, ?_, ?_⟩
        · apply found
          by_contra unknown
          have early := notFound (Bool.eq_false_iff.mpr unknown)
          omega
        · exact ranked_of_countBelow isWord scanned.notReached reached
      · rw [if_neg reached]
        have oneMore : valeur + (count + 1) = valeur + 1 + count := by omega
        rw [oneMore] at inRange beyond
        exact inductionHypothesis
          { cumul := cumul
            notReached := by omega
            found := found
            notFound := notFound }
          inRange beyond

/-! ## The three functions agree -/

theorem IsMaximum.ranked {vraiMax : UInt64} (isMaximum : IsMaximum data vraiMax)
    (notEmpty : data ≠ []) : Ranked data (data.length - 1) vraiMax := by
  have positive : 0 < data.length := List.length_pos_of_ne_nil notEmpty
  have member : vraiMax ∈ data := by
    rcases isMaximum.reached with member | isZero
    · exact member
    · obtain ⟨first, rest, rfl⟩ := List.exists_cons_of_ne_nil notEmpty
      have atMostZero : first ≤ vraiMax := isMaximum.upper first List.mem_cons_self
      have same : first = vraiMax := by
        rw [isZero, UInt64.le_iff_toNat_le] at atMostZero
        rw [isZero]
        exact UInt64.toNat_inj.mp (Nat.le_zero.mp atMostZero)
      rw [← same]
      exact List.mem_cons_self
  constructor
  · have notAll :
        data.countP (fun v => ¬ vraiMax ≤ v) ≠ data.length := by
      intro all
      have notSelf := List.countP_eq_length.mp all vraiMax member
      simp at notSelf
    have atMost : data.countP (fun v => ¬ vraiMax ≤ v) ≤ data.length :=
      List.countP_le_length
    omega
  · have all : data.countP (fun v => v ≤ vraiMax) = data.length :=
      List.countP_eq_length.mpr fun v inData => by
        simpa using isMaximum.upper v inData
    omega

variable {borneMax : UInt64}

theorem countBelow_eq_length (inRange : ∀ v, v ∈ data → v ≤ borneMax) :
    countBelow data (borneMax.toNat + 1) = data.length := by
  refine List.countP_eq_length.mpr fun v member => ?_
  have atMost := UInt64.le_iff_toNat_le.mp (inRange v member)
  simpa using Nat.lt_succ_of_le atMost

/-- A histogram that fits gives the values of the three ranks. -/
theorem exists_statsParHistogramme (notEmpty : data ≠ [])
    (few : data.length < 2 ^ 32) (inRange : ∀ v, v ∈ data → v ≤ borneMax)
    (fits : borneMax.toNat < 2 ^ 61 - 1) :
    ∃ stats idx,
      statsParHistogramme overflowChecks data borneMax = some stats ∧
        idxP99 overflowChecks data.length = some idx ∧
        stats.Ranked data idx := by
  have positive : 0 < data.length := List.length_pos_of_ne_nil notEmpty
  have length :
      machineWord overflowChecks 64 (borneMax.toNat + 1) =
        some (borneMax.toNat + 1) :=
    machineWord_of_fits (by omega)
  have counters : zeroCounters (borneMax.toNat + 1) =
      some (histogramOf (borneMax.toNat + 1) []) := by
    rw [zeroCounters, if_pos (by omega), histogramOf_nil]
  have nothing : IsMaximum [] 0 :=
    ⟨fun _ member => (by cases member), Or.inr rfl⟩
  obtain ⟨vraiMax, counted, isMaximum⟩ :
      ∃ vraiMax,
        data.foldlM (Histogram.count overflowChecks)
            { hist := histogramOf (borneMax.toNat + 1) [], vraiMax := 0 } =
          some
            { hist := histogramOf (borneMax.toNat + 1) data
              vraiMax := vraiMax } ∧
          IsMaximum data vraiMax :=
    foldlM_count nothing
      (fun v member =>
        Nat.lt_succ_of_le (UInt64.le_iff_toNat_le.mp (inRange v member)))
      few
  have index : idxP99 overflowChecks data.length =
      some (data.length * 99 / 100) := by
    rw [idxP99, machineWord_of_fits (by omega)]
    rfl
  have scanned :
      Scanned data (data.length * 99 / 100) 0
        { cumul := 0, p50 := 0, p99 := 0, p50Trouve := false } := by
    have nothing : countBelow data 0 = 0 := by simp [countBelow]
    exact
      { cumul := nothing.symm
        notReached := by rw [nothing]; exact Nat.zero_le _
        found := fun known => (by cases known)
        notFound := fun _ => by rw [nothing]; exact Nat.zero_le _ }
  obtain ⟨final, added, isP50, isP99⟩ :
      ∃ final,
        Cumulated.run overflowChecks (data.length / 2 + 1)
            (data.length * 99 / 100 + 1) 0
            (histogramOf (borneMax.toNat + 1) data)
            { cumul := 0, p50 := 0, p99 := 0, p50Trouve := false } =
          some final ∧
        Ranked data (data.length / 2) final.p50 ∧
        Ranked data (data.length * 99 / 100) final.p99 := by
    rw [histogramOf, List.range_eq_range']
    refine exists_run (by omega) (by omega) scanned (by omega) ?_
    rw [Nat.zero_add, countBelow_eq_length inRange]
    omega
  refine ⟨{ p50 := final.p50, p99 := final.p99, max := vraiMax }, _, ?_, index,
    isP50, isP99, isMaximum.ranked notEmpty⟩
  simp [statsParHistogramme, notEmpty, length, counters, counted, index, added]

/-- A histogram that does not fit is a panic. -/
theorem statsParHistogramme_eq_none (notEmpty : data ≠ [])
    (tooMany : 2 ^ 61 - 1 ≤ borneMax.toNat) :
    statsParHistogramme overflowChecks data borneMax = none := by
  by_cases isWord : borneMax.toNat + 1 < 2 ^ 64
  · have length :
        machineWord overflowChecks 64 (borneMax.toNat + 1) =
          some (borneMax.toNat + 1) :=
      machineWord_of_fits isWord
    have counters : zeroCounters (borneMax.toNat + 1) = none :=
      if_neg (by omega)
    simp [statsParHistogramme, notEmpty, length, counters]
  · -- The length overflows: it is not computed, or it is zero.
    have isLast : borneMax.toNat + 1 = 2 ^ 64 := by
      have isBelow := borneMax.toNat_lt
      omega
    obtain ⟨first, rest, rfl⟩ := List.exists_cons_of_ne_nil notEmpty
    cases overflowChecks with
    | true =>
        simp [statsParHistogramme, isLast, machineWord]
    | false =>
        simp [statsParHistogramme, isLast, machineWord, zeroCounters,
          Histogram.count]

/-- `stats_par_histogramme` returns what `stats_par_tri` returns if and only if its
counters fit in a vector, and panics when they do not. -/
theorem histogram_eq_sorted_iff (overflowChecks : Bool)
    (notEmpty : data ≠ []) (few : data.length < 2 ^ 32)
    (inRange : ∀ v, v ∈ data → v ≤ borneMax) :
    ((∃ stats,
        statsParHistogramme overflowChecks data borneMax = some stats ∧
          statsParTri overflowChecks data = some stats) ↔
        borneMax.toNat < 2 ^ 61 - 1) ∧
      (2 ^ 61 - 1 ≤ borneMax.toNat →
        statsParHistogramme overflowChecks data borneMax = none) := by
  refine ⟨?_, statsParHistogramme_eq_none notEmpty⟩
  constructor
  · rintro ⟨stats, counted, _⟩
    by_contra tooMany
    rw [statsParHistogramme_eq_none notEmpty (by omega)] at counted
    cases counted
  · intro fits
    obtain ⟨stats, idx, counted, index, ranked⟩ :=
      exists_statsParHistogramme notEmpty few inRange fits
    exact ⟨stats, counted, statsParTri_eq_some_iff.mpr ⟨idx, index, ranked⟩⟩

/-- Five values in a histogram of six counters. -/
theorem histogram_eq_sorted_five_values :
    ∃ stats,
      statsParHistogramme true [5, 1, 3, 3, 2] 5 = some stats ∧
        statsParTri true [5, 1, 3, 3, 2] = some stats := by
  have inRange : ∀ v, v ∈ [(5 : UInt64), 1, 3, 3, 2] → v ≤ 5 := by
    intro v member
    simp only [List.mem_cons, List.not_mem_nil, or_false] at member
    rcases member with rfl | rfl | rfl | rfl | rfl <;> decide
  exact (histogram_eq_sorted_iff true (by simp) (by decide) inRange).1.mpr
    (by decide)

/-- No vector holds a counter for each `u64`. -/
theorem histogram_beyond_capacity :
    ¬ ∀ (overflowChecks : Bool) (data : List UInt64) (borneMax : UInt64),
      borneMax.toNat < 2 ^ 64 - 1 →
      data ≠ [] →
      data.length < 2 ^ 32 →
      (∀ v, v ∈ data → v ≤ borneMax) →
      ∃ stats,
        statsParHistogramme overflowChecks data borneMax = some stats ∧
          statsParTri overflowChecks data = some stats := by
  intro equal
  have inRange : ∀ v, v ∈ [(0 : UInt64)] → v ≤ 18446744073709551614 :=
    fun v member => List.mem_singleton.mp member ▸ by decide
  obtain ⟨stats, counted, _⟩ :=
    equal true [0] 18446744073709551614 (by decide) (by simp) (by decide) inRange
  have panics : statsParHistogramme true [0] 18446744073709551614 = none :=
    statsParHistogramme_eq_none (by simp) (by decide)
  rw [panics] at counted
  cases counted

end HautePerformance.Demos.Percentiles
