import HautePerformance.Library.KeyedTotals
import HautePerformance.Library.Reduction

/-!
# The log pipelines

The two pipelines of `demo03_rayon_pipeline.rs`: log lines are parsed, the errors
kept, and their latencies added up for each source.  The parallel one folds chunks
of the lines into maps of their own and merges these with `fusion_hashmaps`.
-/

namespace HautePerformance.Demos.LogPipeline

open Library

structure EvenementLog where
  sourceIp : String
  niveau : String
  latenceMs : UInt32
  deriving DecidableEq, Repr

/-- `str::parse::<u32>`: a plus sign is read over, and there is at least one
digit. -/
def parseU32 (chars : List Char) : Option UInt32 := do
  let digits :=
    match chars with
    | '+' :: rest => rest
    | _ => chars
  if digits.isEmpty then none
  else
    let value ← digits.foldlM
      (fun value c =>
        if c.isDigit ∧ value * 10 + (c.toNat - '0'.toNat) < 2 ^ 32 then
          some (value * 10 + (c.toNat - '0'.toNat))
        else none)
      0
    some (UInt32.ofNat value)

/-- Fields past the third one are not looked at. -/
def parserLigne (ligne : String) : Option EvenementLog :=
  match ligne.toList.splitOn ';' with
  | sourceIp :: niveau :: latence :: _ => do
      let latenceMs ← parseU32 latence
      some
        { sourceIp := String.ofList sourceIp
          niveau := String.ofList niveau
          latenceMs := latenceMs }
  | _ => none

/-- `HashMap<String, u64>`. -/
abbrev Latences := AList fun _ : String => Nat

/-- The two filters that both pipelines begin with. -/
def erreurs (lignes : List String) : List EvenementLog :=
  (lignes.filterMap parserLigne).filter fun e => e.niveau == "ERROR"

/-- The closure of `fold`:
`*acc.entry(e.source_ip).or_insert(0u64) += e.latence_ms as u64`. -/
def accumuler (overflowChecks : Bool) (acc : Latences) (e : EvenementLog) :
    Option Latences :=
  addEntry overflowChecks 64 acc ⟨e.sourceIp, e.latenceMs.toNat⟩

def pipelineSequentiel (overflowChecks : Bool) (lignes : List String) :
    Option Latences :=
  (erreurs lignes).foldlM (accumuler overflowChecks) ∅

/-- The order in which a map is iterated. -/
structure Iteration where
  run : Latences → List (Sigma fun _ : String => Nat)
  perm : ∀ map : Latences, (run map).Perm map.entries

def fusionHashmaps (overflowChecks : Bool) (order : Iteration) (a b : Latences) :
    Option Latences :=
  (order.run b).foldlM (addEntry overflowChecks 64) a

/-- The parallel iterator cuts the lines as the reduction says, every chunk runs
through the filters and the fold, and `reduce` merges the maps. -/
def pipelineParallele (overflowChecks : Bool)
    (decoupage : Reduction String Iteration) : Option Latences :=
  decoupage.run
    (fun lignes => (erreurs lignes).foldlM (accumuler overflowChecks) ∅)
    ∅ (fusionHashmaps overflowChecks)

/-! ## What the maps hold -/

/-- An error as what it adds to the map. -/
def EvenementLog.entry (e : EvenementLog) : Sigma fun _ : String => Nat :=
  ⟨e.sourceIp, e.latenceMs.toNat⟩

theorem erreurs_append (front back : List String) :
    erreurs (front ++ back) = erreurs front ++ erreurs back := by
  rw [erreurs, List.filterMap_append, List.filter_append, erreurs, erreurs]

/-- The latencies of the errors, under their source. -/
def entries (lignes : List String) : List (Sigma fun _ : String => Nat) :=
  (erreurs lignes).map EvenementLog.entry

theorem entries_append (front back : List String) :
    entries (front ++ back) = entries front ++ entries back := by
  rw [entries, erreurs_append, List.map_append, entries, entries]

theorem foldlM_accumuler {overflowChecks : Bool} (events : List EvenementLog)
    (acc : Latences) :
    events.foldlM (accumuler overflowChecks) acc =
      (events.map EvenementLog.entry).foldlM (addEntry overflowChecks 64) acc := by
  rw [List.foldlM_map]
  rfl

/-- No source has more latency than a `u64` holds. -/
def Fits (lignes : List String) : Prop :=
  ∀ ip, amountOf ip (entries lignes) < 2 ^ 64

theorem fits_of_total {lignes : List String}
    (total : ((erreurs lignes).map (·.latenceMs.toNat)).sum < u64Bound) :
    Fits lignes := by
  intro ip
  have sameTotal : (entries lignes).map Sigma.snd =
      (erreurs lignes).map (·.latenceMs.toNat) := by
    rw [entries, List.map_map]
    rfl
  have most : amountOf ip (entries lignes) ≤ ((entries lignes).map Sigma.snd).sum :=
    amountOf_le_sum
  rw [sameTotal] at most
  exact most.trans_lt total

theorem pipelineSequentiel_totals (overflowChecks : Bool) {lignes : List String}
    (fits : Fits lignes) :
    ∃ totals, pipelineSequentiel overflowChecks lignes = some totals ∧
      Totals totals (entries lignes) := by
  rw [pipelineSequentiel, foldlM_accumuler]
  exact Totals.empty.foldlM overflowChecks fits

/-- Chunks and merges of maps stand for the lines that they come from. -/
theorem homomorphism (overflowChecks : Bool) :
    Reduction.Homomorphism
      (fun lignes => (erreurs lignes).foldlM (accumuler overflowChecks) ∅)
      (∅ : Latences) (fusionHashmaps overflowChecks) Fits
      (fun totals lignes => Totals totals (entries lignes)) where
  left := by
    intro front back fits ip
    have whole := fits ip
    rw [entries_append, amountOf_append] at whole
    omega
  right := by
    intro front back fits ip
    have whole := fits ip
    rw [entries_append, amountOf_append] at whole
    omega
  chunk := fun _ fits => pipelineSequentiel_totals overflowChecks fits
  identity := Totals.empty
  merge := by
    intro order a b front back fits left right
    rw [entries_append]
    refine left.merge overflowChecks right (order.perm b) fun ip => ?_
    rw [← entries_append]
    exact fits ip

/-- However the lines are cut and the maps are merged, and in whatever order a map
is iterated, the parallel pipeline gives every source the latency that the
sequential one gives it. -/
theorem pipelineParallele_eq_pipelineSequentiel (overflowChecks : Bool)
    (lignes : List String) (decoupage : Reduction String Iteration)
    (cut : decoupage.items = lignes)
    (total : ((erreurs lignes).map (·.latenceMs.toNat)).sum < u64Bound) :
    ∃ parallel sequential,
      pipelineParallele overflowChecks decoupage = some parallel ∧
      pipelineSequentiel overflowChecks lignes = some sequential ∧
      ∀ ip, parallel.lookup ip = sequential.lookup ip := by
  subst cut
  have fits : Fits decoupage.items := fits_of_total total
  obtain ⟨sequential, sequentialRun, sequentialTotals⟩ :=
    pipelineSequentiel_totals overflowChecks fits
  obtain ⟨parallel, parallelRun, parallelTotals⟩ :=
    (homomorphism overflowChecks).run decoupage fits
  exact ⟨parallel, sequential, parallelRun, sequentialRun,
    parallelTotals.lookup_eq sequentialTotals⟩

/-- The entries of a map from the back, as one order among all. -/
def Iteration.backwards : Iteration where
  run := fun map => map.entries.reverse
  perm := fun map => List.reverse_perm map.entries

/-- Two chunks with a map of nothing between them; of the lines one has no
latency. -/
theorem pipelineParallele_eq_pipelineSequentiel_two_chunks :
    ∃ parallel sequential,
      pipelineParallele true
        (.merge Iteration.backwards
          (.merge Iteration.backwards (.chunk ["a;ERROR;3", "b;ERROR;4"]) .identity)
          (.chunk ["b;ERROR", "b;ERROR;5"])) = some parallel ∧
      pipelineSequentiel true ["a;ERROR;3", "b;ERROR;4", "b;ERROR", "b;ERROR;5"] =
        some sequential ∧
      ∀ ip, parallel.lookup ip = sequential.lookup ip :=
  pipelineParallele_eq_pipelineSequentiel true
    ["a;ERROR;3", "b;ERROR;4", "b;ERROR", "b;ERROR;5"]
    (.merge Iteration.backwards
      (.merge Iteration.backwards (.chunk ["a;ERROR;3", "b;ERROR;4"]) .identity)
      (.chunk ["b;ERROR", "b;ERROR;5"]))
    rfl (by decide)

end HautePerformance.Demos.LogPipeline
