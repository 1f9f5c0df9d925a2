import HautePerformance.Library.WordSums

/-!
# Sums in parallel

`somme_recursive` of `demo03_rayon_pipeline.rs` and the five sums of squares of
`lib.rs`, in either profile: with overflow checks a sum that leaves
`u64` is a panic, without them it wraps around.  Rayon may cut a slice anywhere and
merges the results of the parts in their order.
-/

namespace HautePerformance.Demos.ParallelSums

open Library

/-! ## A recursive sum -/

/-- Slices of no more elements are summed up in sequence. -/
def SEUIL : Nat :=
  4096

/-- `somme_recursive`: a panic in one half of `rayon::join` is one of the whole. -/
def sommeRecursive (overflowChecks : Bool) (data : List UInt64) : Option UInt64 :=
  if data.length ≤ SEUIL then
    sumU64 overflowChecks data
  else do
    let mid := data.length / 2
    let sG ← sommeRecursive overflowChecks (data.take mid)
    let sD ← sommeRecursive overflowChecks (data.drop mid)
    addU64 overflowChecks sG sD
termination_by data.length
decreasing_by
  all_goals
    simp only [List.length_take, List.length_drop, SEUIL] at *
    omega

/-- The recursive sum is that of the slice read from front to back: the same word,
and a panic on the same slices. -/
theorem sommeRecursive_eq_sum (overflowChecks : Bool) (data : List UInt64) :
    sommeRecursive overflowChecks data = sumU64 overflowChecks data := by
  induction data using sommeRecursive.induct with
  | case1 data short => rw [sommeRecursive, if_pos short]
  | case2 data long mid frontHypothesis backHypothesis =>
      have halves :
          ((data.take mid).map UInt64.toNat).sum +
              ((data.drop mid).map UInt64.toNat).sum =
            (data.map UInt64.toNat).sum := by
        rw [← List.sum_append, ← List.map_append, List.take_append_drop]
      have split :
          sommeRecursive overflowChecks data =
            (sommeRecursive overflowChecks (data.take mid)).bind fun sG =>
              (sommeRecursive overflowChecks (data.drop mid)).bind fun sD =>
                addU64 overflowChecks sG sD := by
        rw [sommeRecursive, if_neg long]
        rfl
      rw [split, frontHypothesis, backHypothesis, sumU64_eq_word64, sumU64_eq_word64,
        sumU64_eq_word64, ← halves]
      exact bind_bind_addU64 _ _

/-! ## Sums of squares -/

def carre (overflowChecks : Bool) (x : UInt64) : Option UInt64 :=
  mulU64 overflowChecks x x

/-- `somme_carres_naive`. -/
def sommeCarresNaive (overflowChecks : Bool) (data : List UInt64) : Option UInt64 :=
  data.foldlM
    (fun total x => do
      let value ← carre overflowChecks x
      addU64 overflowChecks total value)
    0

/-- `somme_carres_rayon`: every part is summed up in sequence. -/
def sommeCarresRayon (overflowChecks : Bool) (decoupage : Reduction UInt64 Unit) :
    Option UInt64 :=
  decoupage.run (sommeCarresNaive overflowChecks) 0 fun _ => addU64 overflowChecks

/-- The vector of squares. -/
def carres (overflowChecks : Bool) (data : List UInt64) : Option (List UInt64) :=
  data.foldlM
    (fun carres x => do
      let value ← carre overflowChecks x
      some (carres ++ [value]))
    []

/-- `somme_carres_preallouee`. -/
def sommeCarresPreallouee (overflowChecks : Bool) (data : List UInt64) :
    Option UInt64 := do
  let carres ← carres overflowChecks data
  sumU64 overflowChecks carres

/-- `somme_carres_sans_prealloc`: the vector grows as it is filled. -/
def sommeCarresSansPrealloc (overflowChecks : Bool) (data : List UInt64) :
    Option UInt64 := do
  let carres ← carres overflowChecks data
  sumU64 overflowChecks carres

/-- `somme_carres_alloc_spam`: a vector for each square. -/
def sommeCarresAllocSpam (overflowChecks : Bool) (data : List UInt64) :
    Option UInt64 :=
  data.foldlM
    (fun total x => do
      let value ← carre overflowChecks x
      let tmp := [value]
      let sum ← sumU64 overflowChecks tmp
      addU64 overflowChecks total sum)
    0

/-- The exact sum of the squares. -/
def sommeExacte (data : List UInt64) : Nat :=
  (data.map fun x => x.toNat * x.toNat).sum

section

variable {overflowChecks : Bool}

theorem carre_eq_word64 (x : UInt64) :
    carre overflowChecks x = word64 overflowChecks (x.toNat * x.toNat) :=
  rfl

theorem sommeCarresNaive_eq_word64 (data : List UInt64) :
    sommeCarresNaive overflowChecks data = word64 overflowChecks (sommeExacte data) :=
  foldlM_addU64_eq_word64 carre_eq_word64 data

theorem sommeCarresPreallouee_eq_word64 (data : List UInt64) :
    sommeCarresPreallouee overflowChecks data =
      word64 overflowChecks (sommeExacte data) := by
  have whole := bind_foldlM_concat (@carre_eq_word64 overflowChecks) data []
  rw [List.map_nil, List.sum_nil, Nat.zero_add] at whole
  rw [sommeExacte, ← whole]
  exact congrArg _ (funext sumU64_eq_word64)

/-- A vector of one square. -/
theorem sumU64_singleton (x : UInt64) :
    (do
        let value ← carre overflowChecks x
        let tmp := [value]
        sumU64 overflowChecks tmp) =
      word64 overflowChecks (x.toNat * x.toNat) := by
  rw [← Nat.add_zero (x.toNat * x.toNat), ← bind_word64]
  exact congrArg _ (funext fun value => sumU64_eq_word64 [value])

theorem sommeCarresAllocSpam_eq_word64 (data : List UInt64) :
    sommeCarresAllocSpam overflowChecks data =
      word64 overflowChecks (sommeExacte data) := by
  rw [sommeExacte, ← foldlM_addU64_eq_word64 sumU64_singleton data]
  refine congrArg (fun loop => List.foldlM loop 0 data) ?_
  funext total x
  exact (Option.bind_assoc _ _ _).symm

end

/-- The five sums of squares agree in either profile, however rayon cuts the slice:
they are the exact sum where it is a `u64`; where it is not, all of them panic with
overflow checks, and all of them wrap around to the same word without. -/
theorem sommesCarres_agree (overflowChecks : Bool) (decoupage : Reduction UInt64 Unit) :
    let data := decoupage.items
    let somme := word64 overflowChecks (sommeExacte data)
    sommeCarresNaive overflowChecks data = somme ∧
      sommeCarresRayon overflowChecks decoupage = somme ∧
      sommeCarresPreallouee overflowChecks data = somme ∧
      sommeCarresSansPrealloc overflowChecks data = somme ∧
      sommeCarresAllocSpam overflowChecks data = somme :=
  ⟨sommeCarresNaive_eq_word64 _, decoupage.run_addU64 sommeCarresNaive_eq_word64,
    sommeCarresPreallouee_eq_word64 _, sommeCarresPreallouee_eq_word64 _,
    sommeCarresAllocSpam_eq_word64 _⟩

end HautePerformance.Demos.ParallelSums
