import HautePerformance.Library.CheckedInteger
import HautePerformance.Library.Reduction

/-!
# Sums of words in any shape

The word of an exact number: wrapped around where overflow is not checked, and a
panic where it is and the number leaves the range.  Additions of words give the word
of the exact sum, whatever their shape.  A panic on the way is a panic of the whole,
since parts of a sum of natural numbers are not greater than the sum.
-/

namespace HautePerformance.Library

variable {overflowChecks : Bool}

def word64 (overflowChecks : Bool) (exact : Nat) : Option UInt64 :=
  (machineWord overflowChecks 64 exact).map UInt64.ofNat

/-- `a * b` on `u64`. -/
def mulU64 (overflowChecks : Bool) (a b : UInt64) : Option UInt64 :=
  word64 overflowChecks (a.toNat * b.toNat)

/-- `values.sum()` on `u64`. -/
def sumU64 (overflowChecks : Bool) (values : List UInt64) : Option UInt64 :=
  values.foldlM (addU64 overflowChecks) 0

theorem addU64_eq_word64 (a b : UInt64) :
    addU64 overflowChecks a b = word64 overflowChecks (a.toNat + b.toNat) :=
  rfl

theorem word64_unchecked (exact : Nat) : word64 false exact = some (UInt64.ofNat exact) := by
  unfold word64 machineWord
  split
  · rfl
  · exact congrArg some UInt64.ofNat_mod_size

theorem word64_of_fits {exact : Nat} (fits : exact < 2 ^ 64) :
    word64 overflowChecks exact = some (UInt64.ofNat exact) := by
  rw [word64, machineWord_of_fits fits]
  rfl

theorem word64_of_exceeds {exact : Nat} (exceeds : 2 ^ 64 ≤ exact) :
    word64 true exact = none := by
  rw [word64, machineWord, if_neg (Nat.not_lt.mpr exceeds)]
  rfl

/-- What is added to a word is added to its exact number. -/
theorem bind_word64 (first second : Nat) :
    ((word64 overflowChecks first).bind fun a =>
        word64 overflowChecks (a.toNat + second)) =
      word64 overflowChecks (first + second) := by
  cases overflowChecks with
  | false =>
      rw [word64_unchecked, Option.bind_some, word64_unchecked, word64_unchecked,
        UInt64.ofNat_add, UInt64.ofNat_toNat, ← UInt64.ofNat_add]
  | true =>
      by_cases fits : first < 2 ^ 64
      · have same : (UInt64.ofNat first).toNat = first := UInt64.toNat_ofNat_of_lt' fits
        rw [word64_of_fits fits, Option.bind_some, same]
      · have exceeds : 2 ^ 64 ≤ first := Nat.le_of_not_lt fits
        rw [word64_of_exceeds exceeds,
          word64_of_exceeds (exceeds.trans (Nat.le_add_right _ _))]
        rfl

/-- The sum of two words. -/
theorem bind_bind_addU64 (first second : Nat) :
    ((word64 overflowChecks first).bind fun a =>
        (word64 overflowChecks second).bind fun b => addU64 overflowChecks a b) =
      word64 overflowChecks (first + second) := by
  have inner : ∀ a : UInt64,
      ((word64 overflowChecks second).bind fun b => addU64 overflowChecks a b) =
        word64 overflowChecks (a.toNat + second) := by
    intro a
    rw [Nat.add_comm, ← bind_word64]
    exact congrArg _ (funext fun b => by rw [addU64_eq_word64, Nat.add_comm])
  simp only [inner]
  exact bind_word64 first second

section Terms

variable {Item : Type} {term : Item → Option UInt64} {exact : Item → Nat}

/-- A loop that adds up terms, one after the other. -/
theorem bind_foldlM_addU64
    (isWord : ∀ item, term item = word64 overflowChecks (exact item))
    (items : List Item) :
    ∀ start : Nat,
      ((word64 overflowChecks start).bind fun first =>
          items.foldlM
            (fun total item => do
              let value ← term item
              addU64 overflowChecks total value)
            first) =
        word64 overflowChecks (start + (items.map exact).sum) := by
  induction items with
  | nil =>
      intro start
      exact Option.bind_fun_some _
  | cons item rest inductionHypothesis =>
      intro start
      rw [List.map_cons, List.sum_cons, ← Nat.add_assoc, ← inductionHypothesis,
        ← bind_bind_addU64 start (exact item), Option.bind_assoc, ← isWord]
      rfl

/-- The sum of the terms of a list. -/
theorem foldlM_addU64_eq_word64
    (isWord : ∀ item, term item = word64 overflowChecks (exact item))
    (items : List Item) :
    items.foldlM
        (fun total item => do
          let value ← term item
          addU64 overflowChecks total value)
        0 =
      word64 overflowChecks (items.map exact).sum := by
  have whole := bind_foldlM_addU64 isWord items 0
  rwa [Nat.zero_add] at whole

/-- Terms that are put into a list first, and then added up. -/
theorem bind_foldlM_concat
    (isWord : ∀ item, term item = word64 overflowChecks (exact item))
    (items : List Item) :
    ∀ values : List UInt64,
      ((items.foldlM
            (fun values item => do
              let value ← term item
              some (values ++ [value]))
            values).bind fun values =>
          word64 overflowChecks (values.map UInt64.toNat).sum) =
        word64 overflowChecks
          ((values.map UInt64.toNat).sum + (items.map exact).sum) := by
  induction items with
  | nil =>
      intro values
      rfl
  | cons item rest inductionHypothesis =>
      intro values
      have later : ∀ value : UInt64,
          ((rest.foldlM
                (fun values item => do
                  let value ← term item
                  some (values ++ [value]))
                (values ++ [value])).bind fun values =>
              word64 overflowChecks (values.map UInt64.toNat).sum) =
            word64 overflowChecks
              (value.toNat + ((values.map UInt64.toNat).sum + (rest.map exact).sum)) := by
        intro value
        rw [inductionHypothesis, List.map_append, List.sum_append]
        simp only [List.map_cons, List.map_nil, List.sum_cons, List.sum_nil, Nat.add_zero]
        exact congrArg _ (by omega)
      have head :
          ((word64 overflowChecks (exact item)).bind fun value =>
              word64 overflowChecks
                (value.toNat +
                  ((values.map UInt64.toNat).sum + (rest.map exact).sum))) =
            word64 overflowChecks
              (exact item + ((values.map UInt64.toNat).sum + (rest.map exact).sum)) :=
        bind_word64 _ _
      rw [List.map_cons, List.sum_cons, List.foldlM_cons]
      simp only [isWord, Option.bind_eq_bind, Option.bind_assoc, Option.bind_some] at later ⊢
      simp only [later, head]
      exact congrArg _ (by omega)

end Terms

theorem sumU64_eq_word64 (values : List UInt64) :
    sumU64 overflowChecks values =
      word64 overflowChecks (values.map UInt64.toNat).sum := by
  have isWord : ∀ value : UInt64,
      some value = word64 overflowChecks value.toNat := by
    intro value
    rw [word64_of_fits value.toNat_lt, UInt64.ofNat_toNat]
  exact foldlM_addU64_eq_word64 isWord values

/-- Chunks that are added up on their own, and their sums along a tree. -/
theorem Reduction.run_addU64 {Item : Type} {fold : List Item → Option UInt64}
    {exact : Item → Nat}
    (isWord : ∀ items, fold items = word64 overflowChecks (items.map exact).sum)
    (reduction : Reduction Item Unit) :
    reduction.run fold 0 (fun _ => addU64 overflowChecks) =
      word64 overflowChecks (reduction.items.map exact).sum := by
  induction reduction with
  | chunk items => exact isWord items
  | identity => rfl
  | merge choice left right leftHypothesis rightHypothesis =>
      rw [Reduction.run, leftHypothesis, rightHypothesis, Reduction.items,
        List.map_append, List.sum_append]
      exact bind_bind_addU64 _ _

end HautePerformance.Library
