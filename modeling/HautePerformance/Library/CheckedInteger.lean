import Mathlib.Algebra.GroupWithZero.Nat
import Mathlib.Algebra.Order.Group.Nat
import Mathlib.Data.Int.Order.Basic

/-!
# Checked arithmetic

Machine integers as numbers in their range.  An operation that leaves the range is
a panic, and has no value.
-/

namespace HautePerformance.Library

/-- The numbers of a `u64` stay below. -/
def u64Bound : Nat := 2 ^ 64

/-- The numbers of an `i64` stay below, and do not go below its negative. -/
def i64Bound : Nat := 2 ^ 63

/-- `a + b` on `u64`. -/
def checkedAdd (a b : Nat) : Option Nat :=
  if a + b < u64Bound then some (a + b) else none

theorem checkedAdd_eq_some {a b sum : Nat} :
    checkedAdd a b = some sum ↔ a + b < u64Bound ∧ sum = a + b := by
  by_cases fits : a + b < u64Bound
  · simp [checkedAdd, fits, eq_comm]
  · simp [checkedAdd, fits]

/-- `values.sum()` on `u64`. -/
def checkedSum (values : List Nat) : Option Nat :=
  values.foldlM checkedAdd 0

theorem foldlM_checkedAdd {values : List Nat} :
    ∀ {start : Nat},
      start + values.sum < u64Bound →
      values.foldlM checkedAdd start = some (start + values.sum) := by
  induction values with
  | nil =>
      intro start _
      rfl
  | cons value rest inductionHypothesis =>
      intro start fits
      rw [List.sum_cons] at fits ⊢
      have first : checkedAdd start value = some (start + value) :=
        checkedAdd_eq_some.mpr ⟨by omega, rfl⟩
      rw [List.foldlM_cons, first, Option.bind_eq_bind, Option.bind_some,
        inductionHypothesis (by omega), Nat.add_assoc]

theorem checkedSum_of_fits {values : List Nat} (fits : values.sum < u64Bound) :
    checkedSum values = some values.sum := by
  rw [checkedSum, foldlM_checkedAdd (by omega), Nat.zero_add]

/-- `a as i64` of a `u64`. -/
def asI64 (a : Nat) : Int :=
  Int.bmod a u64Bound

theorem asI64_of_fits {a : Nat} (fits : a < i64Bound) : asI64 a = a := by
  have small : a < 2 ^ 63 := fits
  rw [asI64, u64Bound, Int.bmod_def]
  omega

/-- `a - b` on `i64`. -/
def checkedSub (a b : Int) : Option Int :=
  if -(i64Bound : Int) ≤ a - b ∧ a - b < i64Bound then some (a - b) else none

theorem checkedSub_of_fits {a b : Nat} (left : a < i64Bound)
    (right : b < i64Bound) : checkedSub a b = some ((a : Int) - b) := by
  rw [checkedSub, if_pos (by omega)]

/-! ## Either profile -/

/-- The result of an operation on a machine word of so many bits: a panic when it
leaves the range and overflow is checked, and wrapped around when it is not. -/
def machineWord (overflowChecks : Bool) (bits exact : Nat) : Option Nat :=
  if exact < 2 ^ bits then some exact
  else if overflowChecks then none
  else some (exact % 2 ^ bits)

theorem machineWord_of_fits {overflowChecks : Bool} {bits exact : Nat}
    (fits : exact < 2 ^ bits) :
    machineWord overflowChecks bits exact = some exact :=
  if_pos fits

theorem machineWord_eq_some {overflowChecks : Bool} {bits exact word : Nat} :
    machineWord overflowChecks bits exact = some word ↔
      word = exact % 2 ^ bits ∧ (exact < 2 ^ bits ∨ overflowChecks = false) := by
  unfold machineWord
  split
  · rename_i fits
    rw [Nat.mod_eq_of_lt fits]
    simp [fits, eq_comm]
  · rename_i exceeds
    cases overflowChecks with
    | true => simp [exceeds]
    | false => simp [eq_comm]

/-- `a + b` on `u64`, as words. -/
def addU64 (overflowChecks : Bool) (a b : UInt64) : Option UInt64 :=
  (machineWord overflowChecks 64 (a.toNat + b.toNat)).map UInt64.ofNat

theorem addU64_eq_some {overflowChecks : Bool} {a b sum : UInt64} :
    addU64 overflowChecks a b = some sum ↔
      sum = a + b ∧
        (a.toNat + b.toNat < 2 ^ 64 ∨ overflowChecks = false) := by
  have wrapped : UInt64.ofNat ((a.toNat + b.toNat) % 2 ^ 64) = a + b := by
    rw [UInt64.ofNat_mod_size, UInt64.ofNat_add, UInt64.ofNat_toNat,
      UInt64.ofNat_toNat]
  simp only [addU64, Option.map_eq_some_iff, machineWord_eq_some]
  constructor
  · rintro ⟨word, ⟨rfl, allowed⟩, rfl⟩
    exact ⟨wrapped, allowed⟩
  · rintro ⟨rfl, allowed⟩
    exact ⟨_, ⟨rfl, allowed⟩, wrapped⟩

end HautePerformance.Library
