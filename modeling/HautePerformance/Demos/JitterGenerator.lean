import Mathlib.Data.Fintype.Basic
import Mathlib.Dynamics.PeriodicPts.Lemmas
import HautePerformance.Library.ShiftXor

/-!
# The jitter generator

`SimpleRng` of `demo_3_4b_retry_backoff.rs`, which draws the jitter of the retry
delays.  Its transition is a composition of shifts and exclusive ors and merges no
two states, so the generator comes back to every state that it has been in and
never falls into the state zero, which it could not leave.

The division of `next_f64` is one of doubles, and is left at its numerator.
-/

namespace HautePerformance.Demos

open Library

structure SimpleRng where
  state : UInt64
  deriving DecidableEq, Repr

namespace SimpleRng

def new (seed : UInt64) : SimpleRng where
  state := seed ||| 1

/-- The value drawn, and the generator after that. -/
def nextU64 (self : SimpleRng) : UInt64 × SimpleRng :=
  let x := self.state
  let x := x ^^^ (x <<< 13)
  let x := x ^^^ (x >>> 7)
  let x := x ^^^ (x <<< 17)
  (x, { state := x })

/-- What `next_f64` divides by `1u64 << 53`. -/
def nextF64Numerator (self : SimpleRng) : UInt64 × SimpleRng :=
  let (x, self) := self.nextU64
  (x >>> 11, self)

/-- The transition from one state to the next. -/
def advance (self : SimpleRng) : SimpleRng :=
  self.nextU64.2

/-- The generator after so many calls of `next_u64`. -/
def after (self : SimpleRng) (calls : Nat) : SimpleRng :=
  advance^[calls] self

/-! ## The transition -/

theorem ext_toBitVec {first second : SimpleRng}
    (same : first.state.toBitVec = second.state.toBitVec) : first = second := by
  obtain ⟨state⟩ := first
  obtain ⟨other⟩ := second
  exact congrArg SimpleRng.mk (UInt64.toBitVec_inj.mp same)

/-- The three shifts, on the bits of the state. -/
theorem toBitVec_advance (self : SimpleRng) :
    self.advance.state.toBitVec =
      (Shift.left 64).mix 17
        ((Shift.right 64).mix 7 ((Shift.left 64).mix 13 self.state.toBitVec)) :=
  rfl

theorem advance_injective : Function.Injective advance := by
  intro first second same
  have sameBits := congrArg (fun rng : SimpleRng => rng.state.toBitVec) same
  simp only [toBitVec_advance] at sameBits
  have afterTwo := (Shift.left 64).mix_injective (by decide) sameBits
  have afterOne := (Shift.right 64).mix_injective (by decide) afterTwo
  exact ext_toBitVec ((Shift.left 64).mix_injective (by decide) afterOne)

/-- The state zero is left alone. -/
theorem advance_zero : advance { state := 0 } = { state := 0 } :=
  rfl

theorem after_succ (self : SimpleRng) (calls : Nat) :
    self.after (calls + 1) = (self.after calls).advance :=
  Function.iterate_succ_apply' advance calls self

theorem new_state_ne_zero (seed : UInt64) : (new seed).state ≠ 0 := by
  intro zero
  have lowest : (seed ||| 1).toBitVec.getLsbD 0 = true := by
    simp
  rw [show seed ||| 1 = 0 from zero] at lowest
  cases lowest

/-- No state but zero leads to zero. -/
theorem after_state_ne_zero {self : SimpleRng} (nonzero : self.state ≠ 0)
    (calls : Nat) : (self.after calls).state ≠ 0 := by
  induction calls with
  | zero => exact nonzero
  | succ calls inductionHypothesis =>
      intro zero
      rw [after_succ] at zero
      have isZero : (self.after calls).advance = advance { state := 0 } := by
        rw [advance_zero]
        exact congrArg SimpleRng.mk zero
      have before := advance_injective isZero
      exact inductionHypothesis (congrArg SimpleRng.state before)

instance : Finite SimpleRng :=
  Finite.of_injective (fun rng : SimpleRng => rng.state.toFin) fun first second same => by
    obtain ⟨state⟩ := first
    obtain ⟨other⟩ := second
    exact congrArg SimpleRng.mk (UInt64.toFin_inj.mp same)

/-- The generator comes back to where it started, and goes on as before. -/
theorem exists_period (self : SimpleRng) :
    ∃ period, 0 < period ∧ ∀ calls, self.after (calls + period) = self.after calls := by
  obtain ⟨period, positive, returns⟩ :=
    Function.mem_periodicPts.mp (advance_injective.mem_periodicPts self)
  refine ⟨period, positive, fun calls => ?_⟩
  rw [after, Function.iterate_add_apply]
  exact congrArg (advance^[calls]) returns

/-- The numerator has 53 bits. -/
theorem numerator_lt (self : SimpleRng) :
    self.nextF64Numerator.1.toNat < 2 ^ 53 := by
  have bits : self.nextF64Numerator.1.toNat = self.nextU64.1.toNat / 2 ^ 11 := by
    rw [nextF64Numerator, UInt64.toNat_shiftRight, Nat.shiftRight_eq_div_pow]
    rfl
  have word := self.nextU64.1.toNat_lt
  omega

/-- The generator never gets stuck. -/
theorem never_stuck :
    Function.Injective advance ∧
    (∀ seed calls, ((new seed).after calls).state ≠ 0) ∧
    (∀ self : SimpleRng, ∃ period, 0 < period ∧
      ∀ calls, self.after (calls + period) = self.after calls) ∧
    ∀ self : SimpleRng, self.nextF64Numerator.1.toNat < 2 ^ 53 :=
  ⟨advance_injective,
    fun seed calls => after_state_ne_zero (new_state_ne_zero seed) calls,
    exists_period, numerator_lt⟩

end SimpleRng

end HautePerformance.Demos
