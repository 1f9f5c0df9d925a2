import Mathlib.Logic.Function.Basic

/-!
# Adding a shifted copy

A word is combined by exclusive or with a shifted copy of itself.  Doing so twice
shifts the copy twice as far, and a copy that is shifted out of the word changes
nothing, so that no two words give the same one.
-/

namespace HautePerformance.Library

/-- A direction of shifting words of `w` bits. -/
structure Shift (w : Nat) where
  run : BitVec w → Nat → BitVec w
  xor : ∀ x y k, run (x ^^^ y) k = run x k ^^^ run y k
  add : ∀ x j k, run x (j + k) = run (run x j) k
  out : ∀ x k, w ≤ k → run x k = 0#w

namespace Shift

variable {w : Nat}

def left (w : Nat) : Shift w where
  run := fun x k => x <<< k
  xor := BitVec.shiftLeft_xor_distrib
  add := BitVec.shiftLeft_add
  out := fun _ _ far => BitVec.shiftLeft_eq_zero far

def right (w : Nat) : Shift w where
  run := fun x k => x >>> k
  xor := BitVec.ushiftRight_xor_distrib
  add := BitVec.shiftRight_add
  out := fun _ _ far => BitVec.ushiftRight_eq_zero far

variable (shift : Shift w)

def mix (k : Nat) (x : BitVec w) : BitVec w :=
  x ^^^ shift.run x k

theorem mix_of_out {k : Nat} (far : w ≤ k) (x : BitVec w) : shift.mix k x = x := by
  rw [mix, shift.out x k far, BitVec.xor_zero]

/-- The copies that are shifted once cancel. -/
theorem mix_mix (k : Nat) (x : BitVec w) :
    shift.mix k (shift.mix k x) = shift.mix (k + k) x := by
  calc
    shift.mix k (shift.mix k x)
        = x ^^^ shift.run x k ^^^ (shift.run x k ^^^ shift.run (shift.run x k) k) := by
          rw [mix, mix, shift.xor]
    _ = x ^^^ (shift.run x k ^^^ shift.run x k) ^^^ shift.run (shift.run x k) k := by
          simp only [BitVec.xor_assoc]
    _ = shift.mix (k + k) x := by
          rw [BitVec.xor_self, BitVec.xor_zero, mix, shift.add]

theorem mix_injective {k : Nat} (positive : 0 < k) :
    Function.Injective (shift.mix k) := by
  by_cases far : w ≤ k
  · intro x y same
    rwa [shift.mix_of_out far, shift.mix_of_out far] at same
  · -- The distance doubles until the copy is out of the word.
    have further : Function.Injective (shift.mix (k + k)) :=
      mix_injective (by omega)
    intro x y same
    apply further
    rw [← mix_mix, ← mix_mix, same]
termination_by w - k

end Shift

end HautePerformance.Library
