import Mathlib.Algebra.GroupWithZero.Nat

/-!
# Numerals

Reading a number below a bound from its decimal digits, one digit after the other: a
character that is no digit ends it, and so does a digit with which the bound is reached.
The digits that are read are those of a number below the bound.
-/

namespace HautePerformance.Library

/-- One more digit. -/
def readDigit (bound value : Nat) (c : Char) : Option Nat :=
  if c.isDigit ∧ value * 10 + (c.toNat - '0'.toNat) < bound then
    some (value * 10 + (c.toNat - '0'.toNat))
  else none

/-- A numeral only grows with its digits. -/
theorem le_ofDigitChars (digits : List Char) :
    ∀ start, start ≤ Nat.ofDigitChars 10 digits start := by
  induction digits with
  | nil =>
      intro start
      exact Nat.le_of_eq Nat.ofDigitChars_nil.symm
  | cons c rest inductionHypothesis =>
      intro start
      rw [Nat.ofDigitChars_cons]
      have further := inductionHypothesis (10 * start + (c.toNat - '0'.toNat))
      omega

theorem foldlM_readDigit_eq_some {bound value : Nat} (digits : List Char) :
    ∀ {start : Nat}, start < bound →
      (digits.foldlM (readDigit bound) start = some value ↔
        (∀ c, c ∈ digits → c.isDigit = true) ∧
          Nat.ofDigitChars 10 digits start = value ∧ value < bound) := by
  induction digits with
  | nil =>
      intro start small
      rw [List.foldlM_nil, Nat.ofDigitChars_nil]
      constructor
      · rintro ⟨⟩
        exact ⟨by simp, rfl, small⟩
      · rintro ⟨_, rfl, _⟩
        rfl
  | cons c rest inductionHypothesis =>
      intro start small
      have shifted : start * 10 + (c.toNat - '0'.toNat) =
          10 * start + (c.toNat - '0'.toNat) := by
        rw [Nat.mul_comm]
      rw [List.foldlM_cons, Nat.ofDigitChars_cons, List.forall_mem_cons]
      by_cases next :
          c.isDigit = true ∧ start * 10 + (c.toNat - '0'.toNat) < bound
      · rw [readDigit, if_pos next, Option.bind_eq_bind, Option.bind_some,
          inductionHypothesis next.2, shifted]
        simp [next.1]
      · rw [readDigit, if_neg next]
        constructor
        · rintro ⟨⟩
        · rintro ⟨⟨isDigit, _⟩, isValue, below⟩
          -- a digit too many would exceed the bound at the end as well
          have further := le_ofDigitChars rest (10 * start + (c.toNat - '0'.toNat))
          exact absurd ⟨isDigit, by omega⟩ next

end HautePerformance.Library
