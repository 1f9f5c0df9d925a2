import Mathlib.Order.Basic
import Mathlib.Data.Set.Insert
import Mathlib.Data.List.Induction

/-!
# The highest stamp wins

A register takes in stamped values one at a time and keeps one of highest stamp,
the one it already holds when stamps are equal.  When the stamps tell the incoming
values apart, the outcome depends on what came in and not on the order or the
number of arrivals.
-/

namespace HautePerformance.Library.HighestStamp

variable {Value Stamp : Type} [LinearOrder Stamp] (stamp : Value → Stamp)

/-- An incoming value replaces one of lower stamp. -/
def absorb (current : Option Value) (incoming : Value) : Option Value :=
  match current with
  | some held =>
      if stamp incoming ≤ stamp held then some held else some incoming
  | none => some incoming

/-- A value of highest stamp among the initial and the incoming ones, the initial
one if it has that stamp. -/
structure Highest (initial : Option Value) (incoming : Set Value)
    (outcome : Option Value) : Prop where
  offered : ∀ value,
    outcome = some value → initial = some value ∨ value ∈ incoming
  aboveInitial : ∀ held,
    initial = some held →
      ∃ value, outcome = some value ∧ stamp held ≤ stamp value
  aboveIncoming : ∀ offer,
    offer ∈ incoming →
      ∃ value, outcome = some value ∧ stamp offer ≤ stamp value
  ties : ∀ held value,
    initial = some held → outcome = some value →
      stamp value ≤ stamp held → value = held

variable {stamp}

/-- After an arrival, the outcome is the highest of one more value. -/
theorem Highest.absorb {initial current : Option Value} {incoming : Set Value}
    (highest : Highest stamp initial incoming current) (offer : Value) :
    Highest stamp initial (insert offer incoming)
      (absorb stamp current offer) := by
  cases current with
  | none =>
      have noInitial (held : Value) : initial ≠ some held := by
        intro isHeld
        obtain ⟨value, impossible, _⟩ := highest.aboveInitial held isHeld
        cases impossible
      have noIncoming (other : Value) : other ∉ incoming := by
        intro member
        obtain ⟨value, impossible, _⟩ := highest.aboveIncoming other member
        cases impossible
      refine ⟨?_, ?_, ?_, ?_⟩
      · intro value isOutcome
        cases isOutcome
        exact Or.inr (Set.mem_insert _ _)
      · intro held isHeld
        exact absurd isHeld (noInitial held)
      · intro other member
        rcases Set.mem_insert_iff.mp member with here | old
        · exact ⟨offer, rfl, le_of_eq (congrArg stamp here)⟩
        · exact absurd old (noIncoming other)
      · intro held value isHeld _ _
        exact absurd isHeld (noInitial held)
  | some held =>
      by_cases notAbove : stamp offer ≤ stamp held
      · have kept : HighestStamp.absorb stamp (some held) offer = some held :=
          if_pos notAbove
        rw [kept]
        refine ⟨?_, highest.aboveInitial, ?_, highest.ties⟩
        · intro value isOutcome
          rcases highest.offered value isOutcome with isInitial | member
          · exact Or.inl isInitial
          · exact Or.inr (Set.mem_insert_of_mem _ member)
        · intro other member
          rcases Set.mem_insert_iff.mp member with here | old
          · exact ⟨held, rfl, here ▸ notAbove⟩
          · exact highest.aboveIncoming other old
      · have replaced :
            HighestStamp.absorb stamp (some held) offer = some offer :=
          if_neg notAbove
        have above : stamp held ≤ stamp offer := le_of_not_ge notAbove
        rw [replaced]
        refine ⟨?_, ?_, ?_, ?_⟩
        · intro value isOutcome
          cases isOutcome
          exact Or.inr (Set.mem_insert _ _)
        · intro first isFirst
          obtain ⟨value, isHeld, below⟩ := highest.aboveInitial first isFirst
          cases isHeld
          exact ⟨offer, rfl, le_trans below above⟩
        · intro other member
          rcases Set.mem_insert_iff.mp member with here | old
          · exact ⟨offer, rfl, le_of_eq (congrArg stamp here)⟩
          · obtain ⟨value, isHeld, below⟩ := highest.aboveIncoming other old
            cases isHeld
            exact ⟨offer, rfl, le_trans below above⟩
        · intro first value isFirst isOutcome notHigher
          cases isOutcome
          obtain ⟨value, isHeld, below⟩ := highest.aboveInitial first isFirst
          cases isHeld
          exact absurd (le_trans notHigher below) notAbove

theorem highest_initial (initial : Option Value) :
    Highest stamp initial ∅ initial where
  offered _ isOutcome := Or.inl isOutcome
  aboveInitial held isHeld := ⟨held, isHeld, le_refl _⟩
  aboveIncoming _ member := absurd member (Set.notMem_empty _)
  ties held value isHeld isOutcome _ := by
    rw [isHeld] at isOutcome
    exact (Option.some.inj isOutcome).symm

/-- Arrivals in any order, with any repetitions. -/
theorem highest_foldl (initial : Option Value) (arrivals : List Value) :
    Highest stamp initial {value | value ∈ arrivals}
      (arrivals.foldl (absorb stamp) initial) := by
  induction arrivals using List.reverseRecOn with
  | nil => simpa using highest_initial initial
  | append_singleton earlier last inductionHypothesis =>
      have members : {value | value ∈ earlier ++ [last]} =
          insert last {value | value ∈ earlier} := by
        ext value
        simp [or_comm]
      rw [List.foldl_append, members]
      exact inductionHypothesis.absorb last

/-- The outcome is determined when the stamps tell the incoming values apart. -/
theorem Highest.unique {initial first second : Option Value}
    {incoming : Set Value}
    (apart : ∀ left right, left ∈ incoming → right ∈ incoming →
      stamp left = stamp right → left = right)
    (isFirst : Highest stamp initial incoming first)
    (isSecond : Highest stamp initial incoming second) : first = second := by
  -- each outcome is a candidate, so the other one is not below it
  have reached {one other : Option Value}
      (isOne : Highest stamp initial incoming one)
      (isOther : Highest stamp initial incoming other) {value : Value}
      (isValue : one = some value) :
      ∃ found, other = some found ∧ stamp value ≤ stamp found := by
    rcases isOne.offered value isValue with isInitial | member
    · exact isOther.aboveInitial value isInitial
    · exact isOther.aboveIncoming value member
  cases first with
  | none =>
      cases second with
      | none => rfl
      | some right =>
          obtain ⟨value, impossible, _⟩ := reached isSecond isFirst rfl
          cases impossible
  | some left =>
      obtain ⟨right, isRight, below⟩ := reached isFirst isSecond rfl
      obtain ⟨back, isBack, above⟩ := reached isSecond isFirst isRight
      cases isBack
      rw [isRight]
      have same : stamp left = stamp right := le_antisymm below above
      rcases isFirst.offered left rfl with leftInitial | leftIncoming
      · rw [isSecond.ties left right leftInitial isRight above]
      · rcases isSecond.offered right isRight with rightInitial | rightIncoming
        · rw [isFirst.ties right left rightInitial rfl below]
        · rw [apart left right leftIncoming rightIncoming same]

end HautePerformance.Library.HighestStamp
