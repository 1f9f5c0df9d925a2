import Mathlib.Logic.Function.Basic
import Mathlib.Order.Lattice
import Mathlib.Order.BoundedOrder.Basic

/-!
# Release and acquire

A memory keeps, for each location, the values that were stored there in their order.
A thread has a view of it: for each location the least recent value that it may still
read.  A store that releases leaves the view of its thread with the value, and a load
that acquires adds the view that it finds to that of its own.  Other stores and loads
say nothing about other locations.  How late a load is is not for the program to
decide, so that it is an argument.

What a thread sees is stable as long as only good values are stored.  A flag
publishes a fact if whoever finds it raised sees the fact; it does if threads raise
it with a release once they see the fact themselves.
-/

namespace HautePerformance.Library

/-- The orderings that a store may have. -/
inductive StoreOrdering where
  | relaxed
  | release
  | seqCst
  deriving DecidableEq, Repr

/-- The orderings that a load may have. -/
inductive LoadOrdering where
  | relaxed
  | acquire
  | seqCst
  deriving DecidableEq, Repr

def StoreOrdering.Releases : StoreOrdering → Prop
  | .relaxed => False
  | .release => True
  | .seqCst => True

def LoadOrdering.Acquires : LoadOrdering → Prop
  | .relaxed => False
  | .acquire => True
  | .seqCst => True

instance : DecidablePred StoreOrdering.Releases
  | .relaxed => isFalse not_false
  | .release => isTrue trivial
  | .seqCst => isTrue trivial

instance : DecidablePred LoadOrdering.Acquires
  | .relaxed => isFalse not_false
  | .acquire => isTrue trivial
  | .seqCst => isTrue trivial

/-- The times from which a location may be read. -/
abbrev View (Location : Type) :=
  Location → Nat

structure Message (Location Value : Type) where
  value : Value
  view : View Location

/-- Time zero is that of the initial value. -/
structure Memory (Location : Type) (Value : Location → Type) where
  initial : (location : Location) → Value location
  stored : (location : Location) → List (Message Location (Value location))

namespace Memory

variable {Location : Type} {Value : Location → Type}

def new (initial : (location : Location) → Value location) :
    Memory Location Value :=
  { initial := initial, stored := fun _ => [] }

/-- The time of the last value. -/
def last (memory : Memory Location Value) (location : Location) : Nat :=
  (memory.stored location).length

def messageAt (memory : Memory Location Value) (location : Location) :
    Nat → Message Location (Value location)
  | 0 => ⟨memory.initial location, fun _ => 0⟩
  | time + 1 =>
      (memory.stored location)[time]?.getD
        ⟨memory.initial location, fun _ => 0⟩

/-- The time of the value that a load finds. -/
def foundAt (memory : Memory Location Value) (lag : Nat) (view : View Location)
    (location : Location) : Nat :=
  max (view location) (memory.last location - lag)

variable [DecidableEq Location]

def load (memory : Memory Location Value) (ordering : LoadOrdering) (lag : Nat)
    (view : View Location) (location : Location) :
    Value location × View Location :=
  let time := memory.foundAt lag view location
  let found := memory.messageAt location time
  let seen := Function.update view location time
  (found.value, if ordering.Acquires then seen ⊔ found.view else seen)

def store (memory : Memory Location Value) (ordering : StoreOrdering)
    (view : View Location) (location : Location) (value : Value location) :
    Memory Location Value × View Location :=
  let time := memory.last location + 1
  let seen := Function.update view location time
  let left := if ordering.Releases then seen else Function.update (fun _ => 0) location time
  ({ memory with
      stored :=
        Function.update memory.stored location
          (memory.stored location ++ [⟨value, left⟩]) }, seen)

/-! ## What a store adds -/

section Store

variable {memory : Memory Location Value} {ordering : StoreOrdering}
variable {view : View Location} {location other : Location}
variable {value : Value location}

@[simp]
theorem view_store :
    (memory.store ordering view location value).2 =
      Function.update view location (memory.last location + 1) :=
  rfl

@[simp]
theorem last_store_self :
    (memory.store ordering view location value).1.last location =
      memory.last location + 1 := by
  simp [store, last]

theorem last_store_of_ne (different : other ≠ location) :
    (memory.store ordering view location value).1.last other =
      memory.last other := by
  simp [store, last, different]

theorem last_le_store :
    memory.last other ≤
      (memory.store ordering view location value).1.last other := by
  by_cases same : other = location
  · subst same
    rw [last_store_self]
    exact Nat.le_succ _
  · exact (last_store_of_ne same).ge

theorem messageAt_store_self :
    (memory.store ordering view location value).1.messageAt location
        (memory.last location + 1) =
      ⟨value, if ordering.Releases then
          Function.update view location (memory.last location + 1)
        else Function.update (fun _ => 0) location (memory.last location + 1)⟩ := by
  simp [store, messageAt, last]

theorem messageAt_store_of_ne (different : other ≠ location) (time : Nat) :
    (memory.store ordering view location value).1.messageAt other time =
      memory.messageAt other time := by
  cases time with
  | zero => rfl
  | succ before => simp [store, messageAt, different]

theorem messageAt_store_of_le {time : Nat} (old : time ≤ memory.last location) :
    (memory.store ordering view location value).1.messageAt location time =
      memory.messageAt location time := by
  cases time with
  | zero => rfl
  | succ before =>
      have isStored : before < (memory.stored location).length := old
      simp [store, messageAt, List.getElem?_append_left isStored]

/-- The messages of a memory after a store are those before and the new one. -/
theorem messageAt_store_cases {time : Nat}
    (isTime : time ≤ (memory.store ordering view location value).1.last other) :
    (time ≤ memory.last other ∧
        (memory.store ordering view location value).1.messageAt other time =
          memory.messageAt other time) ∨
      other = location ∧ time = memory.last location + 1 := by
  by_cases same : other = location
  · subst same
    rw [last_store_self] at isTime
    rcases Nat.le_succ_iff.mp isTime with old | isNew
    · exact Or.inl ⟨old, messageAt_store_of_le old⟩
    · exact Or.inr ⟨rfl, isNew⟩
  · rw [last_store_of_ne same] at isTime
    exact Or.inl ⟨isTime, messageAt_store_of_ne same time⟩

end Store

/-! ## Views that the memory knows -/

section Known

variable {memory : Memory Location Value} {view more : View Location}

/-- The view does not go beyond the stored values. -/
def Known (memory : Memory Location Value) (view : View Location) : Prop :=
  ∀ location, view location ≤ memory.last location

/-- So do the views left with the values. -/
def Consistent (memory : Memory Location Value) : Prop :=
  ∀ location time, time ≤ memory.last location →
    memory.Known (memory.messageAt location time).view

omit [DecidableEq Location] in
theorem known_zero : memory.Known fun _ => 0 :=
  fun _ => Nat.zero_le _

omit [DecidableEq Location] in
theorem Known.sup (known : memory.Known view) (knownMore : memory.Known more) :
    memory.Known (view ⊔ more) :=
  fun location => sup_le (known location) (knownMore location)

omit [DecidableEq Location] in
theorem Known.foundAt_le (known : memory.Known view) {lag : Nat}
    (location : Location) :
    memory.foundAt lag view location ≤ memory.last location :=
  max_le (known location) (Nat.sub_le _ _)

theorem Known.update (known : memory.Known view) {location : Location} {time : Nat}
    (isTime : time ≤ memory.last location) :
    memory.Known (Function.update view location time) := by
  intro other
  by_cases same : other = location
  · subst same
    rwa [Function.update_self]
  · rw [Function.update_of_ne same]
    exact known other

theorem Known.load (known : memory.Known view) (consistent : memory.Consistent)
    {ordering : LoadOrdering} {lag : Nat} (location : Location) :
    memory.Known (memory.load ordering lag view location).2 := by
  have isTime : memory.foundAt lag view location ≤ memory.last location :=
    known.foundAt_le location
  have seen := known.update isTime
  rw [Memory.load]
  split
  · exact seen.sup (consistent location _ isTime)
  · exact seen

theorem Known.kept (known : memory.Known view) {ordering : StoreOrdering}
    {of : View Location} {location : Location} {value : Value location} :
    (memory.store ordering of location value).1.Known view :=
  fun other => (known other).trans last_le_store

theorem Known.store (known : memory.Known view) {ordering : StoreOrdering}
    {location : Location} {value : Value location} :
    (memory.store ordering view location value).1.Known
      (memory.store ordering view location value).2 :=
  known.kept.update last_store_self.ge

omit [DecidableEq Location] in
theorem consistent_new (initial : (location : Location) → Value location) :
    (new initial).Consistent := by
  intro location time isTime
  have isFirst : time = 0 := Nat.le_zero.mp isTime
  subst isFirst
  exact known_zero

theorem Consistent.store (consistent : memory.Consistent)
    (known : memory.Known view) {ordering : StoreOrdering} {location : Location}
    {value : Value location} :
    (memory.store ordering view location value).1.Consistent := by
  intro other time isTime
  rcases messageAt_store_cases isTime with ⟨old, same⟩ | ⟨rfl, rfl⟩
  · rw [same]
    exact (consistent other time old).kept
  · simp only [messageAt_store_self]
    split
    · exact known.store
    · exact known_zero.update last_store_self.ge

end Known

/-! ## What a thread sees -/

section Sees

variable {memory after : Memory Location Value} {view more : View Location}
variable {location : Location} {good : Value location → Prop}

/-- Whatever a thread with the view reads there is good. -/
def Sees (memory : Memory Location Value) (view : View Location)
    (location : Location) (good : Value location → Prop) : Prop :=
  ∀ time, view location ≤ time → time ≤ memory.last location →
    good (memory.messageAt location time).value

omit [DecidableEq Location] in
theorem Sees.mono (sees : memory.Sees view location good)
    (knowsMore : view location ≤ more location) :
    memory.Sees more location good :=
  fun time later isTime => sees time (knowsMore.trans later) isTime

theorem Sees.load (sees : memory.Sees view location good)
    (known : memory.Known view) {ordering : LoadOrdering} {lag : Nat} :
    good (memory.load ordering lag view location).1 :=
  sees _ (le_max_left _ _) (known.foundAt_le location)

/-- A thread sees what it has stored. -/
theorem sees_store {ordering : StoreOrdering} {value : Value location}
    (isGood : good value) :
    (memory.store ordering view location value).1.Sees
      (memory.store ordering view location value).2 location good := by
  intro time later isTime
  rw [view_store, Function.update_self] at later
  rw [last_store_self] at isTime
  have isLast : time = memory.last location + 1 := Nat.le_antisymm isTime later
  rw [isLast, messageAt_store_self]
  exact isGood

/-- Stores of good values do not change what is seen. -/
theorem Sees.kept (sees : memory.Sees view location good)
    {ordering : StoreOrdering} {of : View Location} {value : Value location}
    (isGood : good value) :
    (memory.store ordering of location value).1.Sees view location good := by
  intro time later isTime
  rcases messageAt_store_cases isTime with ⟨old, same⟩ | ⟨_, isLast⟩
  · rw [same]
    exact sees time later old
  · rw [isLast, messageAt_store_self]
    exact isGood

theorem Sees.kept_of_ne (sees : memory.Sees view location good)
    {ordering : StoreOrdering} {of : View Location} {other : Location}
    {value : Value other} (different : location ≠ other) :
    (memory.store ordering of other value).1.Sees view location good := by
  intro time later isTime
  rw [last_store_of_ne different] at isTime
  rw [messageAt_store_of_ne different]
  exact sees time later isTime

end Sees

/-! ## Flags that publish -/

section Publishes

variable {memory : Memory Location Value} {view : View Location}
variable {flag location : Location}
variable {raised : Value flag → Prop} {good : Value location → Prop}

/-- With every raised flag there is a view that sees the fact. -/
def Publishes (memory : Memory Location Value) (flag : Location)
    (raised : Value flag → Prop) (location : Location)
    (good : Value location → Prop) : Prop :=
  ∀ time, time ≤ memory.last flag →
    raised (memory.messageAt flag time).value →
      memory.Sees (memory.messageAt flag time).view location good

omit [DecidableEq Location] in
theorem publishes_new {initial : (location : Location) → Value location}
    (notRaised : ¬ raised (initial flag)) :
    (new initial).Publishes flag raised location good := by
  intro time isTime isRaised
  have isFirst : time = 0 := Nat.le_zero.mp isTime
  subst isFirst
  exact absurd isRaised notRaised

/-- Whoever acquires a raised flag sees the fact. -/
theorem Publishes.acquire (publishes : memory.Publishes flag raised location good)
    (known : memory.Known view) {ordering : LoadOrdering} {lag : Nat}
    (acquires : ordering.Acquires)
    (isRaised : raised (memory.load ordering lag view flag).1) :
    memory.Sees (memory.load ordering lag view flag).2 location good := by
  have sees := publishes _ (known.foundAt_le flag) isRaised
  refine sees.mono ?_
  simp only [load, if_pos acquires]
  exact le_sup_right (a := Function.update view flag _ location)

/-- A thread that sees the fact may raise the flag with a release. -/
theorem Publishes.release (publishes : memory.Publishes flag raised location good)
    {ordering : StoreOrdering} {value : Value flag} (different : location ≠ flag)
    (releases : ordering.Releases) (sees : memory.Sees view location good) :
    (memory.store ordering view flag value).1.Publishes flag raised location
      good := by
  intro time isTime isRaised
  rcases messageAt_store_cases isTime with ⟨old, same⟩ | ⟨_, rfl⟩
  · rw [same] at isRaised ⊢
    exact (publishes time old isRaised).kept_of_ne different
  · rw [messageAt_store_self, if_pos releases]
    exact (sees.mono (Function.update_of_ne different _ view).ge).kept_of_ne different

/-- The flag goes on publishing the fact when a good value is stored. -/
theorem Publishes.kept (publishes : memory.Publishes flag raised location good)
    {ordering : StoreOrdering} {value : Value location}
    (different : flag ≠ location) (isGood : good value) :
    (memory.store ordering view location value).1.Publishes flag raised location
      good := by
  intro time isTime isRaised
  rw [last_store_of_ne different] at isTime
  rw [messageAt_store_of_ne different] at isRaised ⊢
  exact (publishes time isTime isRaised).kept isGood

end Publishes

end Memory

end HautePerformance.Library
