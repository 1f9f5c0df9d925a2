/-!
# Atomic words

A word that threads read and replace without a lock, with the values that it had
before.  A relaxed read may be late and see one of these, and a weak
compare-and-exchange may fail although it could have succeeded.  How late a read is
and whether an exchange fails is not for the program to decide, so operations take
it as an argument.

A loop that retries the exchange only ever moves the word in one direction, so that
a late read is behind the word and never ahead of it.
-/

namespace HautePerformance.Library

variable {V : Type}

structure Atomic (V : Type) where
  value : V
  /-- The most recent first. -/
  before : List V
  deriving DecidableEq, Repr

/-- How the memory treats an operation. -/
structure Weather where
  spurious : Bool
  lag : Nat
  deriving DecidableEq, Repr

namespace Atomic

def new (value : V) : Atomic V :=
  { value := value, before := [] }

def store (cell : Atomic V) (value : V) : Atomic V :=
  { value := value, before := cell.value :: cell.before }

/-- `load(Ordering::Relaxed)`. -/
def load (weather : Weather) (cell : Atomic V) : V :=
  (cell.value :: cell.before)[weather.lag]?.getD cell.value

def fetchAdd [Add V] (cell : Atomic V) (amount : V) : Atomic V :=
  cell.store (cell.value + amount)

def compareExchangeWeak [DecidableEq V] (weather : Weather) (cell : Atomic V)
    (current new : V) : Atomic V × Except V Unit :=
  if weather.spurious = false ∧ cell.value = current then
    (cell.store new, .ok ())
  else
    (cell, .error (cell.load weather))

/-- A turn of the loop that replaces the word as long as the new value is better
than the current one.  The loop goes on with the value that the turn leaves, and
returns when it leaves none. -/
def retry [DecidableEq V] (better : V → V → Prop) [DecidableRel better]
    (weather : Weather) (cell : Atomic V) (value current : V) :
    Atomic V × Option V :=
  if better value current then
    match cell.compareExchangeWeak weather current value with
    | (cell, .ok _) => (cell, none)
    | (cell, .error actual) => (cell, some actual)
  else
    (cell, none)

/-! ## Moving in one direction -/

section Ordered

variable {r : V → V → Prop} {cell : Atomic V} {value current : V}
variable {weather : Weather}

/-- The word comes before all that it has been. -/
def Ordered (r : V → V → Prop) (cell : Atomic V) : Prop :=
  ∀ earlier, earlier ∈ cell.value :: cell.before → r cell.value earlier

theorem ordered_new (reflexive : r value value) : Ordered r (new value) := by
  intro earlier member
  rw [List.mem_singleton.mp member]
  exact reflexive

theorem Ordered.store (ordered : Ordered r cell) (reflexive : r value value)
    (transitive : ∀ earlier, r cell.value earlier → r value earlier) :
    Ordered r (cell.store value) := by
  intro earlier member
  rcases List.mem_cons.mp member with rfl | isBefore
  · exact reflexive
  · exact transitive earlier (ordered earlier isBefore)

/-- However late a read is. -/
theorem Ordered.load (ordered : Ordered r cell) :
    r cell.value (cell.load weather) := by
  rw [Atomic.load]
  cases found : (cell.value :: cell.before)[weather.lag]? with
  | none => exact ordered cell.value List.mem_cons_self
  | some seen => exact ordered seen (List.mem_of_getElem? found)

end Ordered

/-- What a turn of the loop does. -/
inductive Turns [DecidableEq V] (better : V → V → Prop) (weather : Weather)
    (cell : Atomic V) (value current : V) : Atomic V × Option V → Prop
  | settled :
      ¬ better value current →
      Turns better weather cell value current (cell, none)
  | replaced :
      better value cell.value →
      Turns better weather cell value current (cell.store value, none)
  | again :
      Turns better weather cell value current (cell, some (cell.load weather))

theorem turns_retry [DecidableEq V] (better : V → V → Prop) [DecidableRel better]
    (weather : Weather) (cell : Atomic V) (value current : V) :
    Turns better weather cell value current
      (cell.retry better weather value current) := by
  unfold retry compareExchangeWeak
  by_cases worth : better value current
  · rw [if_pos worth]
    by_cases succeeds : weather.spurious = false ∧ cell.value = current
    · rw [if_pos succeeds]
      exact Turns.replaced (succeeds.2 ▸ worth)
    · rw [if_neg succeeds]
      exact Turns.again
  · rw [if_neg worth]
    exact Turns.settled worth

end Atomic

end HautePerformance.Library
