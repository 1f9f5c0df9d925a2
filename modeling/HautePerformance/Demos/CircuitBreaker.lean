import HautePerformance.Library.ThreadPool

/-!
# The circuit breaker

`CircuitBreaker` of `demo_3_4a_circuit_breaker.rs`, called by any number of
threads.  `before_call`, `on_success` and `on_failure` hold the lock of the state
from their first access to their last, so each is one atomic step; between the
first and the other two the service runs for any length of time.  Instants and
durations are counted in nanoseconds.
-/

namespace HautePerformance.Demos

open Library

/-- `CircuitState::{Closed, Open, HalfOpen}`. -/
inductive CircuitState where
  | closed
  | opened
  | halfOpen
  deriving DecidableEq, Repr

/-- `CallError::{Open, ServiceFailed}`. -/
inductive CallError where
  | circuitOpen
  | serviceFailed (error : String)
  deriving DecidableEq, Repr

structure CircuitBreaker where
  failureThreshold : UInt32
  resetTimeout : Nat
  successThreshold : UInt32
  failureCount : UInt32
  successCount : UInt32
  state : CircuitState
  openedAt : Option Nat
  deriving DecidableEq, Repr

namespace CircuitBreaker

def new (failureThreshold : UInt32) (resetTimeout : Nat)
    (successThreshold : UInt32) : CircuitBreaker :=
  { failureThreshold := failureThreshold
    resetTimeout := resetTimeout
    successThreshold := successThreshold
    failureCount := 0
    successCount := 0
    state := .closed
    openedAt := none }

/-- `before_call`: whether a call may pass, at the instant `now`. -/
def beforeCall (now : Nat) (self : CircuitBreaker) :
    CircuitBreaker × Except CallError Unit :=
  match self.state with
  | .closed => (self, .ok ())
  | .halfOpen => (self, .ok ())
  | .opened =>
      match self.openedAt with
      | some t =>
          -- `elapsed` is zero for an instant in the future.
          if now - t ≥ self.resetTimeout then
            ({ self with state := .halfOpen, successCount := 0 }, .ok ())
          else (self, .error .circuitOpen)
      | none => (self, .error .circuitOpen)

def onSuccess (self : CircuitBreaker) : CircuitBreaker :=
  match self.state with
  | .halfOpen =>
      let s := self.successCount + 1
      if s ≥ self.successThreshold then
        { self with successCount := s, state := .closed, failureCount := 0 }
      else { self with successCount := s }
  | .closed => { self with failureCount := 0 }
  | .opened => self

def onFailure (now : Nat) (self : CircuitBreaker) : CircuitBreaker :=
  match self.state with
  | .closed =>
      let f := self.failureCount + 1
      if f ≥ self.failureThreshold then
        { self with failureCount := f, state := .opened, openedAt := some now }
      else { self with failureCount := f }
  | .halfOpen => { self with state := .opened, openedAt := some now }
  | .opened => self

/-- What `call` does with the outcome of the service. -/
def report {Value : Type} (outcome : Except String Value) (now : Nat)
    (self : CircuitBreaker) : CircuitBreaker × Except CallError Value :=
  match outcome with
  | .ok v => (self.onSuccess, .ok v)
  | .error e => (self.onFailure now, .error (.serviceFailed e))

end CircuitBreaker

/-! ## Overlapping calls -/

/-- A breaker with the monotone clock that it reads. -/
structure TimedBreaker where
  breaker : CircuitBreaker
  now : Nat
  deriving DecidableEq, Repr

/-- `call(f)`, with the outcome that the service will have. -/
structure CircuitCall (Value : Type) where
  outcome : Except String Value

/-- Where a call stands: it has not asked yet, or the service has been invoked and
the call waits for its outcome. -/
inductive CircuitPosition where
  | beforeCall
  | service
  deriving DecidableEq, Repr

namespace CircuitCall

variable {Value : Type}

abbrev Position : CircuitCall Value → Type :=
  fun _ => CircuitPosition

abbrev Result : CircuitCall Value → Type :=
  fun _ => Except CallError Value

end CircuitCall

section

variable (Value : Type)

abbrev CircuitPool :=
  Pool TimedBreaker (@CircuitCall.Position Value) CircuitCall.Result

abbrev CircuitActivity :=
  Activity (@CircuitCall.Position Value)

/-- What happens around the breaker is that time passes. -/
abbrev CircuitLabel :=
  PoolLabel (CircuitCall Value) Nat

abbrev CircuitWorld :=
  World (CircuitPool Value) (CircuitLabel Value)

end

variable {Value : Type}

/-- One atomic step of `call`. -/
def CircuitCall.step (call : CircuitCall Value) (shared : TimedBreaker) :
    CircuitPosition →
      TimedBreaker × Next CircuitPosition (Except CallError Value)
  | .beforeCall =>
      match shared.breaker.beforeCall shared.now with
      | (breaker, .ok ()) =>
          ({ shared with breaker := breaker }, .goOn .service)
      | (breaker, .error e) =>
          ({ shared with breaker := breaker }, .finish (.error e))
  | .service =>
      match shared.breaker.report call.outcome shared.now with
      | (breaker, result) =>
          ({ shared with breaker := breaker }, .finish result)

def circuitObject :
    ConcurrentObject TimedBreaker Nat (@CircuitCall.Position Value)
      CircuitCall.Result where
  enter _ := .beforeCall
  step {call} shared position := call.step shared position
  environment elapsed shared := { shared with now := shared.now + elapsed }

/-- The runs of a breaker from `new`. -/
def circuitSystem (failureThreshold : UInt32) (resetTimeout : Nat)
    (successThreshold : UInt32) :
    System (CircuitPool Value) (CircuitLabel Value) :=
  circuitObject.system fun shared =>
    shared.breaker = .new failureThreshold resetTimeout successThreshold

/-! ## What a step can do -/

namespace CircuitBreaker

variable {self : CircuitBreaker} {now : Nat}

/-- The breaker after the transition from open to half-open. -/
def halfOpened (self : CircuitBreaker) : CircuitBreaker :=
  { self with state := .halfOpen, successCount := 0 }

/-- The delay after which an open circuit is tried again is over. -/
def Elapsed (now : Nat) (self : CircuitBreaker) : Prop :=
  ∃ opened, self.openedAt = some opened ∧ self.resetTimeout ≤ now - opened

/-- The three outcomes of `before_call`. -/
theorem beforeCall_cases (now : Nat) (self : CircuitBreaker) :
    (self.state ≠ .opened ∧ self.beforeCall now = (self, .ok ())) ∨
      (self.state = .opened ∧ self.Elapsed now ∧
        self.beforeCall now = (self.halfOpened, .ok ())) ∨
      (self.state = .opened ∧ ¬ self.Elapsed now ∧
        self.beforeCall now = (self, .error .circuitOpen)) := by
  cases atState : self.state with
  | closed => exact Or.inl ⟨by simp, by simp [beforeCall, atState]⟩
  | halfOpen => exact Or.inl ⟨by simp, by simp [beforeCall, atState]⟩
  | opened =>
      refine Or.inr ?_
      cases atOpening : self.openedAt with
      | none =>
          have waiting : ¬ self.Elapsed now := by
            rintro ⟨opened, isOpened, _⟩
            rw [atOpening] at isOpened
            cases isOpened
          exact Or.inr
            ⟨rfl, waiting, by simp [beforeCall, atState, atOpening]⟩
      | some opened =>
          by_cases past : self.resetTimeout ≤ now - opened
          · exact Or.inl
              ⟨rfl, ⟨opened, atOpening, past⟩, by
                simp [beforeCall, halfOpened, atState, atOpening, past]⟩
          · have waiting : ¬ self.Elapsed now := by
              rintro ⟨other, isOther, pastOther⟩
              rw [atOpening] at isOther
              cases isOther
              exact past pastOther
            exact Or.inr
              ⟨rfl, waiting, by simp [beforeCall, atState, atOpening, past]⟩

end CircuitBreaker

/-- What a step of a pool does: a call begins, time passes, a call is rejected or
admitted, or an admitted call reports its outcome. -/
inductive CircuitMove (source : CircuitPool Value) :
    CircuitLabel Value → CircuitPool Value → Prop
  | begin {thread : Nat} {call : CircuitCall Value} :
      source.activity? thread = none →
      CircuitMove source (.call thread call)
        (source.begin thread call .beforeCall)
  | tick {elapsed : Nat} :
      CircuitMove source (.environment elapsed)
        (source.disturb
          { source.shared with now := source.shared.now + elapsed })
  | reject {thread : Nat} {activity : CircuitActivity Value} :
      source.activity? thread = some activity →
      activity.position = .beforeCall →
      source.shared.breaker.state = .opened →
      ¬ source.shared.breaker.Elapsed source.shared.now →
      CircuitMove source (.run thread)
        (source.finish thread activity source.shared (.error .circuitOpen))
  | accept {thread : Nat} {activity : CircuitActivity Value} :
      source.activity? thread = some activity →
      activity.position = .beforeCall →
      source.shared.breaker.state ≠ .opened →
      CircuitMove source (.run thread)
        (source.advance thread activity source.shared .service)
  | probe {thread : Nat} {activity : CircuitActivity Value} :
      source.activity? thread = some activity →
      activity.position = .beforeCall →
      source.shared.breaker.state = .opened →
      source.shared.breaker.Elapsed source.shared.now →
      CircuitMove source (.run thread)
        (source.advance thread activity
          { source.shared with
            breaker := source.shared.breaker.halfOpened }
          .service)
  | report {thread : Nat} {activity : CircuitActivity Value} :
      source.activity? thread = some activity →
      activity.position = .service →
      CircuitMove source (.run thread)
        (source.finish thread activity
          { source.shared with
            breaker :=
              (source.shared.breaker.report activity.call.outcome
                source.shared.now).1 }
          (source.shared.breaker.report activity.call.outcome
            source.shared.now).2)

section

variable {source target : CircuitPool Value} {label : CircuitLabel Value}
variable {thread : Nat} {activity : CircuitActivity Value}

theorem circuitMove_of_exec
    (executed : circuitObject.exec source label = some target) :
    CircuitMove source label target := by
  cases ConcurrentObject.moves_of_exec executed with
  | call free => exact CircuitMove.begin free
  | environment => exact CircuitMove.tick
  | @advance thread activity shared position running stepped =>
      change activity.call.step source.shared activity.position = _ at stepped
      cases atPosition : activity.position with
      | service => simp [atPosition, CircuitCall.step] at stepped
      | beforeCall =>
          rw [atPosition] at stepped
          rcases CircuitBreaker.beforeCall_cases source.shared.now
              source.shared.breaker with
            ⟨passes, decision⟩ | ⟨isOpen, past, decision⟩ | ⟨_, _, decision⟩
          · simp only [CircuitCall.step, decision, Prod.mk.injEq,
              Next.goOn.injEq] at stepped
            obtain ⟨rfl, rfl⟩ := stepped
            exact CircuitMove.accept running atPosition passes
          · simp only [CircuitCall.step, decision, Prod.mk.injEq,
              Next.goOn.injEq] at stepped
            obtain ⟨rfl, rfl⟩ := stepped
            exact CircuitMove.probe running atPosition isOpen past
          · simp [CircuitCall.step, decision] at stepped
  | @finish thread activity shared result running stepped =>
      change activity.call.step source.shared activity.position = _ at stepped
      cases atPosition : activity.position with
      | service =>
          rw [atPosition] at stepped
          simp only [CircuitCall.step, Prod.mk.injEq,
            Next.finish.injEq] at stepped
          obtain ⟨rfl, rfl⟩ := stepped
          exact CircuitMove.report running atPosition
      | beforeCall =>
          rw [atPosition] at stepped
          rcases CircuitBreaker.beforeCall_cases source.shared.now
              source.shared.breaker with
            ⟨_, decision⟩ | ⟨_, _, decision⟩ | ⟨isOpen, waiting, decision⟩
          · simp [CircuitCall.step, decision] at stepped
          · simp [CircuitCall.step, decision] at stepped
          · simp only [CircuitCall.step, decision, Prod.mk.injEq,
              Next.finish.injEq] at stepped
            obtain ⟨rfl, rfl⟩ := stepped
            exact CircuitMove.reject running atPosition isOpen waiting

/-- A call whose service has been invoked can only report its outcome. -/
theorem shared_of_service
    (running : source.activity? thread = some activity)
    (invoked : activity.position = .service)
    (executed : circuitObject.exec source (.run thread) = some target) :
    target.shared =
      { source.shared with
        breaker :=
          (source.shared.breaker.report activity.call.outcome
            source.shared.now).1 } := by
  have asks {other : CircuitActivity Value}
      (active : source.activity? thread = some other)
      (asking : other.position = .beforeCall) : False := by
    rw [running] at active
    cases active
    rw [invoked] at asking
    cases asking
  cases circuitMove_of_exec executed with
  | reject active asking _ _ => exact (asks active asking).elim
  | accept active asking _ => exact (asks active asking).elim
  | probe active asking _ _ => exact (asks active asking).elim
  | report active _ =>
      rw [running] at active
      cases active
      rfl

end

end HautePerformance.Demos
