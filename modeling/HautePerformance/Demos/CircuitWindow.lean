import HautePerformance.Demos.CircuitBreaker

/-!
# The open window of a circuit breaker

From the instant it opens until the reset timeout is over the circuit stays open
and rejects every call.  The reports of calls that are still in flight change
nothing, and the first call to ask after the deadline is let through.
-/

namespace HautePerformance.Demos

open Library

variable {Value : Type}

/-! ## Openings in a run -/

def circuitState (pool : CircuitPool Value) : CircuitState :=
  pool.shared.breaker.state

/-- The recorded step brings the circuit into the state. -/
def Enters (state : CircuitState)
    (step : CircuitPool Value × CircuitLabel Value) : Prop :=
  circuitState step.1 ≠ state ∧
    (circuitObject.exec step.1 step.2).map circuitState = some state

instance (state : CircuitState)
    (step : CircuitPool Value × CircuitLabel Value) :
    Decidable (Enters state step) :=
  inferInstanceAs (Decidable (_ ∧ _))

/-- The instant of the last opening of the circuit. -/
def lastOpening : List (CircuitPool Value × CircuitLabel Value) → Option Nat
  | [] => none
  | step :: earlier =>
      if Enters .opened step then some step.1.shared.now
      else lastOpening earlier

section

variable {source target : CircuitPool Value} {label : CircuitLabel Value}
variable {state : CircuitState}

theorem enters_iff
    (executed : circuitObject.exec source label = some target) :
    Enters state (source, label) ↔
      circuitState source ≠ state ∧ circuitState target = state := by
  simp [Enters, executed]

theorem not_enters_of_source
    (executed : circuitObject.exec source label = some target)
    (was : circuitState source = state) : ¬ Enters state (source, label) := by
  intro enters
  exact ((enters_iff executed).mp enters).1 was

theorem not_enters_of_target {other : CircuitState}
    (executed : circuitObject.exec source label = some target)
    (leads : circuitState target = state) (distinct : state ≠ other) :
    ¬ Enters other (source, label) := by
  intro enters
  have leadsToOther := ((enters_iff executed).mp enters).2
  exact distinct (leads.symm.trans leadsToOther)

variable {earlier : List (CircuitPool Value × CircuitLabel Value)}

theorem lastOpening_of_opens
    (executed : circuitObject.exec source label = some target)
    (wasNot : circuitState source ≠ .opened)
    (isOpen : circuitState target = .opened) :
    lastOpening ((source, label) :: earlier) = some source.shared.now := by
  have opens : Enters .opened (source, label) :=
    (enters_iff executed).mpr ⟨wasNot, isOpen⟩
  rw [lastOpening, if_pos opens]

theorem lastOpening_of_not_opens
    (executed : circuitObject.exec source label = some target)
    (kept : circuitState target = .opened → circuitState source = .opened) :
    lastOpening ((source, label) :: earlier) = lastOpening earlier := by
  have stays : ¬ Enters .opened (source, label) := by
    intro opens
    obtain ⟨wasNot, isOpen⟩ := (enters_iff executed).mp opens
    exact wasNot (kept isOpen)
  rw [lastOpening, if_neg stays]

end

/-! ## What the operations keep -/

namespace CircuitBreaker

variable {self : CircuitBreaker} {now : Nat}

/-- Neither counter has reached its threshold where it is counted. -/
structure Steady (breaker : CircuitBreaker) : Prop where
  failures : breaker.state = .closed →
    breaker.failureCount < breaker.failureThreshold
  successes : breaker.state = .halfOpen →
    breaker.successCount < breaker.successThreshold

/-- The parameters given to `new`. -/
def parameters (self : CircuitBreaker) : UInt32 × Nat × UInt32 :=
  (self.failureThreshold, self.resetTimeout, self.successThreshold)

theorem parameters_onSuccess (self : CircuitBreaker) :
    self.onSuccess.parameters = self.parameters := by
  unfold onSuccess
  cases self.state with
  | closed => rfl
  | opened => rfl
  | halfOpen =>
      dsimp only
      split
      · rfl
      · rfl

theorem parameters_onFailure (now : Nat) (self : CircuitBreaker) :
    (self.onFailure now).parameters = self.parameters := by
  unfold onFailure
  cases self.state with
  | opened => rfl
  | halfOpen => rfl
  | closed =>
      dsimp only
      split
      · rfl
      · rfl

/-- A success leaves the circuit open or not, with the instant of its opening. -/
theorem onSuccess_opened (self : CircuitBreaker) :
    (self.onSuccess.state = .opened ↔ self.state = .opened) ∧
      self.onSuccess.openedAt = self.openedAt := by
  unfold onSuccess
  cases atState : self.state with
  | closed => simp
  | opened => simp [atState]
  | halfOpen =>
      dsimp only
      split
      · simp
      · simp

theorem onSuccess_of_opened (isOpen : self.state = .opened) :
    self.onSuccess = self := by
  simp [onSuccess, isOpen]

theorem onFailure_of_opened (isOpen : self.state = .opened) :
    self.onFailure now = self := by
  simp [onFailure, isOpen]

/-- A failure that opens the circuit records the instant. -/
theorem openedAt_onFailure (wasNot : self.state ≠ .opened)
    (isOpen : (self.onFailure now).state = .opened) :
    (self.onFailure now).openedAt = some now := by
  unfold onFailure at isOpen ⊢
  cases atState : self.state with
  | opened => exact absurd atState wasNot
  | halfOpen => rfl
  | closed =>
      simp only [atState] at isOpen ⊢
      split
      · rfl
      · rename_i below
        rw [if_neg below] at isOpen
        cases isOpen

theorem report_of_opened (outcome : Except String Value) (now : Nat)
    (isOpen : self.state = .opened) :
    (self.report outcome now).1 = self := by
  cases outcome with
  | ok v => exact onSuccess_of_opened isOpen
  | error e => exact onFailure_of_opened isOpen

theorem parameters_report (outcome : Except String Value) (now : Nat)
    (self : CircuitBreaker) :
    (self.report outcome now).1.parameters = self.parameters := by
  cases outcome with
  | ok v => exact parameters_onSuccess self
  | error e => exact parameters_onFailure now self

theorem openedAt_report (outcome : Except String Value)
    (wasNot : self.state ≠ .opened)
    (isOpen : (self.report outcome now).1.state = .opened) :
    (self.report outcome now).1.openedAt = some now := by
  cases outcome with
  | ok v => exact absurd ((onSuccess_opened self).1.mp isOpen) wasNot
  | error e => exact openedAt_onFailure wasNot isOpen

theorem Steady.of_opened (isOpen : self.state = .opened) : self.Steady :=
  ⟨fun isClosed => (by simp [isOpen] at isClosed),
    fun isHalf => (by simp [isOpen] at isHalf)⟩

theorem Steady.of_closed (isClosed : self.state = .closed)
    (below : self.failureCount < self.failureThreshold) : self.Steady :=
  ⟨fun _ => below, fun isHalf => (by simp [isClosed] at isHalf)⟩

theorem Steady.of_halfOpen (isHalf : self.state = .halfOpen)
    (below : self.successCount < self.successThreshold) : self.Steady :=
  ⟨fun isClosed => (by simp [isHalf] at isClosed), fun _ => below⟩

theorem Steady.onSuccess (steady : self.Steady)
    (positive : 0 < self.failureThreshold) : self.onSuccess.Steady := by
  unfold CircuitBreaker.onSuccess
  cases self.state with
  | opened => exact steady
  | closed => exact Steady.of_closed rfl positive
  | halfOpen =>
      dsimp only
      split
      · exact Steady.of_closed rfl positive
      · rename_i below
        exact Steady.of_halfOpen rfl (UInt32.not_le.mp below)

theorem Steady.onFailure (steady : self.Steady) (now : Nat) :
    (self.onFailure now).Steady := by
  unfold CircuitBreaker.onFailure
  cases self.state with
  | opened => exact steady
  | halfOpen => exact Steady.of_opened rfl
  | closed =>
      dsimp only
      split
      · exact Steady.of_opened rfl
      · rename_i below
        exact Steady.of_closed rfl (UInt32.not_le.mp below)

theorem Steady.report (steady : self.Steady)
    (positive : 0 < self.failureThreshold) (outcome : Except String Value)
    (now : Nat) : (self.report outcome now).1.Steady := by
  cases outcome with
  | ok v => exact steady.onSuccess positive
  | error e => exact steady.onFailure now

end CircuitBreaker

/-! ## The invariant of a run -/

section

variable {failureThreshold successThreshold : UInt32} {resetTimeout : Nat}

/-- The counters are below their thresholds, the recorded instant is that of the
last opening, and the circuit is open as long as the timeout runs. -/
structure Guarded (failureThreshold : UInt32) (resetTimeout : Nat)
    (successThreshold : UInt32) (world : CircuitWorld Value) : Prop where
  parameters : world.state.shared.breaker.parameters =
    (failureThreshold, resetTimeout, successThreshold)
  steady : world.state.shared.breaker.Steady
  opening : circuitState world.state = .opened →
    ∃ opened, lastOpening world.trace = some opened ∧
      world.state.shared.breaker.openedAt = some opened
  past : ∀ opened, lastOpening world.trace = some opened →
    opened ≤ world.state.shared.now
  window : ∀ opened, lastOpening world.trace = some opened →
    world.state.shared.now < opened + resetTimeout →
    circuitState world.state = .opened

variable {source : CircuitWorld Value} {label : CircuitLabel Value}
variable {target : CircuitPool Value}

theorem Guarded.resetTimeout_eq
    (guarded : Guarded failureThreshold resetTimeout successThreshold source) :
    source.state.shared.breaker.resetTimeout = resetTimeout :=
  congrArg (fun parameters => parameters.2.1) guarded.parameters

theorem Guarded.failureThreshold_eq
    (guarded : Guarded failureThreshold resetTimeout successThreshold source) :
    source.state.shared.breaker.failureThreshold = failureThreshold :=
  congrArg (fun parameters => parameters.1) guarded.parameters

theorem Guarded.successThreshold_eq
    (guarded : Guarded failureThreshold resetTimeout successThreshold source) :
    source.state.shared.breaker.successThreshold = successThreshold :=
  congrArg (fun parameters => parameters.2.2) guarded.parameters

/-- The recorded instant of an open circuit is that of its last opening. -/
theorem Guarded.recorded
    (guarded : Guarded failureThreshold resetTimeout successThreshold source)
    {opened : Nat} (last : lastOpening source.trace = some opened)
    (isOpen : circuitState source.state = .opened) :
    source.state.shared.breaker.openedAt = some opened := by
  obtain ⟨other, isLast, isRecorded⟩ := guarded.opening isOpen
  rw [last] at isLast
  cases isLast
  exact isRecorded

/-- The delay is over when the clock has reached the deadline. -/
theorem Guarded.elapsed_iff
    (guarded : Guarded failureThreshold resetTimeout successThreshold source)
    {opened : Nat} (last : lastOpening source.trace = some opened)
    (isOpen : circuitState source.state = .opened) :
    source.state.shared.breaker.Elapsed source.state.shared.now ↔
      opened + resetTimeout ≤ source.state.shared.now := by
  have recorded := guarded.recorded last isOpen
  have sinceOpening : opened ≤ source.state.shared.now :=
    guarded.past opened last
  rw [CircuitBreaker.Elapsed, guarded.resetTimeout_eq]
  constructor
  · rintro ⟨instant, isInstant, past⟩
    rw [recorded] at isInstant
    cases isInstant
    omega
  · intro reached
    exact ⟨opened, recorded, by omega⟩

/-- A step that leaves the breaker as it is. -/
theorem Guarded.unchanged
    (guarded : Guarded failureThreshold resetTimeout successThreshold source)
    (executed : circuitObject.exec source.state label = some target)
    (sameBreaker : target.shared.breaker = source.state.shared.breaker)
    (later : source.state.shared.now ≤ target.shared.now) :
    Guarded failureThreshold resetTimeout successThreshold
      (source.push label target) := by
  have sameState : circuitState target = circuitState source.state := by
    rw [circuitState, circuitState, sameBreaker]
  have sameOpening : lastOpening (source.push label target).trace =
      lastOpening source.trace :=
    lastOpening_of_not_opens executed fun isOpen => sameState ▸ isOpen
  constructor
  · rw [World.push_state, sameBreaker]
    exact guarded.parameters
  · rw [World.push_state, sameBreaker]
    exact guarded.steady
  · rw [World.push_state, sameState, sameOpening, sameBreaker]
    exact guarded.opening
  · intro opened last
    rw [sameOpening] at last
    exact Nat.le_trans (guarded.past opened last) later
  · intro opened last within
    rw [sameOpening] at last
    rw [World.push_state] at within
    rw [World.push_state, sameState]
    exact guarded.window opened last (by omega)

/-- An outcome that is reported to a circuit that is not open. -/
theorem Guarded.reported (failureAtLeast : 1 ≤ failureThreshold)
    (guarded : Guarded failureThreshold resetTimeout successThreshold source)
    (executed : circuitObject.exec source.state label = some target)
    (wasNot : circuitState source.state ≠ .opened)
    (outcome : Except String Value)
    (sameNow : target.shared.now = source.state.shared.now)
    (afterReport : target.shared.breaker =
      (source.state.shared.breaker.report outcome source.state.shared.now).1) :
    Guarded failureThreshold resetTimeout successThreshold
      (source.push label target) := by
  have parameters : target.shared.breaker.parameters =
      (failureThreshold, resetTimeout, successThreshold) := by
    rw [afterReport, CircuitBreaker.parameters_report]
    exact guarded.parameters
  have positive : 0 < source.state.shared.breaker.failureThreshold :=
    guarded.failureThreshold_eq ▸ failureAtLeast
  have steady : target.shared.breaker.Steady := by
    rw [afterReport]
    exact guarded.steady.report positive outcome source.state.shared.now
  by_cases isOpen : circuitState target = .opened
  · have opens : lastOpening (source.push label target).trace =
        some source.state.shared.now :=
      lastOpening_of_opens executed wasNot isOpen
    have recorded : target.shared.breaker.openedAt =
        some source.state.shared.now := by
      rw [circuitState, afterReport] at isOpen
      rw [afterReport]
      exact CircuitBreaker.openedAt_report outcome wasNot isOpen
    refine ⟨parameters, steady, fun _ => ⟨_, opens, recorded⟩, ?_,
      fun _ _ _ => isOpen⟩
    intro opened last
    rw [opens] at last
    cases last
    exact Nat.le_of_eq sameNow.symm
  · have sameOpening : lastOpening (source.push label target).trace =
        lastOpening source.trace :=
      lastOpening_of_not_opens executed fun opens => absurd opens isOpen
    refine ⟨parameters, steady, fun opens => absurd opens isOpen, ?_, ?_⟩
    · intro opened last
      rw [World.push_state, sameNow]
      exact guarded.past opened (sameOpening ▸ last)
    · intro opened last within
      rw [World.push_state, sameNow] at within
      exact absurd (guarded.window opened (sameOpening ▸ last) within) wasNot

theorem Guarded.next (failureAtLeast : 1 ≤ failureThreshold)
    (successAtLeast : 1 ≤ successThreshold)
    (guarded : Guarded failureThreshold resetTimeout successThreshold source)
    (executed : circuitObject.exec source.state label = some target) :
    Guarded failureThreshold resetTimeout successThreshold
      (source.push label target) := by
  cases circuitMove_of_exec executed with
  | begin _ => exact guarded.unchanged executed rfl (Nat.le_refl _)
  | tick => exact guarded.unchanged executed rfl (Nat.le_add_right _ _)
  | reject _ _ _ _ => exact guarded.unchanged executed rfl (Nat.le_refl _)
  | accept _ _ _ => exact guarded.unchanged executed rfl (Nat.le_refl _)
  | @probe thread _ _ _ isOpen past =>
      obtain ⟨opened, last, _⟩ := guarded.opening isOpen
      have reached : opened + resetTimeout ≤ source.state.shared.now :=
        (guarded.elapsed_iff last isOpen).mp past
      have sameOpening :
          lastOpening ((source.state, .run thread) :: source.trace) =
            lastOpening source.trace :=
        lastOpening_of_not_opens executed fun isOpen => (by cases isOpen)
      constructor
      · exact guarded.parameters
      · refine CircuitBreaker.Steady.of_halfOpen rfl ?_
        exact guarded.successThreshold_eq ▸ successAtLeast
      · intro isOpen
        cases isOpen
      · intro other isLast
        exact guarded.past other (sameOpening ▸ isLast)
      · intro other isLast within
        rw [World.push, sameOpening, last] at isLast
        cases isLast
        exact absurd within (Nat.not_lt.mpr reached)
  | @report thread activity _ _ =>
      by_cases isOpen : circuitState source.state = .opened
      · refine guarded.unchanged executed ?_ (Nat.le_refl _)
        exact CircuitBreaker.report_of_opened activity.call.outcome _ isOpen
      · exact guarded.reported failureAtLeast executed isOpen
          activity.call.outcome rfl rfl

theorem guarded_of_reachable (failureAtLeast : 1 ≤ failureThreshold)
    (successAtLeast : 1 ≤ successThreshold)
    (reachable :
      (circuitSystem failureThreshold resetTimeout successThreshold).Reachable
        (fun _ _ => True) source) :
    Guarded failureThreshold resetTimeout successThreshold source := by
  refine reachable.invariant
    (Guarded failureThreshold resetTimeout successThreshold) ?_ ?_
  · rintro pool ⟨shared, isNew, rfl⟩
    have isClosed : shared.breaker.state = .closed := by
      rw [isNew]
      rfl
    constructor
    · exact congrArg CircuitBreaker.parameters isNew
    · refine CircuitBreaker.Steady.of_closed isClosed ?_
      change shared.breaker.failureCount < shared.breaker.failureThreshold
      rw [isNew]
      exact failureAtLeast
    · intro isOpen
      change shared.breaker.state = .opened at isOpen
      rw [isClosed] at isOpen
      cases isOpen
    · intro opened last
      cases last
    · intro opened last
      cases last
  · intro label source target _ guarded step
    obtain ⟨_, executed, pushed⟩ := step
    rw [pushed]
    exact guarded.next failureAtLeast successAtLeast executed

/-! ## The contract -/

/-- What an open circuit does at the next step: a call that asks is rejected until
the deadline and let through from then on, a late report changes nothing, and no
other step closes the window. -/
structure OpenContract (resetTimeout opened : Nat)
    (source : CircuitPool Value) : Prop where
  recorded : source.shared.breaker.openedAt = some opened
  rejects : ∀ thread activity,
    source.activity? thread = some activity →
    activity.position = .beforeCall →
    source.shared.now < opened + resetTimeout →
    circuitObject.exec source (.run thread) =
      some (source.finish thread activity source.shared (.error .circuitOpen))
  admits : ∀ thread activity,
    source.activity? thread = some activity →
    activity.position = .beforeCall →
    opened + resetTimeout ≤ source.shared.now →
    ∃ target,
      circuitObject.exec source (.run thread) = some target ∧
        target.activity? thread =
          some { activity with position := .service } ∧
        circuitState target = .halfOpen
  ignores : ∀ thread activity target,
    source.activity? thread = some activity →
    activity.position = .service →
    circuitObject.exec source (.run thread) = some target →
    target.shared = source.shared
  stays : ∀ label target,
    circuitObject.exec source label = some target →
    (circuitState target = .opened ∧
        target.shared.breaker.openedAt = some opened) ∨
      opened + resetTimeout ≤ source.shared.now ∧
        ∃ thread activity,
          label = .run thread ∧
            source.activity? thread = some activity ∧
            activity.position = .beforeCall

theorem Guarded.contract {opened : Nat}
    (guarded : Guarded failureThreshold resetTimeout successThreshold source)
    (last : lastOpening source.trace = some opened)
    (isOpen : circuitState source.state = .opened) :
    OpenContract resetTimeout opened source.state := by
  have deadline := guarded.elapsed_iff last isOpen
  have recorded := guarded.recorded last isOpen
  constructor
  · exact recorded
  · intro thread activity running asking within
    apply ConcurrentObject.exec_of_finish running
    rcases CircuitBreaker.beforeCall_cases source.state.shared.now
        source.state.shared.breaker with
      ⟨notOpen, _⟩ | ⟨_, past, _⟩ | ⟨_, _, decision⟩
    · exact absurd isOpen notOpen
    · exact absurd (deadline.mp past) (Nat.not_le.mpr within)
    · simp [circuitObject, CircuitCall.step, asking, decision]
  · intro thread activity running asking reached
    rcases CircuitBreaker.beforeCall_cases source.state.shared.now
        source.state.shared.breaker with
      ⟨notOpen, _⟩ | ⟨_, _, decision⟩ | ⟨_, waiting, _⟩
    · exact absurd isOpen notOpen
    · have stepped :
          circuitObject.step source.state.shared activity.position =
            ({ source.state.shared with
                breaker := source.state.shared.breaker.halfOpened },
              .goOn CircuitPosition.service) := by
        simp [circuitObject, CircuitCall.step, asking, decision]
      exact ⟨_, ConcurrentObject.exec_of_goOn running stepped,
        AList.lookup_insert _, rfl⟩
    · exact absurd (deadline.mpr reached) waiting
  · intro thread activity target running invoked executed
    rw [shared_of_service running invoked executed]
    have kept := CircuitBreaker.report_of_opened activity.call.outcome
      source.state.shared.now isOpen
    rw [kept]
  · intro label target executed
    cases circuitMove_of_exec executed with
    | begin _ => exact Or.inl ⟨isOpen, recorded⟩
    | tick => exact Or.inl ⟨isOpen, recorded⟩
    | reject _ _ _ _ => exact Or.inl ⟨isOpen, recorded⟩
    | accept _ _ notOpen => exact absurd isOpen notOpen
    | probe running asking _ past =>
        exact Or.inr ⟨deadline.mp past, _, _, rfl, running, asking⟩
    | @report _ reporter _ _ =>
        have kept := CircuitBreaker.report_of_opened reporter.call.outcome
          source.state.shared.now isOpen
        refine Or.inl ?_
        simp only [circuitState, Pool.finish, kept]
        exact ⟨isOpen, recorded⟩

/-- The counters stay below their thresholds, the circuit is open from its last
opening to the deadline at least, and an open circuit keeps its contract. -/
theorem openWindow (failureAtLeast : 1 ≤ failureThreshold)
    (successAtLeast : 1 ≤ successThreshold) {world : CircuitWorld Value}
    (reachable :
      (circuitSystem failureThreshold resetTimeout successThreshold).Reachable
        (fun _ _ => True) world) :
    (circuitState world.state = .closed →
        world.state.shared.breaker.failureCount < failureThreshold) ∧
      (circuitState world.state = .halfOpen →
        world.state.shared.breaker.successCount < successThreshold) ∧
      (∀ opened, lastOpening world.trace = some opened →
        world.state.shared.now < opened + resetTimeout →
        circuitState world.state = .opened) ∧
      (circuitState world.state = .opened →
        ∃ opened, lastOpening world.trace = some opened ∧
          OpenContract resetTimeout opened world.state) := by
  have guarded :=
    guarded_of_reachable failureAtLeast successAtLeast reachable
  refine ⟨?_, ?_, guarded.window, ?_⟩
  · intro isClosed
    exact guarded.failureThreshold_eq ▸ guarded.steady.failures isClosed
  · intro isHalf
    exact guarded.successThreshold_eq ▸ guarded.steady.successes isHalf
  · intro isOpen
    obtain ⟨opened, last, _⟩ := guarded.opening isOpen
    exact ⟨opened, last, guarded.contract last isOpen⟩

/-- A run up to the first failure, which opens the circuit. -/
theorem openWindow_of_failure :
    ∃ world : CircuitWorld Unit,
      circuitState world.state = .opened ∧
        ∃ opened, lastOpening world.trace = some opened ∧
          OpenContract 5 opened world.state := by
  obtain ⟨world, reachable, checked⟩ :=
    System.exists_reachable_of_replay (circuitSystem 1 5 1)
      (fun _ _ => True)
      (Pool.idle { breaker := .new 1 5 1, now := 0 })
      [.call 0 ⟨.error "down"⟩, .run 0, .run 0, .environment 3]
      (fun _ _ => true)
      (fun world : CircuitWorld Unit => decide (circuitState world.state = .opened))
      ⟨_, rfl, rfl⟩ (fun _ _ _ => trivial) (by decide +kernel)
  have isOpen : circuitState world.state = .opened :=
    of_decide_eq_true checked
  have contract := openWindow (by decide) (by decide) reachable
  exact ⟨world, isOpen, contract.2.2.2 isOpen⟩

end

end HautePerformance.Demos
