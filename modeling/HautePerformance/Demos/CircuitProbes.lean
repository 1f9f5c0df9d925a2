import HautePerformance.Demos.CircuitWindow

/-!
# Which outcomes close and reopen a circuit

A half-open circuit counts every outcome that is reported to it, also that of a
call which was admitted before it became half-open.  In the runs where such calls
do not report to a half-open circuit, it is closed by as many successes of its own
test calls as the threshold asks for, and reopened by the failure of one.
-/

namespace HautePerformance.Demos

open Library

variable {Value : Type}

/-! ## Test calls -/

/-- The call that the step lets through, by its thread and the step where it
began. -/
def admitted? (step : CircuitPool Value × CircuitLabel Value) :
    Option (Nat × Nat) :=
  match step.2 with
  | .run thread =>
      match step.1.activity? thread, circuitObject.exec step.1 step.2 with
      | some activity, some target =>
          if activity.position = .beforeCall ∧
              (target.activity? thread).isSome then
            some (thread, activity.began)
          else none
      | _, _ => none
  | _ => none

/-- The call that reports the outcome of the service, with its thread. -/
def reporting? (step : CircuitPool Value × CircuitLabel Value) :
    Option (Nat × CircuitActivity Value) :=
  match step.2 with
  | .run thread =>
      match step.1.activity? thread with
      | some activity =>
          if activity.position = .service then some (thread, activity)
          else none
      | none => none
  | _ => none

/-- The calls admitted since the circuit last became half-open. -/
def probes : List (CircuitPool Value × CircuitLabel Value) → List (Nat × Nat)
  | [] => []
  | step :: earlier =>
      (admitted? step).toList ++
        if Enters .halfOpen step then [] else probes earlier

/-- The service has answered with a value. -/
def succeeds (activity : CircuitActivity Value) : Bool :=
  match activity.call.outcome with
  | .ok _ => true
  | .error _ => false

/-- The step reports the outcome of a call admitted since the circuit last became
half-open, and the outcome is as given. -/
def reportsProbe (success : Bool)
    (earlier : List (CircuitPool Value × CircuitLabel Value))
    (step : CircuitPool Value × CircuitLabel Value) : Bool :=
  match reporting? step with
  | some (thread, activity) =>
      decide ((thread, activity.began) ∈ probes earlier) &&
        succeeds activity == success
  | none => false

/-- The successes of such calls. -/
def probeSuccesses : List (CircuitPool Value × CircuitLabel Value) → Nat
  | [] => 0
  | step :: earlier =>
      if Enters .halfOpen step then 0
      else if reportsProbe true earlier step then probeSuccesses earlier + 1
      else probeSuccesses earlier

/-- The step does not report to a half-open circuit the outcome of a call which
was admitted before it became half-open. -/
def reportsInTime (earlier : List (CircuitPool Value × CircuitLabel Value))
    (step : CircuitPool Value × CircuitLabel Value) : Bool :=
  match reporting? step with
  | some (thread, activity) =>
      circuitState step.1 != .halfOpen ||
        decide ((thread, activity.began) ∈ probes earlier)
  | none => true

/-- A half-open circuit is closed by the success of a test call, when the test
calls have succeeded as often as the threshold asks for, and reopened by the
failure of one. -/
def DecidedByProbes (successThreshold : UInt32)
    (earlier : List (CircuitPool Value × CircuitLabel Value))
    (step : CircuitPool Value × CircuitLabel Value) : Prop :=
  circuitState step.1 = .halfOpen →
    (Enters .closed step →
      reportsProbe true earlier step = true ∧
        probeSuccesses earlier + 1 = successThreshold.toNat) ∧
    (Enters .opened step → reportsProbe false earlier step = true)

instance (successThreshold : UInt32)
    (earlier : List (CircuitPool Value × CircuitLabel Value))
    (step : CircuitPool Value × CircuitLabel Value) :
    Decidable (DecidedByProbes successThreshold earlier step) :=
  inferInstanceAs (Decidable (_ → _ ∧ _))

/-! ## Reports to a half-open circuit -/

namespace CircuitBreaker

variable {self : CircuitBreaker}

/-- A success counts once more or closes the circuit. -/
theorem onSuccess_of_halfOpen (isHalf : self.state = .halfOpen)
    (below : self.successCount < self.successThreshold) :
    (self.onSuccess.state = .closed ∧
        self.successCount.toNat + 1 = self.successThreshold.toNat) ∨
      (self.onSuccess.state = .halfOpen ∧
        self.onSuccess.successCount.toNat = self.successCount.toNat + 1) := by
  have room : self.successCount.toNat < self.successThreshold.toNat :=
    UInt32.lt_iff_toNat_lt.mp below
  have fits : self.successThreshold.toNat < 2 ^ 32 :=
    self.successThreshold.toNat_lt
  have counted : (self.successCount + 1).toNat =
      self.successCount.toNat + 1 := by
    rw [UInt32.toNat_add]
    exact Nat.mod_eq_of_lt (by simp; omega)
  by_cases reached : self.successCount + 1 ≥ self.successThreshold
  · have threshold : self.successThreshold.toNat ≤
        (self.successCount + 1).toNat :=
      UInt32.le_iff_toNat_le.mp reached
    refine Or.inl ⟨?_, by omega⟩
    simp [onSuccess, isHalf, reached]
  · refine Or.inr ⟨?_, ?_⟩
    · simp [onSuccess, isHalf, reached]
    · simp only [onSuccess, isHalf, reached, if_false]
      exact counted

theorem onFailure_of_halfOpen (now : Nat) (isHalf : self.state = .halfOpen) :
    (self.onFailure now).state = .opened := by
  simp [onFailure, isHalf]

/-- A report does not make a circuit half-open. -/
theorem report_ne_halfOpen (outcome : Except String Value) (now : Nat)
    (notHalf : self.state ≠ .halfOpen) :
    (self.report outcome now).1.state ≠ .halfOpen := by
  cases outcome with
  | ok v =>
      change self.onSuccess.state ≠ .halfOpen
      unfold onSuccess
      cases atState : self.state with
      | halfOpen => exact absurd atState notHalf
      | closed => simp
      | opened => simp [atState]
  | error e =>
      change (self.onFailure now).state ≠ .halfOpen
      unfold onFailure
      cases atState : self.state with
      | halfOpen => exact absurd atState notHalf
      | opened => simp [atState]
      | closed =>
          dsimp only
          split
          · simp
          · simp

end CircuitBreaker

/-! ## Along a run -/

section

variable {failureThreshold successThreshold : UInt32} {resetTimeout : Nat}
variable {source : CircuitWorld Value} {label : CircuitLabel Value}
variable {target : CircuitPool Value}

/-- A half-open circuit has counted the successes of its test calls. -/
def Tallied (world : CircuitWorld Value) : Prop :=
  circuitState world.state = .halfOpen →
    world.state.shared.breaker.successCount.toNat = probeSuccesses world.trace

/-- A step that reports nothing and leaves the breaker as it is. -/
theorem Tallied.unchanged (tallied : Tallied source)
    (executed : circuitObject.exec source.state label = some target)
    (sameBreaker : target.shared.breaker = source.state.shared.breaker)
    (silent : reporting? (source.state, label) = none) :
    Tallied (source.push label target) := by
  intro isHalf
  have sameState : circuitState target = circuitState source.state := by
    rw [circuitState, circuitState, sameBreaker]
  have wasHalf : circuitState source.state = .halfOpen :=
    sameState.symm.trans isHalf
  have stays : ¬ Enters .halfOpen (source.state, label) :=
    not_enters_of_source executed wasHalf
  have noReport : reportsProbe true source.trace (source.state, label) =
      false := by
    rw [reportsProbe, silent]
  rw [World.push_state, sameBreaker, World.push, probeSuccesses,
    if_neg stays, noReport]
  exact tallied wasHalf

/-- A circuit that becomes half-open starts to count. -/
theorem tallied_of_enters
    (enters : Enters .halfOpen (source.state, label))
    (fresh : target.shared.breaker.successCount = 0) :
    Tallied (source.push label target) := by
  intro _
  rw [World.push_state, fresh, World.push, probeSuccesses, if_pos enters]
  rfl

theorem reportsProbe_of_reporting {thread : Nat}
    {activity : CircuitActivity Value}
    (reporting :
      reporting? (source.state, label) = some (thread, activity))
    (wasHalf : circuitState source.state = .halfOpen)
    (inTime : reportsInTime source.trace (source.state, label) = true) :
    reportsProbe (succeeds activity) source.trace (source.state, label) =
      true := by
  rw [reportsInTime, reporting] at inTime
  simp only [wasHalf, bne_self_eq_false, Bool.false_or] at inTime
  rw [reportsProbe, reporting]
  simpa using of_decide_eq_true inTime

/-- A circuit that is not half-open has nothing to count. -/
theorem tallied_of_leads {state : CircuitState}
    (leads : circuitState target = state) (other : state ≠ .halfOpen) :
    Tallied (source.push label target) := by
  intro isHalf
  rw [World.push_state, leads] at isHalf
  exact absurd isHalf other

/-- A step that does not decide anything. -/
theorem decided_of_same_state
    {earlier : List (CircuitPool Value × CircuitLabel Value)}
    {before : CircuitPool Value}
    (executed : circuitObject.exec before label = some target)
    (sameState : circuitState before = .halfOpen →
      circuitState target = .halfOpen) :
    DecidedByProbes successThreshold earlier (before, label) := by
  intro wasHalf
  have isHalf := sameState wasHalf
  constructor
  · intro closes
    exact absurd closes (not_enters_of_target executed isHalf (by decide))
  · intro opens
    exact absurd opens (not_enters_of_target executed isHalf (by decide))

/-- A test call succeeds. -/
theorem decided_of_success
    (tallied : Tallied source)
    (steady : source.state.shared.breaker.Steady)
    (sameThreshold :
      source.state.shared.breaker.successThreshold = successThreshold)
    (executed : circuitObject.exec source.state label = some target)
    (wasHalf : circuitState source.state = .halfOpen)
    (isProbe :
      reportsProbe true source.trace (source.state, label) = true)
    (afterSuccess : target.shared.breaker =
      source.state.shared.breaker.onSuccess) :
    DecidedByProbes successThreshold source.trace (source.state, label) ∧
      Tallied (source.push label target) := by
  have stays : ¬ Enters .halfOpen (source.state, label) :=
    not_enters_of_source executed wasHalf
  have soFar := tallied wasHalf
  rcases CircuitBreaker.onSuccess_of_halfOpen wasHalf
      (steady.successes wasHalf) with
    ⟨isClosed, reached⟩ | ⟨isHalf, counted⟩
  · have targetClosed : circuitState target = .closed := by
      rw [circuitState, afterSuccess, isClosed]
    refine ⟨fun _ => ⟨fun _ => ⟨isProbe, ?_⟩, ?_⟩,
      tallied_of_leads targetClosed (by decide)⟩
    · rw [← soFar, ← sameThreshold]
      exact reached
    · intro opens
      exact absurd opens
        (not_enters_of_target executed targetClosed (by decide))
  · have targetHalf : circuitState target = .halfOpen := by
      rw [circuitState, afterSuccess, isHalf]
    refine ⟨decided_of_same_state executed fun _ => targetHalf, ?_⟩
    intro _
    rw [World.push_state, afterSuccess, counted, World.push,
      probeSuccesses, if_neg stays, if_pos isProbe, soFar]

/-- A test call fails. -/
theorem decided_of_failure
    (executed : circuitObject.exec source.state label = some target)
    (isProbe :
      reportsProbe false source.trace (source.state, label) = true)
    (targetOpen : circuitState target = .opened) :
    DecidedByProbes successThreshold source.trace (source.state, label) ∧
      Tallied (source.push label target) := by
  refine ⟨fun _ => ⟨?_, fun _ => isProbe⟩,
    tallied_of_leads targetOpen (by decide)⟩
  intro closes
  exact absurd closes (not_enters_of_target executed targetOpen (by decide))

/-- The report of a test call to the circuit that it tests. -/
theorem decided_of_report {thread : Nat} {activity : CircuitActivity Value}
    (tallied : Tallied source)
    (steady : source.state.shared.breaker.Steady)
    (sameThreshold :
      source.state.shared.breaker.successThreshold = successThreshold)
    (executed : circuitObject.exec source.state label = some target)
    (reporting :
      reporting? (source.state, label) = some (thread, activity))
    (wasHalf : circuitState source.state = .halfOpen)
    (inTime : reportsInTime source.trace (source.state, label) = true)
    (afterReport : target.shared.breaker =
      (source.state.shared.breaker.report activity.call.outcome
        source.state.shared.now).1) :
    DecidedByProbes successThreshold source.trace (source.state, label) ∧
      Tallied (source.push label target) := by
  have isProbe := reportsProbe_of_reporting reporting wasHalf inTime
  cases outcome : activity.call.outcome with
  | ok v =>
      have success : succeeds activity = true := by
        rw [succeeds, outcome]
      have afterSuccess : target.shared.breaker =
          source.state.shared.breaker.onSuccess := by
        rw [afterReport, outcome]
        rfl
      rw [success] at isProbe
      exact decided_of_success tallied steady sameThreshold executed wasHalf
        isProbe afterSuccess
  | error e =>
      have failure : succeeds activity = false := by
        rw [succeeds, outcome]
      have targetOpen : circuitState target = .opened := by
        rw [circuitState, afterReport, outcome]
        exact CircuitBreaker.onFailure_of_halfOpen _ wasHalf
      rw [failure] at isProbe
      exact decided_of_failure executed isProbe targetOpen

theorem Tallied.next (tallied : Tallied source)
    (guarded : Guarded failureThreshold resetTimeout successThreshold source)
    (executed : circuitObject.exec source.state label = some target)
    (inTime : reportsInTime source.trace (source.state, label) = true) :
    DecidedByProbes successThreshold source.trace (source.state, label) ∧
      Tallied (source.push label target) := by
  have move := circuitMove_of_exec executed
  cases move with
  | begin _ =>
      exact ⟨decided_of_same_state executed id,
        tallied.unchanged executed rfl rfl⟩
  | tick =>
      exact ⟨decided_of_same_state executed id,
        tallied.unchanged executed rfl rfl⟩
  | @reject thread _ running asking _ _ =>
      have silent : reporting? (source.state, .run thread) = none := by
        simp [reporting?, running, asking]
      exact ⟨decided_of_same_state executed id,
        tallied.unchanged executed rfl silent⟩
  | @accept thread _ running asking _ =>
      have silent : reporting? (source.state, .run thread) = none := by
        simp [reporting?, running, asking]
      exact ⟨decided_of_same_state executed id,
        tallied.unchanged executed rfl silent⟩
  | probe _ _ isOpen _ =>
      have wasOpen : circuitState source.state = .opened := isOpen
      have wasNot : circuitState source.state ≠ .halfOpen := by
        rw [wasOpen]
        decide
      exact ⟨fun wasHalf => absurd wasHalf wasNot,
        tallied_of_enters ((enters_iff executed).mpr ⟨wasNot, rfl⟩) rfl⟩
  | @report thread activity running invoked =>
      by_cases wasHalf : circuitState source.state = .halfOpen
      · have reporting : reporting? (source.state, .run thread) =
            some (thread, activity) := by
          simp [reporting?, running, invoked]
        exact decided_of_report tallied guarded.steady
          guarded.successThreshold_eq executed reporting wasHalf inTime rfl
      · refine ⟨fun isHalf => absurd isHalf wasHalf, ?_⟩
        intro isHalf
        exact absurd isHalf
          (CircuitBreaker.report_ne_halfOpen activity.call.outcome
            source.state.shared.now wasHalf)

/-- In a run where no call that was admitted before the circuit last became
half-open reports to it while it is half-open, the test calls decide. -/
theorem probes_decide (failureAtLeast : 1 ≤ failureThreshold)
    (successAtLeast : 1 ≤ successThreshold) {world : CircuitWorld Value}
    (reachable :
      (circuitSystem failureThreshold resetTimeout successThreshold).Reachable
        (fun _ _ => True) world)
    (inTime : passes reportsInTime world.trace = true)
    {later earlier : List (CircuitPool Value × CircuitLabel Value)}
    {step : CircuitPool Value × CircuitLabel Value}
    (recorded : world.trace = later ++ step :: earlier) :
    DecidedByProbes successThreshold earlier step := by
  have along : passes reportsInTime world.trace = true →
      Tallied world ∧
        ∀ later step earlier, world.trace = later ++ step :: earlier →
          DecidedByProbes successThreshold earlier step := by
    refine reachable.invariant (fun world =>
      passes reportsInTime world.trace = true →
        Tallied world ∧
          ∀ later step earlier, world.trace = later ++ step :: earlier →
            DecidedByProbes successThreshold earlier step) ?_ ?_
    · rintro pool ⟨shared, isNew, rfl⟩ _
      refine ⟨?_, ?_⟩
      · intro isHalf
        change shared.breaker.state = .halfOpen at isHalf
        rw [isNew] at isHalf
        cases isHalf
      · intro later step earlier split
        simp at split
    · intro label source target reached inductionHypothesis executed passed
      obtain ⟨_, executed, pushed⟩ := executed
      rw [pushed] at passed ⊢
      obtain ⟨inTimeHere, passedBefore⟩ := passes_cons.mp passed
      obtain ⟨tallied, decidedBefore⟩ := inductionHypothesis passedBefore
      have guarded :=
        guarded_of_reachable failureAtLeast successAtLeast reached
      obtain ⟨decided, talliedNow⟩ :=
        tallied.next guarded executed inTimeHere
      refine ⟨talliedNow, ?_⟩
      intro later step earlier split
      cases later with
      | nil =>
          cases split
          exact decided
      | cons first later =>
          injection split with _ split
          exact decidedBefore later step earlier split
  exact (along inTime).2 later step earlier recorded

/-- A run where the only test call closes the circuit again. -/
theorem probes_decide_of_recovery :
    ∃ world : CircuitWorld Unit,
      ∃ step earlier,
        world.trace = [] ++ step :: earlier ∧
          circuitState step.1 = .halfOpen ∧ Enters .closed step ∧
          DecidedByProbes 1 earlier step := by
  obtain ⟨world, reachable, checked⟩ :=
    System.exists_reachable_of_replay (circuitSystem 1 5 1)
      (fun _ _ => True)
      (Pool.idle { breaker := .new 1 5 1, now := 0 })
      [.call 0 ⟨.error "down"⟩, .run 0, .run 0, .environment 5,
        .call 1 ⟨.ok ()⟩, .run 1, .run 1]
      (fun _ _ => true)
      (fun world : CircuitWorld Unit =>
        passes reportsInTime world.trace &&
          match world.trace with
          | step :: _ =>
              decide (circuitState step.1 = .halfOpen ∧ Enters .closed step)
          | [] => false)
      ⟨_, rfl, rfl⟩ (fun _ _ _ => trivial) (by decide +kernel)
  obtain ⟨inTime, last⟩ := Bool.and_eq_true_iff.mp checked
  cases recorded : world.trace with
  | nil => simp [recorded] at last
  | cons step earlier =>
      have split : world.trace = [] ++ step :: earlier := recorded
      simp only [recorded, decide_eq_true_eq] at last
      exact ⟨world, step, earlier, split, last.1, last.2,
        probes_decide (by decide) (by decide) reachable inTime split⟩

/-- A slow call that was admitted before the circuit opened succeeds after it has
become half-open, and closes it while the test call is still under way. -/
theorem late_success_closes :
    ¬ ∀ world : CircuitWorld Unit,
      (circuitSystem 1 5 1).Reachable (fun _ _ => True) world →
      ∀ later step earlier, world.trace = later ++ step :: earlier →
        DecidedByProbes 1 earlier step := by
  intro decided
  obtain ⟨world, reachable, checked⟩ :=
    System.exists_reachable_of_replay (circuitSystem 1 5 1)
      (fun _ _ => True)
      (Pool.idle { breaker := .new 1 5 1, now := 0 })
      [.call 0 ⟨.ok ()⟩, .run 0, .call 1 ⟨.error "down"⟩, .run 1, .run 1,
        .environment 5, .call 2 ⟨.ok ()⟩, .run 2, .run 0]
      (fun _ _ => true)
      (fun world : CircuitWorld Unit =>
        match world.trace with
        | step :: earlier => !decide (DecidedByProbes 1 earlier step)
        | [] => false)
      ⟨_, rfl, rfl⟩ (fun _ _ _ => trivial) (by decide +kernel)
  cases recorded : world.trace with
  | nil => simp [recorded] at checked
  | cons step earlier =>
      simp only [recorded, Bool.not_eq_true', decide_eq_false_iff_not]
        at checked
      exact checked (decided world reachable [] step earlier recorded)

end

end HautePerformance.Demos
