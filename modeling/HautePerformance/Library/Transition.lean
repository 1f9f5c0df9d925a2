import Mathlib.Data.List.Basic

/-!
# Executable labelled transition systems

A system is an initial predicate together with a partial step function: all
nondeterminism is carried by the labels, so a run can be replayed and evaluated.

A *world* is a state together with the run that led to it.  Keeping the run lets
a property speak about the past ("some earlier state held the entry") without
adding history variables to the modelled program.  Runs are restricted by a
predicate `allowed` on the state before a step and the label of the step.
-/

namespace HautePerformance.Library

universe u v

/-- An initial predicate and a partial, label-driven step function. -/
structure System (State : Type u) (Label : Type v) where
  init : State → Prop
  exec : State → Label → Option State

/-- A state with the steps that led to it, the most recent first.  Each step is
recorded as the state before it and its label. -/
structure World (State : Type u) (Label : Type v) where
  trace : List (State × Label)
  state : State

namespace World

variable {State : Type u} {Label : Type v}

/-- The state was met on the way, or is the current one. -/
def Visited (world : World State Label) (state : State) : Prop :=
  state = world.state ∨ ∃ label, (state, label) ∈ world.trace

/-- The world after one more step. -/
def push (world : World State Label) (label : Label) (target : State) :
    World State Label :=
  { trace := (world.state, label) :: world.trace, state := target }

@[simp]
theorem push_state (world : World State Label) (label : Label)
    (target : State) : (world.push label target).state = target :=
  rfl

theorem visited_current (world : World State Label) :
    world.Visited world.state :=
  Or.inl rfl

/-- A visited state stays visited. -/
theorem Visited.push {world : World State Label} {state : State}
    (visited : world.Visited state) (label : Label) (target : State) :
    (world.push label target).Visited state := by
  rcases visited with current | ⟨earlier, member⟩
  · exact Or.inr ⟨label, by simp [World.push, current]⟩
  · exact Or.inr ⟨earlier, List.mem_cons_of_mem _ member⟩

/-- After a step the new state has been visited, and those before it. -/
theorem visited_push {world : World State Label} {label : Label}
    {target state : State} :
    (world.push label target).Visited state ↔
      state = target ∨ world.Visited state := by
  constructor
  · rintro (current | ⟨earlier, member⟩)
    · exact Or.inl current
    · rcases List.mem_cons.mp member with isLast | isEarlier
      · exact Or.inr (Or.inl (Prod.ext_iff.mp isLast).1)
      · exact Or.inr (Or.inr ⟨earlier, isEarlier⟩)
  · rintro (isNew | visited)
    · exact Or.inl isNew
    · exact visited.push label target

/-- Visited states, as a list that can be searched. -/
def visitedStates (world : World State Label) : List State :=
  world.state :: world.trace.map Prod.fst

theorem visited_iff_mem (world : World State Label) (state : State) :
    world.Visited state ↔ state ∈ world.visitedStates := by
  simp [Visited, visitedStates]

end World

/-- Every step of a trace passes the check, which sees the steps before it. -/
def passes {State : Type u} {Label : Type v}
    (check : List (State × Label) → State × Label → Bool) :
    List (State × Label) → Bool
  | [] => true
  | step :: earlier => check earlier step && passes check earlier

section Passes

variable {State : Type u} {Label : Type v}
variable {check : List (State × Label) → State × Label → Bool}

theorem passes_cons {step : State × Label} {earlier : List (State × Label)} :
    passes check (step :: earlier) = true ↔
      check earlier step = true ∧ passes check earlier = true := by
  simp [passes]

/-- The check of a recorded step saw recorded steps only. -/
theorem check_of_mem {trace : List (State × Label)} {step : State × Label}
    (passed : passes check trace = true) (member : step ∈ trace) :
    ∃ earlier, earlier ⊆ trace ∧ check earlier step = true := by
  induction trace with
  | nil => cases member
  | cons last before inductionHypothesis =>
      obtain ⟨checked, passedBefore⟩ := passes_cons.mp passed
      rcases List.mem_cons.mp member with isLast | inBefore
      · exact ⟨before, List.subset_cons_self last before, isLast ▸ checked⟩
      · obtain ⟨earlier, recorded, checkedThen⟩ :=
          inductionHypothesis passedBefore inBefore
        exact ⟨earlier, List.subset_cons_of_subset last recorded, checkedThen⟩

end Passes

namespace System

variable {State : Type u} {Label : Type v} {system : System State Label}
variable {allowed : State → Label → Prop}

/-- One allowed step between worlds. -/
def Step (system : System State Label) (allowed : State → Label → Prop)
    (label : Label) (source target : World State Label) : Prop :=
  allowed source.state label ∧
    system.exec source.state label = some target.state ∧
    target = source.push label target.state

/-- The worlds reached by runs all of whose steps are allowed. -/
inductive Reachable (system : System State Label)
    (allowed : State → Label → Prop) : World State Label → Prop
  | start {state : State} :
      system.init state → Reachable system allowed ⟨[], state⟩
  | next {source target : World State Label} {label : Label} :
      Reachable system allowed source →
      system.Step allowed label source target →
      Reachable system allowed target

/-- The induction rule: what holds initially and is kept by every allowed step
out of a reachable world holds of every reachable world. -/
theorem Reachable.invariant {world : World State Label}
    (reachable : system.Reachable allowed world)
    (property : World State Label → Prop)
    (initial : ∀ state, system.init state → property ⟨[], state⟩)
    (preserved : ∀ label source target,
      system.Reachable allowed source →
      property source →
      system.Step allowed label source target →
      property target) :
    property world := by
  induction reachable with
  | start atStart => exact initial _ atStart
  | next reached step inductionHypothesis =>
      exact preserved _ _ _ reached inductionHypothesis step

/-- The induction rule for a property of the current state alone. -/
theorem Reachable.state_invariant {world : World State Label}
    (reachable : system.Reachable allowed world)
    (property : State → Prop)
    (initial : ∀ state, system.init state → property state)
    (preserved : ∀ label source target,
      property source →
      allowed source label →
      system.exec source label = some target →
      property target) :
    property world.state :=
  reachable.invariant (fun world => property world.state)
    initial
    (fun label source target _ holds step =>
      preserved label source.state target.state holds step.1 step.2.1)

/-- A recorded step was made from a world that the run has reached. -/
theorem Reachable.recorded {world : World State Label}
    (reachable : system.Reachable allowed world) {state : State}
    {label : Label} (member : (state, label) ∈ world.trace) :
    ∃ earlier, system.Reachable allowed earlier ∧ earlier.state = state := by
  induction reachable with
  | start _ => cases member
  | @next source target stepped reached step inductionHypothesis =>
      rw [step.2.2] at member
      rcases List.mem_cons.mp member with isLast | isEarlier
      · cases isLast
        exact ⟨source, reached, rfl⟩
      · exact inductionHypothesis isEarlier

/-- The recorded steps were allowed. -/
theorem Reachable.admitted {world : World State Label}
    (reachable : system.Reachable allowed world) {state : State}
    {label : Label} (member : (state, label) ∈ world.trace) :
    allowed state label := by
  induction reachable with
  | start _ => cases member
  | next _ step inductionHypothesis =>
      rw [step.2.2] at member
      rcases List.mem_cons.mp member with isLast | isEarlier
      · cases isLast
        exact step.1
      · exact inductionHypothesis isEarlier

/-- The run up to a recorded step. -/
theorem Reachable.earlier {world : World State Label}
    (reachable : system.Reachable allowed world)
    {later before : List (State × Label)} {state : State} {label : Label}
    (recorded : world.trace = later ++ (state, label) :: before) :
    system.Reachable allowed ⟨before, state⟩ := by
  induction reachable generalizing later with
  | start _ => simp at recorded
  | @next source target stepped reached step inductionHypothesis =>
      rw [step.2.2] at recorded
      cases later with
      | nil =>
          cases recorded
          exact reached
      | cons last rest =>
          injection recorded with _ recorded
          exact inductionHypothesis recorded

/-- What holds of the current state of every run holds of the visited states. -/
theorem Reachable.visited_invariant {world : World State Label}
    (reachable : system.Reachable allowed world)
    (property : State → Prop)
    (initial : ∀ state, system.init state → property state)
    (preserved : ∀ label source target,
      property source →
      allowed source label →
      system.exec source label = some target →
      property target)
    {state : State} (visited : world.Visited state) : property state := by
  induction reachable generalizing state with
  | start atStart =>
      rcases visited with rfl | ⟨label, ⟨⟩⟩
      exact initial _ atStart
  | @next source target label _ step inductionHypothesis =>
      rw [step.2.2, World.visited_push] at visited
      rcases visited with rfl | visited
      · exact preserved label source.state _
          (inductionHypothesis source.visited_current) step.1 step.2.1
      · exact inductionHypothesis visited

section Preorder

variable {related : State → State → Prop}

/-- The visited states come before the current one in any preorder along which
the steps go. -/
theorem Reachable.visited_before {world : World State Label}
    (reachable : system.Reachable allowed world)
    (reflexive : ∀ state, related state state)
    (transitive : ∀ first second third,
      related first second → related second third → related first third)
    (along : ∀ label source target,
      allowed source label →
      system.exec source label = some target →
      related source target)
    {state : State} (visited : world.Visited state) :
    related state world.state := by
  induction reachable with
  | start _ =>
      rcases visited with rfl | ⟨label, ⟨⟩⟩
      exact reflexive _
  | @next source target label _ step inductionHypothesis =>
      rw [step.2.2, World.visited_push] at visited
      rcases visited with rfl | visited
      · exact reflexive _
      · exact transitive _ _ _ (inductionHypothesis visited)
          (along label _ _ step.1 step.2.1)

/-- Of two visited states one comes before the other. -/
theorem Reachable.visited_related {world : World State Label}
    (reachable : system.Reachable allowed world)
    (reflexive : ∀ state, related state state)
    (transitive : ∀ first second third,
      related first second → related second third → related first third)
    (along : ∀ label source target,
      allowed source label →
      system.exec source label = some target →
      related source target)
    {first second : State} (visitedFirst : world.Visited first)
    (visitedSecond : world.Visited second) :
    related first second ∨ related second first := by
  induction reachable with
  | start _ =>
      rcases visitedFirst with rfl | ⟨label, ⟨⟩⟩
      rcases visitedSecond with rfl | ⟨label, ⟨⟩⟩
      exact Or.inl (reflexive _)
  | @next source target label reached step inductionHypothesis =>
      have firstBefore : related first target.state :=
        (reached.next step).visited_before reflexive transitive along
          visitedFirst
      have secondBefore : related second target.state :=
        (reached.next step).visited_before reflexive transitive along
          visitedSecond
      rw [step.2.2, World.visited_push] at visitedFirst visitedSecond
      rcases visitedFirst with rfl | visitedFirst
      · exact Or.inr secondBefore
      · rcases visitedSecond with rfl | visitedSecond
        · exact Or.inl firstBefore
        · exact inductionHypothesis visitedFirst visitedSecond

end Preorder

/-- Restricting the runs further keeps the reachable worlds reachable. -/
theorem Reachable.mono {weaker : State → Label → Prop}
    {world : World State Label} (reachable : system.Reachable allowed world)
    (weaken : ∀ state label, allowed state label → weaker state label) :
    system.Reachable weaker world := by
  induction reachable with
  | start atStart => exact Reachable.start atStart
  | next _ step inductionHypothesis =>
      exact inductionHypothesis.next ⟨weaken _ _ step.1, step.2⟩

/-- An invariant of the runs may be assumed before each of their steps. -/
theorem Reachable.assuming {world : World State Label}
    (reachable : system.Reachable allowed world) (fact : State → Prop)
    (always : ∀ earlier,
      system.Reachable allowed earlier → fact earlier.state) :
    system.Reachable
      (fun state label => allowed state label ∧ fact state) world := by
  induction reachable with
  | start atStart => exact Reachable.start atStart
  | next reached step inductionHypothesis =>
      exact inductionHypothesis.next
        ⟨⟨step.1, always _ reached⟩, step.2⟩

/-! ## Replaying a list of labels -/

/-- Execute the labels in order, recording the run. -/
def replay (system : System State Label) :
    World State Label → List Label → Option (World State Label)
  | world, [] => some world
  | world, label :: rest =>
      match system.exec world.state label with
      | none => none
      | some target => replay system (world.push label target) rest

/-- Every replayed step is recorded in the trace of the final world. -/
theorem trace_mem_of_replay {labels : List Label} :
    ∀ {source target : World State Label},
      system.replay source labels = some target →
      ∀ step, step ∈ source.trace → step ∈ target.trace := by
  induction labels with
  | nil =>
      intro source target replayed step member
      simp only [replay, Option.some.injEq] at replayed
      exact replayed ▸ member
  | cons label rest inductionHypothesis =>
      intro source target replayed step member
      simp only [replay] at replayed
      split at replayed
      · cases replayed
      · exact inductionHypothesis replayed step
          (List.mem_cons_of_mem _ member)

/-- A replay from a reachable world is a run, provided each recorded step is
allowed. -/
theorem reachable_of_replay {labels : List Label} :
    ∀ {source target : World State Label},
      system.Reachable allowed source →
      system.replay source labels = some target →
      (∀ step, step ∈ target.trace → allowed step.1 step.2) →
      system.Reachable allowed target := by
  induction labels with
  | nil =>
      intro source target reachable replayed _
      simp only [replay, Option.some.injEq] at replayed
      exact replayed ▸ reachable
  | cons label rest inductionHypothesis =>
      intro source target reachable replayed recorded
      simp only [replay] at replayed
      split at replayed
      · cases replayed
      · rename_i middle executed
        have allowedHere : allowed source.state label :=
          recorded (source.state, label)
            (trace_mem_of_replay replayed _ List.mem_cons_self)
        exact inductionHypothesis
          (reachable.next ⟨allowedHere, executed, rfl⟩) replayed recorded

/-- The usual form of a concrete run: replay from an initial state, check that a
computable guard admits each recorded step and that the final world has a
computable property. -/
theorem exists_reachable_of_replay (system : System State Label)
    (allowed : State → Label → Prop) (initial : State) (labels : List Label)
    (guard : State → Label → Bool) (check : World State Label → Bool)
    (atStart : system.init initial)
    (admits : ∀ state label, guard state label = true → allowed state label)
    (checked :
      (system.replay ⟨[], initial⟩ labels).map
        (fun world =>
          world.trace.all (fun step => guard step.1 step.2) && check world) =
        some true) :
    ∃ world, system.Reachable allowed world ∧ check world = true := by
  cases replayed : system.replay ⟨[], initial⟩ labels with
  | none => simp [replayed] at checked
  | some world =>
      simp only [replayed, Option.map_some, Option.some.injEq,
        Bool.and_eq_true, List.all_eq_true] at checked
      refine ⟨world, ?_, checked.2⟩
      exact reachable_of_replay (Reachable.start atStart) replayed
        fun step member => admits step.1 step.2 (checked.1 step member)

end System

end HautePerformance.Library
