import Mathlib.Data.Fintype.Basic
import Mathlib.Logic.Function.Basic
import HautePerformance.Library.Transition

/-!
# Monitors

A state behind a lock, with conditions to wait for.  A call runs one section of code
under the lock: it falls asleep on a condition, which releases the lock, or leaves
the section with a result, and sends its notifications after it has released the
lock.  A thread that is woken runs the same section again.

A section is one step, and so is each notification: `notify_one` wakes one of the
threads asleep on the condition, whichever, and nobody if there is none.  A thread
may also wake up for no reason.
-/

namespace HautePerformance.Library

inductive Notification (Condition : Type) where
  | one (condition : Condition)
  | all (condition : Condition)
  deriving DecidableEq, Repr

/-- How a section ends. -/
inductive Outcome (Condition Result : Type) where
  | wait (condition : Condition)
  | leave (result : Result) (notifications : List (Notification Condition))

/-- The section of each call. -/
structure Monitor (State Condition : Type) {Call : Type}
    (Result : Call → Type) where
  run : (call : Call) → State → State × Outcome Condition (Result call)

/-- A finite program: its calls one after the other, each chosen by what the calls
before it have returned. -/
inductive Program {Call : Type} (Result : Call → Type) : Type where
  | done
  | perform (call : Call) (next : Result call → Program Result)

/-- What a thread is doing: running its program, asleep in a call, or past the
section of a call with notifications to send. -/
inductive Status (Condition : Type) {Call : Type} (Result : Call → Type) where
  | awake (program : Program Result)
  | asleep (call : Call) (condition : Condition)
      (next : Result call → Program Result)
  | leaving (notifications : List (Notification Condition))
      (program : Program Result)

structure MonitorPool (State Condition : Type) {Call : Type}
    (Result : Call → Type) (n : Nat) where
  state : State
  status : Fin n → Status Condition Result

inductive MonitorLabel (n : Nat) where
  | enter (thread : Fin n)
  | notify (thread : Fin n) (woken : Option (Fin n))
  | finish (thread : Fin n)
  /-- A spurious wake-up. -/
  | wake (thread : Fin n)

variable {State Condition Call : Type} {Result : Call → Type} {n : Nat}

namespace Status

/-- The thread is asleep on the condition. -/
def AsleepOn (condition : Condition) :
    Status Condition Result → Prop
  | .asleep _ on _ => on = condition
  | _ => False

instance [DecidableEq Condition] (condition : Condition)
    (status : Status Condition Result) :
    Decidable (status.AsleepOn condition) :=
  match status with
  | .asleep _ on _ => inferInstanceAs (Decidable (on = condition))
  | .awake _ => isFalse not_false
  | .leaving _ _ => isFalse not_false

/-- The thread has finished its program or is asleep. -/
def Resting : Status Condition Result → Prop
  | .awake .done => True
  | .asleep _ _ _ => True
  | _ => False

instance (status : Status Condition Result) : Decidable status.Resting :=
  match status with
  | .awake .done => isTrue trivial
  | .asleep _ _ _ => isTrue trivial
  | .awake (.perform _ _) => isFalse not_false
  | .leaving _ _ => isFalse not_false

/-- A thread that is woken is about to enter its section again. -/
def roused : Status Condition Result → Status Condition Result
  | .asleep call _ next => .awake (.perform call next)
  | status => status

theorem exists_of_asleepOn {status : Status Condition Result}
    {condition : Condition} (asleep : status.AsleepOn condition) :
    ∃ call next, status = .asleep call condition next := by
  cases status with
  | awake program => cases asleep
  | asleep call on next =>
      cases asleep
      exact ⟨call, next, rfl⟩
  | leaving notifications program => cases asleep

theorem Resting.finished_or_asleep {status : Status Condition Result}
    (resting : status.Resting) :
    status = .awake .done ∨
      ∃ call condition next, status = .asleep call condition next := by
  cases status with
  | awake program =>
      cases program with
      | done => exact Or.inl rfl
      | perform call next => cases resting
  | asleep call condition next => exact Or.inr ⟨call, condition, next, rfl⟩
  | leaving notifications program => cases resting

theorem not_asleepOn_roused (status : Status Condition Result)
    (condition : Condition) : ¬ status.roused.AsleepOn condition := by
  cases status <;> exact not_false

end Status

namespace MonitorPool

def start (state : State) (programs : Fin n → Program Result) :
    MonitorPool State Condition Result n :=
  { state := state, status := fun thread => .awake (programs thread) }

/-- The pool after one thread has changed its status. -/
def move (pool : MonitorPool State Condition Result n) (thread : Fin n)
    (status : Status Condition Result) :
    MonitorPool State Condition Result n :=
  { pool with status := Function.update pool.status thread status }

def rouse (pool : MonitorPool State Condition Result n) (thread : Fin n) :
    MonitorPool State Condition Result n :=
  pool.move thread (pool.status thread).roused

def rouseAll [DecidableEq Condition]
    (pool : MonitorPool State Condition Result n) (condition : Condition) :
    MonitorPool State Condition Result n :=
  { pool with
    status := fun thread =>
      if (pool.status thread).AsleepOn condition then
        (pool.status thread).roused
      else
        pool.status thread }

def NobodyAsleepOn (pool : MonitorPool State Condition Result n)
    (condition : Condition) : Prop :=
  ∀ thread, ¬ (pool.status thread).AsleepOn condition

instance [DecidableEq Condition]
    (pool : MonitorPool State Condition Result n) (condition : Condition) :
    Decidable (pool.NobodyAsleepOn condition) :=
  inferInstanceAs (Decidable (∀ _, ¬ _))

section Projections

variable (pool : MonitorPool State Condition Result n) (thread : Fin n)
variable (status : Status Condition Result)

@[simp]
theorem move_status_self : (pool.move thread status).status thread = status := by
  simp [move]

theorem move_status_of_ne {other : Fin n} (different : other ≠ thread) :
    (pool.move thread status).status other = pool.status other := by
  simp [move, Function.update_of_ne different]

end Projections

end MonitorPool

namespace Monitor

variable [DecidableEq Condition]
variable (monitor : Monitor State Condition Result)

/-- The effect of one notification. -/
def deliver (pool : MonitorPool State Condition Result n) :
    Notification Condition → Option (Fin n) →
      Option (MonitorPool State Condition Result n)
  | .one condition, some woken =>
      if (pool.status woken).AsleepOn condition then some (pool.rouse woken)
      else none
  | .one condition, none =>
      if pool.NobodyAsleepOn condition then some pool else none
  | .all condition, none => some (pool.rouseAll condition)
  | .all _, some _ => none

def exec (pool : MonitorPool State Condition Result n) :
    MonitorLabel n → Option (MonitorPool State Condition Result n)
  | .enter thread =>
      match pool.status thread with
      | .awake (.perform call next) =>
          match monitor.run call pool.state with
          | (state, .wait condition) =>
              some ({ pool with state := state }.move thread
                (.asleep call condition next))
          | (state, .leave result notifications) =>
              some ({ pool with state := state }.move thread
                (.leaving notifications (next result)))
      | _ => none
  | .notify thread woken =>
      match pool.status thread with
      | .leaving (first :: rest) program =>
          deliver (pool.move thread (.leaving rest program)) first woken
      | _ => none
  | .finish thread =>
      match pool.status thread with
      | .leaving [] program => some (pool.move thread (.awake program))
      | _ => none
  | .wake thread =>
      match pool.status thread with
      | .asleep _ _ _ => some (pool.rouse thread)
      | _ => none

/-- The runs of the programs, one a thread, from the given states. -/
def system (start : State → Prop) (programs : Fin n → Program Result) :
    System (MonitorPool State Condition Result n) (MonitorLabel n) where
  init pool := ∃ state, start state ∧ pool = MonitorPool.start state programs
  exec := monitor.exec

/-- No thread can take a step: what is left are wake-ups for no reason. -/
def Stuck (pool : MonitorPool State Condition Result n) : Prop :=
  ∀ label, (∀ thread, label ≠ .wake thread) → monitor.exec pool label = none

/-- The call and the result of the section that a step leaves. -/
def left? (pool : MonitorPool State Condition Result n) :
    MonitorLabel n → Option ((call : Call) × Result call)
  | .enter thread =>
      match pool.status thread with
      | .awake (.perform call _) =>
          match monitor.run call pool.state with
          | (_, .leave result _) => some ⟨call, result⟩
          | (_, .wait _) => none
      | _ => none
  | _ => none

/-- The sections that have been left in a run, in the order of the lock. -/
def sections :
    List (MonitorPool State Condition Result n × MonitorLabel n) →
      List ((call : Call) × Result call)
  | [] => []
  | (pool, label) :: earlier =>
      sections earlier ++ (monitor.left? pool label).toList

/-! ## What a step can do -/

inductive Moves (source : MonitorPool State Condition Result n) :
    MonitorLabel n → MonitorPool State Condition Result n → Prop
  | wait {thread : Fin n} {call : Call} {next : Result call → Program Result}
      {state : State} {condition : Condition} :
      source.status thread = .awake (.perform call next) →
      monitor.run call source.state = (state, .wait condition) →
      Moves source (.enter thread)
        ({ source with state := state }.move thread
          (.asleep call condition next))
  | leave {thread : Fin n} {call : Call} {next : Result call → Program Result}
      {state : State} {result : Result call}
      {notifications : List (Notification Condition)} :
      source.status thread = .awake (.perform call next) →
      monitor.run call source.state = (state, .leave result notifications) →
      Moves source (.enter thread)
        ({ source with state := state }.move thread
          (.leaving notifications (next result)))
  | notifyOne {thread woken : Fin n} {condition : Condition}
      {rest : List (Notification Condition)} {program : Program Result} :
      source.status thread = .leaving (.one condition :: rest) program →
      ((source.move thread (.leaving rest program)).status woken).AsleepOn
        condition →
      Moves source (.notify thread (some woken))
        ((source.move thread (.leaving rest program)).rouse woken)
  | notifyNobody {thread : Fin n} {condition : Condition}
      {rest : List (Notification Condition)} {program : Program Result} :
      source.status thread = .leaving (.one condition :: rest) program →
      (source.move thread (.leaving rest program)).NobodyAsleepOn condition →
      Moves source (.notify thread none)
        (source.move thread (.leaving rest program))
  | notifyAll {thread : Fin n} {condition : Condition}
      {rest : List (Notification Condition)} {program : Program Result} :
      source.status thread = .leaving (.all condition :: rest) program →
      Moves source (.notify thread none)
        ((source.move thread (.leaving rest program)).rouseAll condition)
  | finish {thread : Fin n} {program : Program Result} :
      source.status thread = .leaving [] program →
      Moves source (.finish thread) (source.move thread (.awake program))
  | wake {thread : Fin n} {condition : Condition} :
      (source.status thread).AsleepOn condition →
      Moves source (.wake thread) (source.rouse thread)

variable {monitor}

theorem moves_of_exec {source target : MonitorPool State Condition Result n}
    {label : MonitorLabel n} (executed : monitor.exec source label = some target) :
    monitor.Moves source label target := by
  cases label with
  | enter thread =>
      simp only [exec] at executed
      split at executed
      · rename_i call next ready
        split at executed
        · rename_i state condition waits
          cases executed
          exact Moves.wait ready waits
        · rename_i state result notifications leaves
          cases executed
          exact Moves.leave ready leaves
      · cases executed
  | notify thread woken =>
      simp only [exec] at executed
      split at executed
      · rename_i first rest program leaving
        cases first with
        | one condition =>
            cases woken with
            | none =>
                simp only [deliver, Option.ite_none_right_eq_some,
                  Option.some.injEq] at executed
                obtain ⟨nobody, rfl⟩ := executed
                exact Moves.notifyNobody leaving nobody
            | some woken =>
                simp only [deliver, Option.ite_none_right_eq_some,
                  Option.some.injEq] at executed
                obtain ⟨asleep, rfl⟩ := executed
                exact Moves.notifyOne leaving asleep
        | all condition =>
            cases woken with
            | none =>
                cases executed
                exact Moves.notifyAll leaving
            | some woken => cases executed
      · cases executed
  | finish thread =>
      simp only [exec] at executed
      split at executed
      · rename_i program leaving
        cases executed
        exact Moves.finish leaving
      · cases executed
  | wake thread =>
      simp only [exec] at executed
      split at executed
      · rename_i call condition next asleep
        cases executed
        have onCondition : (source.status thread).AsleepOn condition := by
          rw [asleep]
          exact rfl
        exact Moves.wake onCondition
      · cases executed

omit [DecidableEq Condition] in
/-- The section that a step leaves. -/
theorem run_of_left? {pool : MonitorPool State Condition Result n}
    {label : MonitorLabel n} {call : Call} {result : Result call}
    (left : monitor.left? pool label = some ⟨call, result⟩) :
    ∃ thread next state notifications,
      label = .enter thread ∧
        pool.status thread = .awake (.perform call next) ∧
        monitor.run call pool.state = (state, .leave result notifications) := by
  unfold left? at left
  split at left
  · rename_i thread
    split at left
    · rename_i performed next ready
      split at left
      · rename_i state found notifications leaves
        cases left
        exact ⟨thread, next, state, notifications, rfl, ready, leaves⟩
      · cases left
    · cases left
  · cases left

/-- A step leaves a section, falls asleep in one, or does not touch the state. -/
theorem section_of_moves {source target : MonitorPool State Condition Result n}
    {label : MonitorLabel n} (moves : monitor.Moves source label target) :
    (∃ call result notifications,
        monitor.run call source.state =
          (target.state, .leave result notifications) ∧
        monitor.left? source label = some ⟨call, result⟩) ∨
      (∃ call condition,
        monitor.run call source.state = (target.state, .wait condition) ∧
        monitor.left? source label = none) ∨
      (target.state = source.state ∧ monitor.left? source label = none) := by
  cases moves with
  | wait ready waits =>
      refine Or.inr (Or.inl ⟨_, _, waits, ?_⟩)
      simp only [left?, ready, waits]
  | leave ready leaves =>
      refine Or.inl ⟨_, _, _, leaves, ?_⟩
      simp only [left?, ready, leaves]
  | notifyOne _ _ => exact Or.inr (Or.inr ⟨rfl, rfl⟩)
  | notifyNobody _ _ => exact Or.inr (Or.inr ⟨rfl, rfl⟩)
  | notifyAll _ => exact Or.inr (Or.inr ⟨rfl, rfl⟩)
  | finish _ => exact Or.inr (Or.inr ⟨rfl, rfl⟩)
  | wake _ => exact Or.inr (Or.inr ⟨rfl, rfl⟩)

section Sections

variable {start : State → Prop} {programs : Fin n → Program Result}
variable {allowed : MonitorPool State Condition Result n → MonitorLabel n → Prop}

/-- The induction rule for what the sections do: a relation between the state and
the sections left so far, kept by each section, holds in every run. -/
theorem sections_invariant
    {world : World (MonitorPool State Condition Result n) (MonitorLabel n)}
    (reachable : (monitor.system start programs).Reachable allowed world)
    (related : State → List ((call : Call) × Result call) → Prop)
    (initial : ∀ state, start state → related state [])
    (waits : ∀ call state slept condition past,
      related state past →
      monitor.run call state = (slept, .wait condition) →
      related slept past)
    (leaves : ∀ call state after result notifications past,
      related state past →
      monitor.run call state = (after, .leave result notifications) →
      related after (past ++ [⟨call, result⟩])) :
    related world.state.state (monitor.sections world.trace) := by
  refine reachable.invariant
    (fun world => related world.state.state (monitor.sections world.trace))
    ?_ ?_
  · rintro pool ⟨state, atStart, rfl⟩
    exact initial state atStart
  · intro label source target _ holds step
    rw [step.2.2]
    have recorded :
        monitor.sections (source.push label target.state).trace =
          monitor.sections source.trace ++
            (monitor.left? source.state label).toList :=
      rfl
    rw [recorded, World.push_state]
    rcases section_of_moves (moves_of_exec step.2.1) with
      ⟨call, result, notifications, leaving, isSection⟩ |
      ⟨call, condition, waiting, noSection⟩ | ⟨sameState, noSection⟩
    · rw [isSection, Option.toList_some]
      exact leaves _ _ _ _ _ _ holds leaving
    · rw [noSection, Option.toList_none, List.append_nil]
      exact waits _ _ _ _ _ holds waiting
    · rw [noSection, Option.toList_none, List.append_nil, sameState]
      exact holds

end Sections

theorem Stuck.resting {pool : MonitorPool State Condition Result n}
    (stuck : monitor.Stuck pool) (thread : Fin n) :
    (pool.status thread).Resting := by
  cases here : pool.status thread with
  | awake program =>
      cases program with
      | done => exact trivial
      | perform call next =>
          have blocked := stuck (.enter thread) (by simp)
          simp only [exec, here] at blocked
          split at blocked <;> cases blocked
  | asleep call condition next => exact trivial
  | leaving notifications program =>
      cases notifications with
      | nil =>
          have blocked := stuck (.finish thread) (by simp)
          simp only [exec, here] at blocked
          cases blocked
      | cons first rest =>
          have blocked (woken : Option (Fin n)) :
              deliver (pool.move thread (.leaving rest program)) first woken =
                none := by
            have unable := stuck (.notify thread woken) (by simp)
            simpa only [exec, here] using unable
          cases first with
          | all condition => cases blocked none
          | one condition =>
              by_cases nobody :
                  (pool.move thread (.leaving rest program)).NobodyAsleepOn
                    condition
              · have unable := blocked none
                rw [deliver, if_pos nobody] at unable
                cases unable
              · obtain ⟨woken, asleep⟩ := not_forall_not.mp nobody
                have unable := blocked (some woken)
                rw [deliver, if_pos asleep] at unable
                cases unable

/-- A pool is stuck when every thread has finished its program or is asleep. -/
theorem stuck_iff {pool : MonitorPool State Condition Result n} :
    monitor.Stuck pool ↔ ∀ thread, (pool.status thread).Resting := by
  constructor
  · exact Stuck.resting
  · intro resting label noWakeUp
    cases label with
    | enter thread =>
        have atRest := resting thread
        simp only [exec]
        split
        · rename_i ready
          rw [ready] at atRest
          cases atRest
        · rfl
    | notify thread woken =>
        have atRest := resting thread
        simp only [exec]
        split
        · rename_i leaving
          rw [leaving] at atRest
          cases atRest
        · rfl
    | finish thread =>
        have atRest := resting thread
        simp only [exec]
        split
        · rename_i leaving
          rw [leaving] at atRest
          cases atRest
        · rfl
    | wake thread => exact absurd rfl (noWakeUp thread)

end Monitor

end HautePerformance.Library
