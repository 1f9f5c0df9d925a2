import HautePerformance.Library.Families
import HautePerformance.Library.Monitor

/-!
# Straight-line programs on a monitor

Programs that make the same calls whatever these return.  The sections that have
been left and the calls that the threads still have to finish are the calls of the
programs, so that what a pool has done is known once it is known where its threads
have stopped.

A thread may also send its notifications before it releases the lock.  Then nobody
enters a section while a thread is on its way out.
-/

namespace HautePerformance.Library

variable {State Condition Call : Type} {Result : Call → Type} {n : Nat}

/-- Calls one after the other, whatever they return. -/
def Program.ofList : List Call → Program Result
  | [] => .done
  | call :: rest => .perform call fun _ => ofList rest

namespace Status

/-- The calls that a thread has not finished yet. -/
inductive Follows : Status Condition Result → List Call → Prop
  | awake {calls : List Call} : Follows (.awake (.ofList calls)) calls
  | asleep {call : Call} {condition : Condition} {rest : List Call} :
      Follows (.asleep call condition fun _ => .ofList rest) (call :: rest)
  | leaving {notifications : List (Notification Condition)} {rest : List Call} :
      Follows (.leaving notifications (.ofList rest)) rest

variable {status : Status Condition Result} {calls : List Call}

theorem Follows.roused (follows : status.Follows calls) :
    status.roused.Follows calls := by
  cases follows with
  | awake => exact Follows.awake
  | @asleep call condition rest =>
      have woken :
          (.awake (.ofList (call :: rest)) : Status Condition Result).Follows
            (call :: rest) := Follows.awake
      exact woken
  | leaving => exact Follows.leaving

/-- A thread that is about to enter a section has its call to finish, and what
follows. -/
theorem Follows.perform {call : Call} {next : Result call → Program Result}
    (follows : status.Follows calls)
    (ready : status = .awake (.perform call next)) :
    ∃ rest, calls = call :: rest ∧ next = fun _ => .ofList rest := by
  subst ready
  generalize here : (Status.awake (.perform call next) : Status Condition Result) =
    status at follows
  cases follows with
  | awake =>
      cases calls with
      | nil => cases here
      | cons first rest =>
          cases here
          exact ⟨rest, rfl, rfl⟩
  | asleep => cases here
  | leaving => cases here

theorem Follows.of_leaving {notifications : List (Notification Condition)}
    {program : Program Result}
    (follows : (.leaving notifications program : Status Condition Result).Follows
      calls) : program = .ofList calls := by
  cases follows with
  | leaving => rfl

theorem Follows.of_done
    (follows : (.awake .done : Status Condition Result).Follows calls) :
    calls = [] := by
  generalize here : (Status.awake .done : Status Condition Result) = status
    at follows
  cases follows with
  | awake =>
      cases calls with
      | nil => rfl
      | cons first rest => cases here
  | asleep => cases here
  | leaving => cases here

theorem Follows.of_asleep {call : Call} {condition : Condition}
    {next : Result call → Program Result}
    (follows : (.asleep call condition next : Status Condition Result).Follows
      calls) : call ∈ calls := by
  cases follows with
  | asleep => exact List.mem_cons_self

/-- The thread is on its way out of a section. -/
def Leaving : Status Condition Result → Prop
  | .leaving _ _ => True
  | _ => False

instance (status : Status Condition Result) : Decidable status.Leaving :=
  match status with
  | .leaving _ _ => isTrue trivial
  | .awake _ => isFalse not_false
  | .asleep _ _ _ => isFalse not_false

end Status

namespace MonitorPool

/-- The threads have these calls left to finish. -/
def Follows (pool : MonitorPool State Condition Result n)
    (left : Fin n → List Call) : Prop :=
  ∀ thread, (pool.status thread).Follows (left thread)

variable {pool : MonitorPool State Condition Result n} {left : Fin n → List Call}
variable {thread : Fin n}

theorem Follows.move {status : Status Condition Result} {calls : List Call}
    (follows : pool.Follows left) (moved : status.Follows calls) :
    (pool.move thread status).Follows (Function.update left thread calls) := by
  intro other
  by_cases same : other = thread
  · subst same
    rw [move_status_self, Function.update_self]
    exact moved
  · rw [move_status_of_ne _ _ _ same, Function.update_of_ne same]
    exact follows other

theorem Follows.stay {status : Status Condition Result}
    (follows : pool.Follows left) (moved : status.Follows (left thread)) :
    (pool.move thread status).Follows left := by
  have updated :
      (pool.move thread status).Follows
        (Function.update left thread (left thread)) := follows.move moved
  rwa [Function.update_eq_self] at updated

end MonitorPool

namespace Monitor

variable [DecidableEq Condition]
variable {monitor : Monitor State Condition Result}
variable {source target : MonitorPool State Condition Result n}
variable {label : MonitorLabel n} {left : Fin n → List Call}

/-- A step leaves the section of the next call of a thread, or changes nothing about
the calls that are left to finish. -/
theorem follows_step (follows : source.Follows left)
    (moves : monitor.Moves source label target) :
    (target.Follows left ∧ monitor.left? source label = none) ∨
      ∃ thread call rest result,
        left thread = call :: rest ∧
          target.Follows (Function.update left thread rest) ∧
          monitor.left? source label = some ⟨call, result⟩ := by
  cases moves with
  | @wait thread call next state condition ready waits =>
      obtain ⟨rest, calls, rfl⟩ := (follows thread).perform ready
      refine Or.inl ⟨?_, ?_⟩
      · refine MonitorPool.Follows.stay (fun other => follows other) ?_
        rw [calls]
        exact Status.Follows.asleep
      · simp only [left?, ready, waits]
  | @leave thread call next state result notifications ready leaves =>
      obtain ⟨rest, calls, rfl⟩ := (follows thread).perform ready
      refine Or.inr ⟨thread, call, rest, result, calls, ?_, ?_⟩
      · exact MonitorPool.Follows.move (fun other => follows other)
          Status.Follows.leaving
      · simp only [left?, ready, leaves]
  | @notifyOne thread woken condition rest program leaving asleep =>
      have here := follows thread
      rw [leaving] at here
      have moved : (source.move thread (.leaving rest program)).Follows left :=
        follows.stay (here.of_leaving ▸ Status.Follows.leaving)
      exact Or.inl ⟨moved.stay (moved woken).roused, rfl⟩
  | @notifyNobody thread condition rest program leaving nobody =>
      have here := follows thread
      rw [leaving] at here
      exact Or.inl
        ⟨follows.stay (here.of_leaving ▸ Status.Follows.leaving), rfl⟩
  | @notifyAll thread condition rest program leaving =>
      have here := follows thread
      rw [leaving] at here
      have moved : (source.move thread (.leaving rest program)).Follows left :=
        follows.stay (here.of_leaving ▸ Status.Follows.leaving)
      refine Or.inl ⟨fun other => ?_, rfl⟩
      simp only [MonitorPool.rouseAll]
      split
      · exact (moved other).roused
      · exact moved other
  | @finish thread program leaving =>
      have here := follows thread
      rw [leaving] at here
      exact Or.inl ⟨follows.stay (here.of_leaving ▸ Status.Follows.awake), rfl⟩
  | @wake thread condition asleep =>
      exact Or.inl ⟨follows.stay (follows thread).roused, rfl⟩

variable {start : State → Prop} {calls : Fin n → List Call}
variable {allowed : MonitorPool State Condition Result n → MonitorLabel n → Prop}

/-- The sections that have been left and the calls that are left to finish, the last
ones of each program, are the calls of the programs. -/
theorem calls_accounted
    {world : World (MonitorPool State Condition Result n) (MonitorLabel n)}
    (reachable :
      (monitor.system start fun thread => .ofList (calls thread)).Reachable allowed
        world) :
    ∃ left, world.state.Follows left ∧
      (∀ thread, left thread <:+ calls thread) ∧
      ((monitor.sections world.trace).map Sigma.fst : Multiset Call) +
        gathered left = gathered calls := by
  induction reachable with
  | start atStart =>
      obtain ⟨state, _, rfl⟩ := atStart
      exact ⟨calls, fun thread => Status.Follows.awake,
        fun thread => List.suffix_refl _, zero_add _⟩
  | @next source target label _ step inductionHypothesis =>
      obtain ⟨left, follows, isSuffix, accounted⟩ := inductionHypothesis
      have recorded :
          monitor.sections target.trace =
            monitor.sections source.trace ++
              (monitor.left? source.state label).toList := by
        rw [step.2.2]
        rfl
      rw [recorded]
      rcases follows_step follows (moves_of_exec step.2.1) with
        ⟨still, noSection⟩ | ⟨thread, call, rest, result, next, moved, isSection⟩
      · refine ⟨left, still, isSuffix, ?_⟩
        rwa [noSection, Option.toList_none, List.append_nil]
      · refine ⟨Function.update left thread rest, moved, ?_, ?_⟩
        · intro other
          by_cases same : other = thread
          · subst same
            rw [Function.update_self]
            exact (next ▸ List.suffix_cons call rest).trans (isSuffix other)
          · rw [Function.update_of_ne same]
            exact isSuffix other
        rw [isSection, Option.toList_some, List.map_append, ← Multiset.coe_add,
          add_assoc]
        have oneMore := gathered_update next
        rw [← accounted, ← oneMore]
        rfl

/-! ## Notifications under the lock -/

/-- Nobody enters a section while a thread is on its way out. -/
def Exclusive (pool : MonitorPool State Condition Result n) :
    MonitorLabel n → Prop
  | .enter _ => ∀ thread, ¬ (pool.status thread).Leaving
  | _ => True

instance (pool : MonitorPool State Condition Result n) (label : MonitorLabel n) :
    Decidable (Exclusive pool label) :=
  match label with
  | .enter _ => inferInstanceAs (Decidable (∀ _, ¬ _))
  | .notify _ _ => isTrue trivial
  | .finish _ => isTrue trivial
  | .wake _ => isTrue trivial

omit [DecidableEq Condition] in
/-- Only entering a section needs the lock. -/
theorem exclusive_of_ne_enter {pool : MonitorPool State Condition Result n}
    {label : MonitorLabel n} (noEntry : ∀ thread, label ≠ .enter thread) :
    Exclusive pool label := by
  cases label with
  | enter thread => exact absurd rfl (noEntry thread)
  | notify _ _ => exact trivial
  | finish _ => exact trivial
  | wake _ => exact trivial

/-- A thread on its way out can go on. -/
theorem exists_exec_of_leaving {pool : MonitorPool State Condition Result n}
    {thread : Fin n} (leaving : (pool.status thread).Leaving) :
    ∃ label, (∀ other, label ≠ .wake other) ∧ (∀ other, label ≠ .enter other) ∧
      monitor.exec pool label ≠ none := by
  cases here : pool.status thread with
  | awake program =>
      rw [here] at leaving
      cases leaving
  | asleep call condition next =>
      rw [here] at leaving
      cases leaving
  | leaving notifications program =>
      cases notifications with
      | nil => exact ⟨.finish thread, by simp, by simp, by simp [exec, here]⟩
      | cons first rest =>
          cases first with
          | all condition =>
              exact ⟨.notify thread none, by simp, by simp,
                by simp [exec, here, deliver]⟩
          | one condition =>
              by_cases nobody :
                  (pool.move thread (.leaving rest program)).NobodyAsleepOn
                    condition
              · exact ⟨.notify thread none, by simp, by simp,
                  by simp [exec, here, deliver, nobody]⟩
              · obtain ⟨woken, asleep⟩ := not_forall_not.mp nobody
                exact ⟨.notify thread (some woken), by simp, by simp,
                  by simp [exec, here, deliver, asleep]⟩

/-- A pool whose threads cannot take a step while they respect the lock cannot take
one at all: a thread on its way out is never in its own way. -/
theorem stuck_of_exclusive {pool : MonitorPool State Condition Result n}
    (stuck : ∀ label, (∀ thread, label ≠ .wake thread) →
      Exclusive pool label → monitor.exec pool label = none) :
    monitor.Stuck pool := by
  have nobodyLeaves (thread : Fin n) : ¬ (pool.status thread).Leaving := by
    intro leaving
    obtain ⟨label, noWakeUp, noEntry, goesOn⟩ :=
      exists_exec_of_leaving leaving
    exact goesOn (stuck label noWakeUp (exclusive_of_ne_enter noEntry))
  intro label noWakeUp
  cases label with
  | enter thread => exact stuck (.enter thread) noWakeUp nobodyLeaves
  | notify _ _ => exact stuck _ noWakeUp trivial
  | finish _ => exact stuck _ noWakeUp trivial
  | wake _ => exact stuck _ noWakeUp trivial

end Monitor

end HautePerformance.Library
