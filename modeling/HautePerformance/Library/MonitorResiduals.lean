import HautePerformance.Library.MonitorPrograms
import HautePerformance.Library.MonitorWakeUps

/-!
# What the threads of a monitor have left to do

The rest of the program of each thread, wherever the thread is in the section of a
call: falling asleep, being woken and sending notifications leave it alone, and
leaving a section takes it to what follows the call.  An invariant that speaks of the
rests, of the state and of the sections left so far is kept when the sections keep it.
-/

namespace HautePerformance.Library

variable {State Condition Call : Type} {Result : Call → Type} {n : Nat}

/-- What is left of the program, with the call that the thread is in. -/
def Status.residual : Status Condition Result → Program Result
  | .awake program => program
  | .asleep call _ next => .perform call next
  | .leaving _ program => program

theorem Status.residual_roused (status : Status Condition Result) :
    status.roused.residual = status.residual := by
  cases status <;> rfl

namespace MonitorPool

def residual (pool : MonitorPool State Condition Result n) (thread : Fin n) :
    Program Result :=
  (pool.status thread).residual

variable {pool : MonitorPool State Condition Result n} {thread : Fin n}

theorem residual_move (status : Status Condition Result) :
    (pool.move thread status).residual =
      Function.update pool.residual thread status.residual := by
  funext other
  by_cases same : other = thread
  · subst same
    rw [residual, move_status_self, Function.update_self]
  · rw [residual, move_status_of_ne _ _ _ same, Function.update_of_ne same, residual]

/-- A thread that goes on with the same rest. -/
theorem residual_move_same {status : Status Condition Result}
    (same : status.residual = pool.residual thread) :
    (pool.move thread status).residual = pool.residual := by
  rw [residual_move, same, Function.update_eq_self]

theorem residual_rouse : (pool.rouse thread).residual = pool.residual :=
  residual_move_same (Status.residual_roused _)

end MonitorPool

namespace Monitor

open MonitorPool

variable [DecidableEq Condition]
variable {monitor : Monitor State Condition Result}
variable {source target : MonitorPool State Condition Result n}
variable {label : MonitorLabel n}

/-- A step leaves the section of the next call of a thread, or leaves the rests of the
programs alone. -/
theorem residual_cases (moves : monitor.Moves source label target) :
    (target.residual = source.residual ∧ monitor.left? source label = none ∧
      (target.state = source.state ∨
        ∃ call condition,
          monitor.run call source.state = (target.state, .wait condition))) ∨
      ∃ thread call next result notifications,
        label = .enter thread ∧
          source.residual thread = .perform call next ∧
          monitor.run call source.state =
            (target.state, .leave result notifications) ∧
          monitor.left? source label = some ⟨call, result⟩ ∧
          target.residual = Function.update source.residual thread (next result) := by
  cases moves with
  | @wait thread call next state condition ready waits =>
      refine Or.inl ⟨residual_move_same ?_, ?_, Or.inr ⟨call, condition, waits⟩⟩
      · rw [MonitorPool.residual, ready]
        rfl
      · simp only [left?, ready, waits]
  | @leave thread call next state result notifications ready leaves =>
      refine Or.inr
        ⟨thread, call, next, result, notifications, rfl, ?_, leaves, ?_, ?_⟩
      · rw [MonitorPool.residual, ready]
        rfl
      · simp only [left?, ready, leaves]
      · exact residual_move _
  | @notifyOne thread woken condition rest program leaving asleep =>
      refine Or.inl ⟨?_, rfl, Or.inl rfl⟩
      rw [residual_rouse]
      exact residual_move_same (by
        rw [MonitorPool.residual, leaving]
        rfl)
  | @notifyNobody thread condition rest program leaving nobody =>
      refine Or.inl ⟨residual_move_same ?_, rfl, Or.inl rfl⟩
      rw [MonitorPool.residual, leaving]
      rfl
  | @notifyAll thread condition rest program leaving =>
      refine Or.inl ⟨?_, rfl, Or.inl rfl⟩
      have moved : (source.move thread (.leaving rest program)).residual =
          source.residual :=
        residual_move_same (by
          rw [MonitorPool.residual, leaving]
          rfl)
      rw [← moved]
      funext other
      simp only [MonitorPool.residual, rouseAll]
      split
      · exact Status.residual_roused _
      · rfl
  | @finish thread program leaving =>
      refine Or.inl ⟨residual_move_same ?_, rfl, Or.inl rfl⟩
      rw [MonitorPool.residual, leaving]
      rfl
  | @wake thread condition asleep =>
      exact Or.inl ⟨residual_rouse, rfl, Or.inl rfl⟩

variable {start : State → Prop} {programs : Fin n → Program Result}
variable {allowed : MonitorPool State Condition Result n → MonitorLabel n → Prop}

/-- The induction rule for the rests of the programs, the state and the sections. -/
theorem residual_invariant
    {world : World (MonitorPool State Condition Result n) (MonitorLabel n)}
    (reachable : (monitor.system start programs).Reachable allowed world)
    (related : (Fin n → Program Result) → State →
      List ((call : Call) × Result call) → Prop)
    (initial : ∀ state, start state → related programs state [])
    (waits : ∀ residual call state slept condition past,
      related residual state past →
      monitor.run call state = (slept, .wait condition) →
      related residual slept past)
    (leaves : ∀ {pool : MonitorPool State Condition Result n} {thread call next}
        {after result notifications past},
      allowed pool (.enter thread) →
      related pool.residual pool.state past →
      pool.residual thread = .perform call next →
      monitor.run call pool.state = (after, .leave result notifications) →
      related (Function.update pool.residual thread (next result)) after
        (past ++ [⟨call, result⟩])) :
    related world.state.residual world.state.state (monitor.sections world.trace) := by
  refine reachable.invariant
    (fun world =>
      related world.state.residual world.state.state (monitor.sections world.trace))
    ?_ ?_
  · rintro pool ⟨state, atStart, rfl⟩
    exact initial state atStart
  · intro label source target _ holds step
    have recorded :
        monitor.sections target.trace =
          monitor.sections source.trace ++
            (monitor.left? source.state label).toList := by
      rw [step.2.2]
      rfl
    rw [recorded]
    rcases residual_cases (moves_of_exec step.2.1) with
      ⟨sameRests, noSection, sameState | ⟨call, condition, waiting⟩⟩ |
      ⟨thread, call, next, result, notifications, isEntry, rest, leaving, isSection,
        rests⟩
    · rw [sameRests, noSection, sameState, Option.toList_none, List.append_nil]
      exact holds
    · rw [sameRests, noSection, Option.toList_none, List.append_nil]
      exact waits _ _ _ _ _ _ holds waiting
    · rw [rests, isSection, Option.toList_some]
      exact leaves (isEntry ▸ step.1) holds rest leaving

/-! ## Threads that are kept from a call -/

/-- No wake-up is lost, when every thread has finished, is asleep, or is kept from a
call that waits for nothing: who is asleep waits for what there is none of. -/
theorem no_supply_of_kept {valid : State → Prop} {waitsOn : Call → Option Condition}
    {supply : Condition → State → ℕ∞} {pool : MonitorPool State Condition Result n}
    (accounted : pool.Accounted valid waitsOn supply)
    (kept : ∀ thread, (pool.status thread).Resting ∨
      ∃ call next, pool.status thread = .awake (.perform call next) ∧
        waitsOn call = none)
    {thread : Fin n} {call : Call} {condition : Condition}
    {next : Result call → Program Result}
    (asleep : pool.status thread = .asleep call condition next) :
    waitsOn call = some condition ∧ supply condition pool.state = 0 := by
  have sleepsWell := accounted.sleepsWell thread
  rw [asleep] at sleepsWell
  refine ⟨sleepsWell, ?_⟩
  rcases accounted.covered condition with nobody | ⟨other, announced⟩ | enough
  · have isAsleep : (pool.status thread).AsleepOn condition := by
      rw [asleep]
      exact rfl
    exact absurd isAsleep (nobody thread)
  · rcases kept other with resting | ⟨_, _, ready, _⟩
    · rcases resting.finished_or_asleep with finished | ⟨_, _, _, sleeping⟩
      · rw [finished] at announced
        cases announced
      · rw [sleeping] at announced
        cases announced
    · rw [ready] at announced
      cases announced
  · have noHelp : pool.help waitsOn condition = 0 := by
      apply Finset.sum_eq_zero
      intro other _
      rcases kept other with resting | ⟨_, _, ready, waitsForNothing⟩
      · rcases resting.finished_or_asleep with finished | ⟨_, _, _, sleeping⟩
        · rw [finished]
          rfl
        · rw [sleeping]
          rfl
      · rw [ready, Status.help, demand, waitsForNothing]
        rfl
    rw [noHelp] at enough
    exact le_antisymm enough zero_le

end Monitor

end HautePerformance.Library
