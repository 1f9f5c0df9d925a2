import Mathlib.Algebra.BigOperators.Fin
import Mathlib.Algebra.Order.BigOperators.Group.Finset
import Mathlib.Data.ENat.Basic
import HautePerformance.Library.Monitor

/-!
# Monitors without lost wake-ups

Each condition is given a supply, how many sleepers the state could serve, without
a bound if it could serve all of them.  A thread helps with a condition if it is
about to enter a section that would take from the supply, or has notifications of
the condition to send.

The rule: if a section that falls asleep on a condition has found no supply of it,
and a section that is left pays for what it adds to a supply with notifications,
then as long as somebody is asleep on a condition the supply does not exceed the
help.  When no thread can take a step there is no help, hence no supply.
-/

namespace HautePerformance.Library

variable {State Condition Call : Type} {Result : Call → Type} {n : Nat}

namespace Status

/-- The thread is to wake everybody asleep on the condition. -/
def Broadcasts (condition : Condition) : Status Condition Result → Prop
  | .leaving notifications _ => .all condition ∈ notifications
  | _ => False

/-- The thread is asleep on the condition that its call waits for, if it is asleep. -/
def SleepsWell (waitsOn : Call → Option Condition) :
    Status Condition Result → Prop
  | .asleep call condition _ => waitsOn call = some condition
  | _ => True

theorem sleepsWell_roused {waitsOn : Call → Option Condition}
    {status : Status Condition Result} :
    status.roused.SleepsWell waitsOn := by
  cases status <;> exact trivial

end Status

namespace MonitorPool

/-- Somebody is to wake everybody asleep on the condition. -/
def Broadcasts (pool : MonitorPool State Condition Result n)
    (condition : Condition) : Prop :=
  ∃ thread, (pool.status thread).Broadcasts condition

variable {pool : MonitorPool State Condition Result n}

theorem nobodyAsleepOn_move {thread : Fin n}
    {status : Status Condition Result} {condition : Condition}
    (notAsleep : ¬ status.AsleepOn condition)
    (nobody : pool.NobodyAsleepOn condition) :
    (pool.move thread status).NobodyAsleepOn condition := by
  intro other
  by_cases same : other = thread
  · rw [same, move_status_self]
    exact notAsleep
  · rw [move_status_of_ne _ _ _ same]
    exact nobody other

theorem broadcasts_move {thread : Fin n} {status : Status Condition Result}
    {condition : Condition}
    (still : (pool.status thread).Broadcasts condition →
      status.Broadcasts condition)
    (broadcasts : pool.Broadcasts condition) :
    (pool.move thread status).Broadcasts condition := by
  obtain ⟨other, announced⟩ := broadcasts
  refine ⟨other, ?_⟩
  by_cases same : other = thread
  · rw [same, move_status_self]
    exact still (same ▸ announced)
  · rw [move_status_of_ne _ _ _ same]
    exact announced

theorem sleepsWell_move {thread : Fin n} {status : Status Condition Result}
    {waitsOn : Call → Option Condition}
    (sleepsWell : ∀ other, (pool.status other).SleepsWell waitsOn)
    (moved : status.SleepsWell waitsOn) (other : Fin n) :
    ((pool.move thread status).status other).SleepsWell waitsOn := by
  by_cases same : other = thread
  · rw [same, move_status_self]
    exact moved
  · rw [move_status_of_ne _ _ _ same]
    exact sleepsWell other

end MonitorPool

variable [DecidableEq Condition]

/-- A call takes one from the supply of the condition it waits for. -/
def demand (waitsOn : Call → Option Condition) (call : Call)
    (condition : Condition) : Nat :=
  if waitsOn call = some condition then 1 else 0

/-- How the sections deal with the supplies. -/
structure Monitor.Supplied (monitor : Monitor State Condition Result)
    (valid : State → Prop) (waitsOn : Call → Option Condition)
    (supply : Condition → State → ℕ∞) : Prop where
  keeps : ∀ call state, valid state → valid (monitor.run call state).1
  waits : ∀ call state slept condition,
    valid state →
    monitor.run call state = (slept, .wait condition) →
    slept = state ∧ waitsOn call = some condition ∧ supply condition state = 0
  leaves : ∀ call state after result notifications condition,
    valid state →
    monitor.run call state = (after, .leave result notifications) →
    .all condition ∈ notifications ∨
      supply condition after + demand waitsOn call condition ≤
        supply condition state + notifications.count (.one condition)

namespace Status

/-- How many sleepers on the condition the thread can answer for. -/
def help (waitsOn : Call → Option Condition) (condition : Condition) :
    Status Condition Result → Nat
  | .awake (.perform call _) => demand waitsOn call condition
  | .leaving notifications _ => notifications.count (.one condition)
  | _ => 0

variable {waitsOn : Call → Option Condition}
variable {status : Status Condition Result}

/-- Waking a sleeper turns it into help for the condition it was asleep on. -/
theorem help_roused {condition : Condition}
    (sleepsWell : status.SleepsWell waitsOn)
    (asleep : status.AsleepOn condition) (other : Condition) :
    status.roused.help waitsOn other =
      status.help waitsOn other + if condition = other then 1 else 0 := by
  obtain ⟨call, next, rfl⟩ := exists_of_asleepOn asleep
  have waitsThere : waitsOn call = some condition := sleepsWell
  simp only [roused, help, demand, waitsThere, Option.some.injEq, Nat.zero_add]

end Status

namespace MonitorPool

variable (waitsOn : Call → Option Condition)
variable (pool : MonitorPool State Condition Result n)

def help (condition : Condition) : Nat :=
  ∑ thread, (pool.status thread).help waitsOn condition

/-- Nobody is asleep on the condition, or everybody who is will be woken, or the
supply does not exceed the help and what is added to it. -/
def Covered (supply : Condition → State → ℕ∞) (condition : Condition)
    (extra : Nat) : Prop :=
  pool.NobodyAsleepOn condition ∨ pool.Broadcasts condition ∨
    supply condition pool.state ≤
      ((pool.help waitsOn condition + extra : ℕ) : ℕ∞)

/-- Only the help of the thread that moves changes. -/
theorem help_move (thread : Fin n) (status : Status Condition Result)
    (condition : Condition) :
    (pool.move thread status).help waitsOn condition +
        (pool.status thread).help waitsOn condition =
      pool.help waitsOn condition + status.help waitsOn condition := by
  have others :
      (∑ other ∈ Finset.univ.erase thread,
          ((pool.move thread status).status other).help waitsOn condition) =
        ∑ other ∈ Finset.univ.erase thread,
          (pool.status other).help waitsOn condition := by
    apply Finset.sum_congr rfl
    intro other member
    rw [move_status_of_ne _ _ _ (Finset.ne_of_mem_erase member)]
  have before :=
    Finset.add_sum_erase Finset.univ
      (fun other => (pool.status other).help waitsOn condition)
      (Finset.mem_univ thread)
  have after :=
    Finset.add_sum_erase Finset.univ
      (fun other =>
        ((pool.move thread status).status other).help waitsOn condition)
      (Finset.mem_univ thread)
  simp only [move_status_self] at before after
  unfold help
  omega

theorem help_section (state : State) (thread : Fin n)
    (status : Status Condition Result) (condition : Condition) :
    (MonitorPool.move { pool with state := state } thread status).help waitsOn
          condition +
        (pool.status thread).help waitsOn condition =
      pool.help waitsOn condition + status.help waitsOn condition :=
  help_move waitsOn { pool with state := state } thread status condition

variable {waitsOn pool}

section Covered

variable {supply : Condition → State → ℕ∞} {condition : Condition}
variable {extra extra' : Nat}

/-- A thread that does not fall asleep may trade its help for what is added. -/
theorem Covered.move {thread : Fin n} {status : Status Condition Result}
    (covered : pool.Covered waitsOn supply condition extra)
    (notAsleep : ¬ status.AsleepOn condition)
    (still : (pool.status thread).Broadcasts condition →
      status.Broadcasts condition)
    (trade : (pool.status thread).help waitsOn condition + extra ≤
      status.help waitsOn condition + extra') :
    (pool.move thread status).Covered waitsOn supply condition extra' := by
  rcases covered with nobody | broadcasts | enough
  · exact Or.inl (nobodyAsleepOn_move notAsleep nobody)
  · exact Or.inr (Or.inl (broadcasts_move still broadcasts))
  · have moved := help_move waitsOn pool thread status condition
    refine Or.inr (Or.inr (le_trans enough (Nat.cast_le.mpr ?_)))
    omega

theorem Covered.weaken (covered : pool.Covered waitsOn supply condition 0)
    (extra : Nat) : pool.Covered waitsOn supply condition extra := by
  rcases covered with nobody | broadcasts | enough
  · exact Or.inl nobody
  · exact Or.inr (Or.inl broadcasts)
  · refine Or.inr (Or.inr (le_trans enough (Nat.cast_le.mpr ?_)))
    omega

/-- A sleeper that is woken makes up for one notification of its condition. -/
theorem Covered.rouse {thread : Fin n} {on : Condition}
    (sleepsWell : (pool.status thread).SleepsWell waitsOn)
    (asleep : (pool.status thread).AsleepOn on)
    (covered : pool.Covered waitsOn supply condition
      (if on = condition then 1 else 0)) :
    (pool.rouse thread).Covered waitsOn supply condition 0 := by
  apply covered.move (Status.not_asleepOn_roused _ _)
  · intro broadcasts
    obtain ⟨call, next, isAsleep⟩ := Status.exists_of_asleepOn asleep
    rw [isAsleep] at broadcasts
    cases broadcasts
  · rw [Status.help_roused sleepsWell asleep, Nat.add_zero]

end Covered

/-- Waking everybody leaves nobody asleep on the condition and takes no help away. -/
theorem nobodyAsleepOn_rouseAll (condition : Condition) :
    (pool.rouseAll condition).NobodyAsleepOn condition := by
  intro thread
  by_cases asleep : (pool.status thread).AsleepOn condition
  · simpa [rouseAll, asleep] using Status.not_asleepOn_roused _ condition
  · simp [rouseAll, asleep]

theorem sleepsWell_rouseAll
    (sleepsWell : ∀ thread, (pool.status thread).SleepsWell waitsOn)
    (condition : Condition) (thread : Fin n) :
    ((pool.rouseAll condition).status thread).SleepsWell waitsOn := by
  by_cases asleep : (pool.status thread).AsleepOn condition
  · simpa [rouseAll, asleep] using Status.sleepsWell_roused
  · simpa [rouseAll, asleep] using sleepsWell thread

theorem Covered.rouseAll {supply : Condition → State → ℕ∞}
    {on condition : Condition} {extra : Nat}
    (sleepsWell : ∀ thread, (pool.status thread).SleepsWell waitsOn)
    (covered : on ≠ condition → pool.Covered waitsOn supply condition extra) :
    (pool.rouseAll on).Covered waitsOn supply condition extra := by
  by_cases same : on = condition
  · exact Or.inl (same ▸ nobodyAsleepOn_rouseAll on)
  · rcases covered same with nobody | ⟨thread, announced⟩ | enough
    · refine Or.inl fun thread asleepAfter => nobody thread ?_
      by_cases asleep : (pool.status thread).AsleepOn on
      · simp only [MonitorPool.rouseAll, asleep, if_true] at asleepAfter
        exact absurd asleepAfter (Status.not_asleepOn_roused _ _)
      · simpa only [MonitorPool.rouseAll, asleep, if_false] using asleepAfter
    · refine Or.inr (Or.inl ⟨thread, ?_⟩)
      have notAsleep : ¬ (pool.status thread).AsleepOn on := by
        intro asleep
        obtain ⟨call, next, isAsleep⟩ := Status.exists_of_asleepOn asleep
        rw [isAsleep] at announced
        cases announced
      simpa only [MonitorPool.rouseAll, notAsleep, if_false] using announced
    · refine Or.inr (Or.inr (le_trans enough (Nat.cast_le.mpr ?_)))
      apply Nat.add_le_add_right
      apply Finset.sum_le_sum
      intro thread _
      by_cases asleep : (pool.status thread).AsleepOn on
      · simp only [MonitorPool.rouseAll, asleep, if_true,
          Status.help_roused (sleepsWell thread) asleep]
        omega
      · simp only [MonitorPool.rouseAll, asleep, if_false, le_refl]

/-- What holds in every run of a monitor that deals with the supplies as it should. -/
structure Accounted (valid : State → Prop) (waitsOn : Call → Option Condition)
    (supply : Condition → State → ℕ∞)
    (pool : MonitorPool State Condition Result n) : Prop where
  valid : valid pool.state
  sleepsWell : ∀ thread, (pool.status thread).SleepsWell waitsOn
  covered : ∀ condition, pool.Covered waitsOn supply condition 0

end MonitorPool

namespace Monitor

open MonitorPool

variable {monitor : Monitor State Condition Result}
variable {valid : State → Prop} {waitsOn : Call → Option Condition}
variable {supply : Condition → State → ℕ∞}
variable {source target : MonitorPool State Condition Result n}

/-- A thread that falls asleep has found no supply. -/
theorem Supplied.accounted_wait (supplied : monitor.Supplied valid waitsOn supply)
    (accounted : source.Accounted valid waitsOn supply) {thread : Fin n}
    {call : Call} {next : Result call → Program Result} {state : State}
    {condition : Condition}
    (ready : source.status thread = .awake (.perform call next))
    (waits : monitor.run call source.state = (state, .wait condition)) :
    (MonitorPool.move { source with state := state } thread
      (.asleep call condition next)).Accounted valid waitsOn supply := by
  obtain ⟨rfl, waitsThere, empty⟩ := supplied.waits _ _ _ _ accounted.valid waits
  refine ⟨accounted.valid, sleepsWell_move accounted.sleepsWell waitsThere, ?_⟩
  intro other
  by_cases same : condition = other
  · subst same
    exact Or.inr (Or.inr (le_of_eq_of_le empty zero_le))
  · have notAsleep :
        ¬ Status.AsleepOn other (Status.asleep call condition next) :=
      same
    apply (accounted.covered other).move notAsleep
    · intro broadcasts
      rw [ready] at broadcasts
      cases broadcasts
    · have noDemand : demand waitsOn call other = 0 := by
        rw [demand, waitsThere, if_neg]
        simpa using same
      rw [ready]
      simp only [Status.help, noDemand, le_refl]

/-- What a section adds to a supply it pays for with notifications. -/
theorem Supplied.accounted_leave
    (supplied : monitor.Supplied valid waitsOn supply)
    (accounted : source.Accounted valid waitsOn supply) {thread : Fin n}
    {call : Call} {next : Result call → Program Result} {state : State}
    {result : Result call} {notifications : List (Notification Condition)}
    (ready : source.status thread = .awake (.perform call next))
    (leaves : monitor.run call source.state =
      (state, .leave result notifications)) :
    (MonitorPool.move { source with state := state } thread
      (.leaving notifications (next result))).Accounted
        valid waitsOn supply := by
  have validAfter : valid state := by
    have kept := supplied.keeps call source.state accounted.valid
    rwa [leaves] at kept
  refine ⟨validAfter, sleepsWell_move accounted.sleepsWell trivial, ?_⟩
  intro condition
  rcases supplied.leaves _ _ _ _ _ condition accounted.valid leaves with
    everybody | paid
  · refine Or.inr (Or.inl ⟨thread, ?_⟩)
    rw [move_status_self]
    exact everybody
  · rcases accounted.covered condition with nobody | broadcasts | enough
    · exact Or.inl (nobodyAsleepOn_move not_false nobody)
    · refine Or.inr (Or.inl (broadcasts_move ?_ broadcasts))
      intro impossible
      rw [ready] at impossible
      cases impossible
    · refine Or.inr (Or.inr ?_)
      have moved := help_section waitsOn source state thread
        (.leaving notifications (next result)) condition
      have helped : (source.status thread).help waitsOn condition =
          demand waitsOn call condition := by
        rw [ready]
        rfl
      have afterwards :
          (Status.leaving notifications (next result)).help waitsOn condition =
            notifications.count (.one condition) :=
        rfl
      rw [helped, afterwards] at moved
      have owed :
          supply condition state + demand waitsOn call condition ≤
            ((MonitorPool.help waitsOn
              (MonitorPool.move { source with state := state } thread
                (.leaving notifications (next result))) condition + 0 : ℕ) :
                ℕ∞) + demand waitsOn call condition := by
        calc
          supply condition state + demand waitsOn call condition ≤
              supply condition source.state +
                notifications.count (.one condition) := paid
          _ ≤ ((source.help waitsOn condition + 0 : ℕ) : ℕ∞) +
                notifications.count (.one condition) := by gcongr
          _ = _ := by
            rw [Nat.add_zero, Nat.add_zero, ← Nat.cast_add, ← Nat.cast_add,
              moved]
      exact (ENat.add_le_add_iff_right (ENat.natCast_ne_top _)).mp owed

/-- A notification is off the list of the thread that sends it. -/
theorem covered_send {thread : Fin n} {on condition : Condition}
    {rest : List (Notification Condition)} {program : Program Result}
    (leaving : source.status thread = .leaving (.one on :: rest) program)
    (covered : source.Covered waitsOn supply condition 0) :
    (source.move thread (.leaving rest program)).Covered waitsOn supply
      condition (if on = condition then 1 else 0) := by
  refine covered.move ?_ ?_ ?_
  · exact not_false
  · intro broadcasts
    rw [leaving] at broadcasts
    rcases List.mem_cons.mp broadcasts with impossible | inRest
    · cases impossible
    · exact inRest
  · rw [leaving]
    simp [Status.help, List.count_cons]

theorem covered_sendAll {thread : Fin n} {on condition : Condition}
    {rest : List (Notification Condition)} {program : Program Result}
    (leaving : source.status thread = .leaving (.all on :: rest) program)
    (different : on ≠ condition)
    (covered : source.Covered waitsOn supply condition 0) :
    (source.move thread (.leaving rest program)).Covered waitsOn supply
      condition 0 := by
  refine covered.move ?_ ?_ ?_
  · exact not_false
  · intro broadcasts
    rw [leaving] at broadcasts
    rcases List.mem_cons.mp broadcasts with same | inRest
    · cases same
      exact absurd rfl different
    · exact inRest
  · rw [leaving]
    simp [Status.help]

/-- Every step keeps the accounts. -/
theorem Supplied.accounted_step
    (supplied : monitor.Supplied valid waitsOn supply)
    {label : MonitorLabel n}
    (accounted : source.Accounted valid waitsOn supply)
    (executed : monitor.exec source label = some target) :
    target.Accounted valid waitsOn supply := by
  cases moves_of_exec executed with
  | wait ready waits => exact supplied.accounted_wait accounted ready waits
  | leave ready leaves => exact supplied.accounted_leave accounted ready leaves
  | @notifyOne thread woken on rest program leaving asleep =>
      have sleepsWell :
          ∀ other, ((source.move thread (.leaving rest program)).status
            other).SleepsWell waitsOn :=
        sleepsWell_move accounted.sleepsWell trivial
      refine ⟨accounted.valid,
        sleepsWell_move sleepsWell Status.sleepsWell_roused, ?_⟩
      intro condition
      exact (covered_send leaving (accounted.covered condition)).rouse
        (sleepsWell woken) asleep
  | @notifyNobody thread on rest program leaving nobody =>
      refine ⟨accounted.valid,
        sleepsWell_move accounted.sleepsWell trivial, ?_⟩
      intro condition
      by_cases same : on = condition
      · exact Or.inl (same ▸ nobody)
      · have sent := covered_send leaving (accounted.covered condition)
        rwa [if_neg same] at sent
  | @notifyAll thread on rest program leaving =>
      have sleepsWell :
          ∀ other, ((source.move thread (.leaving rest program)).status
            other).SleepsWell waitsOn :=
        sleepsWell_move accounted.sleepsWell trivial
      refine ⟨accounted.valid, sleepsWell_rouseAll sleepsWell on, ?_⟩
      intro condition
      exact Covered.rouseAll sleepsWell fun different =>
        covered_sendAll leaving different (accounted.covered condition)
  | @finish thread program leaving =>
      refine ⟨accounted.valid,
        sleepsWell_move accounted.sleepsWell trivial, ?_⟩
      intro condition
      refine (accounted.covered condition).move ?_ ?_ ?_
      · exact not_false
      · intro broadcasts
        rw [leaving] at broadcasts
        cases broadcasts
      · rw [leaving]
        simp [Status.help]
  | @wake thread on asleep =>
      refine ⟨accounted.valid,
        sleepsWell_move accounted.sleepsWell Status.sleepsWell_roused, ?_⟩
      intro condition
      exact ((accounted.covered condition).weaken _).rouse
        (accounted.sleepsWell thread) asleep

variable {start : State → Prop} {programs : Fin n → Program Result}
variable {allowed : MonitorPool State Condition Result n → MonitorLabel n → Prop}

theorem Supplied.accounted (supplied : monitor.Supplied valid waitsOn supply)
    (startsValid : ∀ state, start state → valid state)
    {world : World (MonitorPool State Condition Result n) (MonitorLabel n)}
    (reachable : (monitor.system start programs).Reachable allowed world) :
    world.state.Accounted valid waitsOn supply := by
  refine reachable.state_invariant (MonitorPool.Accounted valid waitsOn supply)
    ?_ ?_
  · rintro pool ⟨state, atStart, rfl⟩
    refine ⟨startsValid state atStart, fun _ => trivial, ?_⟩
    intro condition
    exact Or.inl fun _ => not_false
  · intro label before after accounted _ executed
    exact supplied.accounted_step accounted executed

/-- No wake-up is lost: when no thread can take a step, a thread is asleep only on
the condition its call waits for, and only if the state has no supply of it. -/
theorem no_supply_of_stuck {pool : MonitorPool State Condition Result n}
    (accounted : pool.Accounted valid waitsOn supply)
    (stuck : monitor.Stuck pool) {thread : Fin n} {call : Call}
    {condition : Condition} {next : Result call → Program Result}
    (asleep : pool.status thread = .asleep call condition next) :
    waitsOn call = some condition ∧ supply condition pool.state = 0 := by
  have sleepsWell := accounted.sleepsWell thread
  rw [asleep] at sleepsWell
  refine ⟨sleepsWell, ?_⟩
  rcases accounted.covered condition with nobody | broadcasts | enough
  · have isAsleep : (pool.status thread).AsleepOn condition := by
      rw [asleep]
      exact rfl
    exact absurd isAsleep (nobody thread)
  · obtain ⟨other, announced⟩ := broadcasts
    rcases (stuck.resting other).finished_or_asleep with
      finished | ⟨_, _, _, sleeping⟩
    · rw [finished] at announced
      cases announced
    · rw [sleeping] at announced
      cases announced
  · have noHelp : pool.help waitsOn condition = 0 := by
      apply Finset.sum_eq_zero
      intro other _
      rcases (stuck.resting other).finished_or_asleep with
        finished | ⟨_, _, _, sleeping⟩
      · rw [finished]
        rfl
      · rw [sleeping]
        rfl
    rw [noHelp] at enough
    exact le_antisymm enough zero_le

end Monitor

end HautePerformance.Library
