import Mathlib.Algebra.Order.Group.Multiset
import Mathlib.Tactic.Abel
import HautePerformance.Library.PoolTotals

/-!
# Linearizable objects

The calls of a pool, each of which takes effect at one of its steps, come in the
order of their effects.  Made one at a time in that order they give the same results,
and the order keeps that of real time: a call that had returned when another one
began comes before it.  Among the calls under way there are those that have taken
effect, and their results are settled before they return.
-/

namespace HautePerformance.Library

variable {Shared Environment Call Abstract : Type} {Position Result : Call → Type}

/-- A call with a result. -/
structure Operation {Call : Type} (Result : Call → Type) where
  call : Call
  result : Result call

/-- What calls do one at a time: the state before an operation, and one after it. -/
abbrev Sequential (Abstract : Type) {Call : Type} (Result : Call → Type) :=
  Abstract → Operation Result → Abstract → Prop

/-- Operations one after the other. -/
inductive Sequential.Legal (sequential : Sequential Abstract Result) :
    Abstract → List (Operation Result) → Abstract → Prop
  | nil {state : Abstract} : Legal sequential state [] state
  | cons {first middle last : Abstract} {operation : Operation Result}
      {rest : List (Operation Result)} :
      sequential first operation middle →
      Legal sequential middle rest last →
      Legal sequential first (operation :: rest) last

theorem Sequential.Legal.concat {sequential : Sequential Abstract Result}
    {first middle last : Abstract} {operations : List (Operation Result)}
    {operation : Operation Result}
    (legal : sequential.Legal first operations middle)
    (one : sequential middle operation last) :
    sequential.Legal first (operations ++ [operation]) last := by
  induction legal with
  | nil => exact .cons one .nil
  | cons before _ inductionHypothesis => exact .cons before (inductionHypothesis one)

/-- A call with its place in an order: one that has returned, or one under way whose
result is settled. -/
inductive Placed {Call : Type} (Result : Call → Type) where
  | returned (record : Returned Result)
  | underWay (operation : Operation Result) (began : Nat)

namespace Placed

def operation : Placed Result → Operation Result
  | .returned record => ⟨record.call, record.result⟩
  | .underWay operation _ => operation

def began : Placed Result → Nat
  | .returned record => record.began
  | .underWay _ began => began

/-- The call has returned by the step. -/
def EndedBy : Placed Result → Nat → Prop
  | .returned record, step => record.ended ≤ step
  | .underWay _ _, _ => False

/-- No call comes before one that had returned when it began. -/
def KeepsRealTime (order : List (Placed Result)) : Prop :=
  order.Pairwise fun earlier later => ¬ later.EndedBy earlier.began

section

variable {before after order : List (Placed Result)} {old new : Placed Result}

theorem KeepsRealTime.concat (keeps : KeepsRealTime order)
    (late : ∀ placed, placed ∈ order → ¬ new.EndedBy placed.began) :
    KeepsRealTime (order ++ [new]) := by
  refine List.pairwise_append.mpr ⟨keeps, List.pairwise_singleton _ _, ?_⟩
  intro earlier member later last
  rw [List.mem_singleton.mp last]
  exact late earlier member

/-- A call under way may return without losing its place. -/
theorem KeepsRealTime.replace (keeps : KeepsRealTime (before ++ old :: after))
    (sameBegan : new.began = old.began)
    (late : ∀ placed, placed ∈ before → ¬ new.EndedBy placed.began) :
    KeepsRealTime (before ++ new :: after) := by
  obtain ⟨keepsBefore, keepsAfter, across⟩ := List.pairwise_append.mp keeps
  obtain ⟨first, rest⟩ := List.pairwise_cons.mp keepsAfter
  refine List.pairwise_append.mpr
    ⟨keepsBefore, List.pairwise_cons.mpr ⟨?_, rest⟩, ?_⟩
  · intro later member
    rw [sameBegan]
    exact first later member
  · intro earlier member later isLater
    rcases List.mem_cons.mp isLater with rfl | isAfter
    · exact late earlier member
    · exact across earlier member later (List.mem_cons_of_mem _ isAfter)

end

end Placed

/-- The result that is settled for a call under way, if there is one. -/
abbrev Promise {Call : Type} (Position Result : Call → Type) :=
  (activity : Activity Position) → Option (Result activity.call)

namespace Pool

/-- A call under way, if its result is settled. -/
def settled (call : Call) (began : Nat) : Option (Result call) → Multiset (Placed Result)
  | none => 0
  | some result => {.underWay ⟨call, result⟩ began}

def promised (promise : Promise Position Result) (activity : Activity Position) :
    Multiset (Placed Result) :=
  settled activity.call activity.began (promise activity)

/-- The calls that have returned, and those under way whose results are settled. -/
def placed (promise : Promise Position Result) (pool : Pool Shared Position Result) :
    Multiset (Placed Result) :=
  pool.total (promised promise) +
    (pool.returned.map Placed.returned : List (Placed Result))

theorem placed_of_atRest {promise : Promise Position Result}
    {pool : Pool Shared Position Result} (rest : pool.AtRest) :
    pool.placed promise =
      (pool.returned.map Placed.returned : List (Placed Result)) := by
  have noCalls : pool.total (promised promise) = 0 := by
    rw [total, Entries.sum, show pool.running.entries = [] from rest]
    rfl
  rw [placed, noCalls, zero_add]

/-- What is placed of a call after its step. -/
def placedNext (promise : Promise Position Result)
    (pool : Pool Shared Position Result) (thread : Nat)
    (activity : Activity Position) :
    Next (Position activity.call) (Result activity.call) → Multiset (Placed Result)
  | .goOn position => promised promise { activity with position := position }
  | .finish result =>
      {.returned ⟨thread, activity.call, result, activity.began, pool.steps + 1⟩}

end Pool

/-- The order has all calls that have returned, and some of those under way with
results that they may yet return.  Made one at a time in that order they have these
results and lead from the first state to the last, and the order is that of real
time. -/
structure Linearizes (sequential : Sequential Abstract Result) (first last : Abstract)
    (pool : Pool Shared Position Result) (order : List (Placed Result)) : Prop where
  calls : ∃ promise, (order : Multiset (Placed Result)) = pool.placed promise
  legal : sequential.Legal first (order.map Placed.operation) last
  realTime : Placed.KeepsRealTime order

/-- The result that a call is going to have when it stands at the next position, or
has when it returns. -/
def Next.outcome {Position Result : Type} (effect : Position → Option Result) :
    Next Position Result → Option Result
  | .goOn position => effect position
  | .finish result => some result

/-- Calls take effect once, at the step that settles their result. -/
structure TakesEffectOnce
    (object : ConcurrentObject Shared Environment Position Result)
    (abstract : Shared → Abstract) (sequential : Sequential Abstract Result)
    (effect : (call : Call) → Position call → Option (Result call))
    (allowed : Pool Shared Position Result → PoolLabel Call Environment → Prop) :
    Prop where
  enter : ∀ call, effect call (object.enter call) = none
  environment : ∀ event shared,
    abstract (object.environment event shared) = abstract shared
  step : ∀ {pool thread} {activity : Activity Position},
    allowed pool (.run thread) →
    pool.activity? thread = some activity →
    let after := object.step pool.shared activity.position
    (after.2.outcome (effect activity.call) =
        effect activity.call activity.position ∧
      abstract after.1 = abstract pool.shared) ∨
    ∃ result,
      effect activity.call activity.position = none ∧
        after.2.outcome (effect activity.call) = some result ∧
        sequential (abstract pool.shared) ⟨activity.call, result⟩ (abstract after.1)

namespace TakesEffectOnce

variable {object : ConcurrentObject Shared Environment Position Result}
variable {abstract : Shared → Abstract} {sequential : Sequential Abstract Result}
variable {effect : (call : Call) → Position call → Option (Result call)}
variable {allowed : Pool Shared Position Result → PoolLabel Call Environment → Prop}
variable {source target : Pool Shared Position Result}

/-- The results that the positions settle. -/
def promise (effect : (call : Call) → Position call → Option (Result call)) :
    Promise Position Result :=
  fun activity => effect activity.call activity.position

/-- The order of the effects, up to a pool. -/
structure Orders (abstract : Shared → Abstract) (sequential : Sequential Abstract Result)
    (effect : (call : Call) → Position call → Option (Result call)) (first : Abstract)
    (pool : Pool Shared Position Result) (order : List (Placed Result)) : Prop where
  calls : (order : Multiset (Placed Result)) = pool.placed (promise effect)
  legal :
    sequential.Legal first (order.map Placed.operation) (abstract pool.shared)
  realTime : Placed.KeepsRealTime order
  begun : ∀ placed, placed ∈ order → placed.began < pool.steps

/-- The step of a thread, in the calls that have a place. -/
theorem placed_run (promise : Promise Position Result) {thread : Nat}
    {activity : Activity Position}
    (moves : object.Moves source (.run thread) target)
    (running : source.activity? thread = some activity) :
    target.shared = (object.step source.shared activity.position).1 ∧
      target.placed promise + Pool.promised promise activity =
        source.placed promise +
          Pool.placedNext promise source thread activity
            (object.step source.shared activity.position).2 := by
  rw [Pool.placed, Pool.placed, Pool.total_of_running _ running]
  cases moves with
  | advance active stepped =>
      rw [running] at active
      cases active
      rw [Pool.total_advance, stepped, Pool.placedNext]
      refine ⟨rfl, ?_⟩
      simp only [Pool.advance]
      abel
  | @finish _ _ shared result active stepped =>
      rw [running] at active
      cases active
      have returned :
          (((source.finish thread activity shared result).returned.map
              Placed.returned : List (Placed Result)) : Multiset (Placed Result)) =
            {.returned
              ⟨thread, activity.call, result, activity.began, source.steps + 1⟩} +
              (source.returned.map Placed.returned : List (Placed Result)) :=
        rfl
      rw [Pool.total_finish, stepped, Pool.placedNext, returned]
      refine ⟨rfl, ?_⟩
      abel

section Orders

variable {first : Abstract} {order : List (Placed Result)}

/-- A call that takes effect comes last. -/
theorem Orders.concat (orders : Orders abstract sequential effect first source order)
    {new : Placed Result}
    (calls :
      target.placed (promise effect) = source.placed (promise effect) + {new})
    (one :
      sequential (abstract source.shared) new.operation (abstract target.shared))
    (late : ∀ step, step < source.steps → ¬ new.EndedBy step)
    (begun : new.began < target.steps) (oneMore : target.steps = source.steps + 1) :
    Orders abstract sequential effect first target (order ++ [new]) where
  calls := by
    rw [calls, ← orders.calls]
    rfl
  legal := by
    rw [List.map_append]
    exact orders.legal.concat one
  realTime :=
    orders.realTime.concat fun placed member => late _ (orders.begun placed member)
  begun := by
    intro placed member
    rcases List.mem_append.mp member with isEarlier | isLast
    · exact Nat.lt_of_lt_of_eq (Nat.lt_succ_of_lt (orders.begun placed isEarlier))
        oneMore.symm
    · rw [List.mem_singleton.mp isLast]
      exact begun

/-- A step that changes neither the calls nor the state leaves the order alone. -/
theorem Orders.unchanged (orders : Orders abstract sequential effect first source order)
    (calls : target.placed (promise effect) = source.placed (promise effect))
    (same : abstract target.shared = abstract source.shared)
    (oneMore : target.steps = source.steps + 1) :
    Orders abstract sequential effect first target order where
  calls := orders.calls.trans calls.symm
  legal := by
    rw [same]
    exact orders.legal
  realTime := orders.realTime
  begun := by
    intro placed member
    rw [oneMore]
    exact Nat.lt_succ_of_lt (orders.begun placed member)

/-- A call that returns keeps its place. -/
theorem Orders.replace (orders : Orders abstract sequential effect first source order)
    {old new : Placed Result}
    (calls :
      target.placed (promise effect) + {old} =
        source.placed (promise effect) + {new})
    (placed : old ∈ source.placed (promise effect))
    (sameOperation : new.operation = old.operation) (sameBegan : new.began = old.began)
    (same : abstract target.shared = abstract source.shared)
    (late : ∀ step, step < source.steps → ¬ new.EndedBy step)
    (oneMore : target.steps = source.steps + 1) :
    ∃ replaced, Orders abstract sequential effect first target replaced := by
  rw [← orders.calls, Multiset.mem_coe] at placed
  obtain ⟨before, after, rfl⟩ := List.append_of_mem placed
  have begun := orders.begun
  refine ⟨before ++ new :: after, ⟨?_, ?_, ?_, ?_⟩⟩
  · have swapped :
        ((before ++ new :: after : List (Placed Result)) : Multiset (Placed Result)) +
            {old} =
          ((before ++ old :: after : List (Placed Result)) :
            Multiset (Placed Result)) + {new} := by
      simp only [← Multiset.coe_add, ← Multiset.cons_coe, ← Multiset.singleton_add]
      abel
    exact add_right_cancel (swapped.trans
      ((congrArg (· + {new}) orders.calls).trans calls.symm))
  · have legal := orders.legal
    rw [List.map_append, List.map_cons] at legal ⊢
    rw [sameOperation, same]
    exact legal
  · exact orders.realTime.replace sameBegan fun placed member =>
      late _ (begun placed (List.mem_append_left _ member))
  · intro placed member
    rw [oneMore]
    refine Nat.lt_succ_of_lt ?_
    rcases List.mem_append.mp member with isBefore | isAfter
    · exact begun placed (List.mem_append_left _ isBefore)
    · rcases List.mem_cons.mp isAfter with rfl | isRest
      · rw [sameBegan]
        exact begun old (by simp)
      · exact begun placed
          (List.mem_append_right _ (List.mem_cons_of_mem _ isRest))

/-- A step of a thread, from an order of the effects to one. -/
theorem Orders.run
    (takesEffect : TakesEffectOnce object abstract sequential effect allowed)
    (orders : Orders abstract sequential effect first source order) {thread : Nat}
    {activity : Activity Position} (admitted : allowed source (.run thread))
    (moves : object.Moves source (.run thread) target)
    (running : source.activity? thread = some activity)
    (began : activity.began < source.steps) :
    ∃ later, Orders abstract sequential effect first target later := by
  have oneMore := moves.steps_eq
  have begun : activity.began < target.steps := by
    rw [oneMore]
    exact Nat.lt_succ_of_lt began
  obtain ⟨sharedAfter, counted⟩ := placed_run (promise effect) moves running
  -- whether the call has taken effect before, and whether it returns
  rcases takesEffect.step admitted running with
    ⟨sameOutcome, same⟩ | ⟨result, notYet, now, one⟩
  · rw [← sharedAfter] at same
    cases next : (object.step source.shared activity.position).2 with
    | goOn position =>
        rw [next] at sameOutcome counted
        have samePromised :
            Pool.placedNext (promise effect) source thread activity
                (.goOn position) =
              Pool.promised (promise effect) activity :=
          congrArg (Pool.settled activity.call activity.began) sameOutcome
        rw [samePromised] at counted
        exact ⟨order, orders.unchanged (add_right_cancel counted) same oneMore⟩
    | finish result =>
        rw [next] at sameOutcome counted
        have settled : effect activity.call activity.position = some result :=
          sameOutcome.symm
        have wasPromised :
            Pool.promised (promise effect) activity =
              {.underWay ⟨activity.call, result⟩ activity.began} :=
          congrArg (Pool.settled activity.call activity.began) settled
        rw [wasPromised] at counted
        refine orders.replace counted ?_ rfl rfl same ?_ oneMore
        · rw [Pool.placed, Pool.total_of_running _ running, wasPromised]
          simp
        · exact fun step early ended =>
            absurd (Nat.lt_of_lt_of_le early (Nat.le_of_succ_le ended))
              (Nat.lt_irrefl step)
  · rw [← sharedAfter] at one
    have notPromised : Pool.promised (promise effect) activity = 0 :=
      congrArg (Pool.settled activity.call activity.began) notYet
    rw [notPromised, add_zero] at counted
    cases next : (object.step source.shared activity.position).2 with
    | goOn position =>
        rw [next] at now counted
        have promisedNow :
            Pool.placedNext (promise effect) source thread activity
                (.goOn position) =
              {.underWay ⟨activity.call, result⟩ activity.began} :=
          congrArg (Pool.settled activity.call activity.began) now
        rw [promisedNow] at counted
        exact ⟨_, orders.concat counted one (fun _ _ ended => ended) begun
          oneMore⟩
    | finish returned =>
        rw [next] at now counted
        have sameResult : returned = result := Option.some.inj now
        subst sameResult
        refine ⟨_, orders.concat counted one ?_ begun oneMore⟩
        exact fun step early ended =>
          absurd (Nat.lt_of_lt_of_le early (Nat.le_of_succ_le ended))
            (Nat.lt_irrefl step)

/-- A move, from an order of the effects to one. -/
theorem Orders.moves
    (takesEffect : TakesEffectOnce object abstract sequential effect allowed)
    (orders : Orders abstract sequential effect first source order)
    {label : PoolLabel Call Environment} (admitted : allowed source label)
    (moves : object.Moves source label target)
    (began : ∀ thread activity,
      source.activity? thread = some activity → activity.began < source.steps) :
    ∃ later, Orders abstract sequential effect first target later := by
  cases label with
  | call thread call =>
      have oneMore := moves.steps_eq
      cases moves with
      | call free =>
          refine ⟨order, orders.unchanged ?_ rfl oneMore⟩
          rw [Pool.placed, Pool.placed, Pool.total_begin _ free, Pool.promised, promise,
            takesEffect.enter, Pool.settled, zero_add]
          rfl
  | environment event =>
      have oneMore := moves.steps_eq
      cases moves with
      | environment =>
          exact ⟨order, orders.unchanged rfl
            (takesEffect.environment event source.shared) oneMore⟩
  | run thread =>
      have mover : ∃ activity, source.activity? thread = some activity := by
        cases moves with
        | advance active _ => exact ⟨_, active⟩
        | finish active _ => exact ⟨_, active⟩
      obtain ⟨activity, running⟩ := mover
      exact orders.run takesEffect admitted moves running
        (began thread activity running)

end Orders

/-- In every run there is an order of the effects. -/
theorem exists_order {start : Shared → Prop} {first : Abstract}
    (takesEffect : TakesEffectOnce object abstract sequential effect allowed)
    (initial : ∀ shared, start shared → abstract shared = first)
    {world : World (Pool Shared Position Result) (PoolLabel Call Environment)}
    (reachable : (object.system start).Reachable allowed world) :
    ∃ order, Orders abstract sequential effect first world.state order := by
  induction reachable with
  | start atStart =>
      obtain ⟨shared, starts, rfl⟩ := atStart
      refine ⟨[], ⟨?_, ?_, List.Pairwise.nil, by simp⟩⟩
      · rw [Pool.placed, Pool.total_idle]
        rfl
      · rw [show abstract (Pool.idle shared : Pool Shared Position Result).shared =
          first from initial shared starts]
        exact .nil
  | next reached step inductionHypothesis =>
      obtain ⟨order, orders⟩ := inductionHypothesis
      exact orders.moves takesEffect step.1 (ConcurrentObject.moves_of_exec step.2.1)
        (Outline.times_of_reachable reached).2

theorem Orders.linearizes {first : Abstract} {pool : Pool Shared Position Result}
    {order : List (Placed Result)}
    (orders : Orders abstract sequential effect first pool order) :
    Linearizes sequential first (abstract pool.shared) pool order where
  calls := ⟨promise effect, orders.calls⟩
  legal := orders.legal
  realTime := orders.realTime

end TakesEffectOnce

end HautePerformance.Library
