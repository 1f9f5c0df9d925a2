import HautePerformance.Library.PoolTotals
import HautePerformance.Library.RunTotals

/-!
# Balances of a pool

A quantity that is in the shared state, in the calls under way and in the results of
those that have returned.  A call brings its share along when it begins, steps pass
the quantity on, and some of them put more in or take some out.  When each step
balances, so does every run.
-/

namespace HautePerformance.Library

variable {Shared Environment Call : Type} {Position Result : Call → Type}
variable {M : Type} [AddCommMonoid M]

/-- What a call holds after a step, or has returned. -/
def Next.weight {Position Result : Type} (held : Position → M)
    (settled : Result → M) : Next Position Result → M
  | .goOn position => held position
  | .finish result => settled result

namespace Pool

/-- What the calls under way hold. -/
def heldBy (held : (call : Call) → Position call → M)
    (pool : Pool Shared Position Result) : M :=
  pool.total fun activity => held activity.call activity.position

/-- What the calls have returned. -/
def returnedBy (settled : (call : Call) → Result call → M)
    (pool : Pool Shared Position Result) : M :=
  (pool.returned.map fun record => settled record.call record.result).sum

/-- What the calls hold and have returned. -/
def shares (held : (call : Call) → Position call → M)
    (settled : (call : Call) → Result call → M)
    (pool : Pool Shared Position Result) : M :=
  pool.heldBy held + pool.returnedBy settled

/-- The weight of the step of a thread, read off the state and the position that it
starts from. -/
def atStep (weight : (call : Call) → Shared → Position call → M)
    (pool : Pool Shared Position Result) (label : PoolLabel Call Environment) : M :=
  match pool.mover? label with
  | some activity => weight activity.call pool.shared activity.position
  | none => 0

/-- What a call brings along. -/
def brought (entry : Call → M) : PoolLabel Call Environment → M
  | .call _ call => entry call
  | _ => 0

@[simp]
theorem brought_call (entry : Call → M) (thread : Nat) (call : Call) :
    brought entry (.call thread call : PoolLabel Call Environment) = entry call :=
  rfl

@[simp]
theorem brought_run (entry : Call → M) (thread : Nat) :
    brought entry (.run thread : PoolLabel Call Environment) = 0 :=
  rfl

@[simp]
theorem brought_environment (entry : Call → M) (event : Environment) :
    brought entry (.environment event : PoolLabel Call Environment) = 0 :=
  rfl

variable {pool : Pool Shared Position Result} {thread : Nat}
variable {activity : Activity Position}

theorem atStep_run (weight : (call : Call) → Shared → Position call → M)
    (running : pool.activity? thread = some activity) :
    pool.atStep weight (.run thread : PoolLabel Call Environment) =
      weight activity.call pool.shared activity.position := by
  simp only [atStep, mover?, running]

theorem map_atStep {N : Type} [AddCommMonoid N] (measure : M →+ N)
    (weight : (call : Call) → Shared → Position call → M)
    (pool : Pool Shared Position Result) (label : PoolLabel Call Environment) :
    measure (pool.atStep weight label) =
      pool.atStep (fun call shared position => measure (weight call shared position))
        label := by
  unfold atStep
  cases pool.mover? label with
  | none => exact map_zero measure
  | some activity => rfl

theorem total_atStep_add
    (first second : (call : Call) → Shared → Position call → M)
    (world : World (Pool Shared Position Result) (PoolLabel Call Environment)) :
    (world.total (atStep fun call shared position =>
        first call shared position + second call shared position)) =
      world.total (atStep first) + world.total (atStep second) := by
  rw [← World.total_add]
  congr 1
  funext pool label
  unfold atStep
  cases pool.mover? label with
  | none => exact (add_zero 0).symm
  | some activity => rfl

theorem total_atStep_zero
    (world : World (Pool Shared Position Result) (PoolLabel Call Environment)) :
    world.total (atStep fun _ _ _ => (0 : M)) = 0 := by
  refine World.total_eq_zero (fun pool label => ?_) world
  unfold atStep
  split <;> rfl

theorem total_brought_zero
    (world : World (Pool Shared Position Result) (PoolLabel Call Environment)) :
    (world.total fun _ label => brought (fun _ => (0 : M)) label) = 0 :=
  World.total_eq_zero (fun _ label => by cases label <;> rfl) world

theorem map_brought {N : Type} [AddCommMonoid N] (measure : M →+ N)
    (entry : Call → M) (label : PoolLabel Call Environment) :
    measure (brought entry label) =
      brought (fun call => measure (entry call)) label := by
  cases label with
  | call _ _ => rfl
  | run _ => exact map_zero measure
  | environment _ => exact map_zero measure

/-- Results that do not count. -/
theorem shares_zero (held : (call : Call) → Position call → M)
    (pool : Pool Shared Position Result) :
    pool.shares held (fun _ _ => 0) = pool.heldBy held := by
  have nothing : pool.returnedBy (fun _ _ => (0 : M)) = 0 := by
    simp [returnedBy]
  rw [shares, nothing, add_zero]

theorem heldBy_zero (pool : Pool Shared Position Result) :
    pool.heldBy (fun _ _ => (0 : M)) = 0 := by
  simp [heldBy, total, Entries.sum]

theorem heldBy_of_atRest (held : (call : Call) → Position call → M)
    (rest : pool.AtRest) : pool.heldBy held = 0 := by
  rw [heldBy, total, Entries.sum, show pool.running.entries = [] from rest]
  rfl

end Pool

section Moves

variable {object : ConcurrentObject Shared Environment Position Result}
variable {source target : Pool Shared Position Result} {thread : Nat}

/-- The step of a thread leaves what the others hold, and what has been returned. -/
theorem Pool.shares_run (held : (call : Call) → Position call → M)
    (settled : (call : Call) → Result call → M)
    (moves : object.Moves source (.run thread) target) :
    ∃ activity others,
      source.activity? thread = some activity ∧
        target.shared = (object.step source.shared activity.position).1 ∧
        source.shares held settled =
          held activity.call activity.position + others ∧
        target.shares held settled =
          (object.step source.shared activity.position).2.weight
            (held activity.call) (settled activity.call) + others := by
  cases moves with
  | @advance _ activity shared position running stepped =>
      refine ⟨activity, source.totalExcept thread (fun activity =>
        held activity.call activity.position) + source.returnedBy settled,
        running, ?_, ?_, ?_⟩
      · rw [stepped]
        rfl
      · rw [shares, heldBy, total_of_running _ running, add_assoc]
      · rw [stepped, shares, heldBy, total_advance, add_assoc]
        rfl
  | @finish _ activity shared result running stepped =>
      refine ⟨activity, source.totalExcept thread (fun activity =>
        held activity.call activity.position) + source.returnedBy settled,
        running, ?_, ?_, ?_⟩
      · rw [stepped]
        rfl
      · rw [shares, heldBy, total_of_running _ running, add_assoc]
      · rw [stepped, shares, heldBy, total_finish, Next.weight, add_left_comm]
        rfl

theorem Pool.shares_begin (held : (call : Call) → Position call → M)
    (settled : (call : Call) → Result call → M) {call : Call}
    (free : source.activity? thread = none) :
    (source.begin thread call (object.enter call)).shares held settled =
      held call (object.enter call) + source.shares held settled := by
  rw [shares, heldBy, total_begin _ free, add_assoc]
  rfl

theorem Pool.shares_idle (held : (call : Call) → Position call → M)
    (settled : (call : Call) → Result call → M) (shared : Shared) :
    (Pool.idle shared : Pool Shared Position Result).shares held settled = 0 := by
  rw [shares, heldBy, total_idle, zero_add]
  rfl

end Moves

/-! ## Balances -/

/-- A call begins with its share, the environment leaves the quantity alone, and
every step balances. -/
structure Balanced (object : ConcurrentObject Shared Environment Position Result)
    (stored : Shared → M) (held : (call : Call) → Position call → M)
    (settled : (call : Call) → Result call → M) (entry : Call → M)
    (income outlay : (call : Call) → Shared → Position call → M)
    (allowed : Pool Shared Position Result → PoolLabel Call Environment → Prop) :
    Prop where
  enter : ∀ call, held call (object.enter call) = entry call
  environment : ∀ event shared,
    stored (object.environment event shared) = stored shared
  step : ∀ {pool thread} {activity : Activity Position},
    allowed pool (.run thread) →
    pool.activity? thread = some activity →
    let after := object.step pool.shared activity.position
    stored after.1 +
        after.2.weight (held activity.call) (settled activity.call) +
        outlay activity.call pool.shared activity.position =
      stored pool.shared + held activity.call activity.position +
        income activity.call pool.shared activity.position

namespace Balanced

variable {object : ConcurrentObject Shared Environment Position Result}
variable {stored : Shared → M} {held : (call : Call) → Position call → M}
variable {settled : (call : Call) → Result call → M} {entry : Call → M}
variable {income outlay : (call : Call) → Shared → Position call → M}
variable {allowed : Pool Shared Position Result → PoolLabel Call Environment → Prop}
variable {source target : Pool Shared Position Result}
variable {label : PoolLabel Call Environment}

theorem of_moves
    (balanced : Balanced object stored held settled entry income outlay allowed)
    (admitted : allowed source label) (moves : object.Moves source label target) :
    stored target.shared + target.shares held settled +
        source.atStep outlay label =
      stored source.shared + source.shares held settled +
        (source.atStep income label + Pool.brought entry label) := by
  cases label with
  | call thread call =>
      cases moves with
      | call free =>
          have noStep (weight : (call : Call) → Shared → Position call → M) :
              source.atStep weight
                (.call thread call : PoolLabel Call Environment) = 0 := rfl
          rw [Pool.shares_begin held settled free, balanced.enter, noStep, noStep,
            Pool.brought_call, Pool.begin]
          abel
  | run thread =>
      obtain ⟨activity, others, running, shared, before, after⟩ :=
        Pool.shares_run held settled moves
      have step := balanced.step admitted running
      rw [shared, before, after, Pool.atStep_run _ running,
        Pool.atStep_run _ running, Pool.brought_run, add_zero]
      generalize object.step source.shared activity.position = stepped at step
      calc
        stored stepped.1 +
              (stepped.2.weight (held activity.call) (settled activity.call) +
                others) +
              outlay activity.call source.shared activity.position
            = stored stepped.1 +
                stepped.2.weight (held activity.call) (settled activity.call) +
                outlay activity.call source.shared activity.position + others := by
              abel
        _ = stored source.shared + held activity.call activity.position +
                income activity.call source.shared activity.position + others := by
              rw [step]
        _ = _ := by abel
  | environment event =>
      cases moves with
      | environment =>
          have noStep (weight : (call : Call) → Shared → Position call → M) :
              source.atStep weight
                (.environment event : PoolLabel Call Environment) = 0 := rfl
          rw [noStep, noStep, Pool.brought_environment, add_zero, add_zero,
            add_zero, Pool.disturb]
          exact congrArg (· + source.shares held settled)
            (balanced.environment event source.shared)

/-- What the steps of a run have taken out, with what is stored, held and returned at
its end, is what was stored at first, with what the calls have brought and what the
steps have put in. -/
theorem balance {start : Shared → Prop} {first : M}
    (balanced : Balanced object stored held settled entry income outlay allowed)
    (initial : ∀ shared, start shared → stored shared = first)
    {world : World (Pool Shared Position Result) (PoolLabel Call Environment)}
    (reachable : (object.system start).Reachable allowed world) :
    stored world.state.shared + world.state.shares held settled +
        world.total (Pool.atStep outlay) =
      first +
        world.total fun pool label =>
          pool.atStep income label + Pool.brought entry label := by
  refine reachable.balance
    (fun pool => stored pool.shared + pool.shares held settled)
    (Pool.atStep outlay)
    (fun pool label => pool.atStep income label + Pool.brought entry label) ?_ ?_
  · rintro pool ⟨shared, starts, rfl⟩
    rw [Pool.shares_idle, add_zero]
    exact initial shared starts
  · intro label source target admitted executed
    exact balanced.of_moves admitted (ConcurrentObject.moves_of_exec executed)

/-- A quantity that only the calls bring along. -/
theorem balance_closed {start : Shared → Prop} {first : M}
    (balanced :
      Balanced object stored held settled entry (fun _ _ _ => 0) outlay allowed)
    (initial : ∀ shared, start shared → stored shared = first)
    {world : World (Pool Shared Position Result) (PoolLabel Call Environment)}
    (reachable : (object.system start).Reachable allowed world) :
    stored world.state.shared + world.state.shares held settled +
        world.total (Pool.atStep outlay) =
      first + world.total fun _ label => Pool.brought entry label := by
  rw [balanced.balance initial reachable, World.total_add,
    Pool.total_atStep_zero, zero_add]

/-- A quantity that only the steps put in. -/
theorem balance_open {start : Shared → Prop} {first : M}
    (balanced :
      Balanced object stored held settled (fun _ => 0) income (fun _ _ _ => 0)
        allowed)
    (initial : ∀ shared, start shared → stored shared = first)
    {world : World (Pool Shared Position Result) (PoolLabel Call Environment)}
    (reachable : (object.system start).Reachable allowed world) :
    stored world.state.shared + world.state.shares held settled =
      first + world.total (Pool.atStep income) := by
  have balance := balanced.balance initial reachable
  rwa [Pool.total_atStep_zero, World.total_add, Pool.total_brought_zero, add_zero,
    add_zero] at balance

end Balanced

/-! ## Running times -/

/-- A step of a thread. -/
def PoolLabel.isRun : PoolLabel Call Environment → Nat
  | .run _ => 1
  | _ => 0

/-- Every step of a thread is paid for by what it takes out of a potential in the
shared state and in the calls under way; some steps add to it, and a call brings
its share. -/
structure Paid (object : ConcurrentObject Shared Environment Position Result)
    (stored : Shared → Nat) (effort : (call : Call) → Position call → Nat)
    (entry : Call → Nat) (gain : (call : Call) → Shared → Position call → Nat) :
    Prop where
  enter : ∀ call, effort call (object.enter call) ≤ entry call
  environment : ∀ event shared,
    stored (object.environment event shared) ≤ stored shared
  step : ∀ {call : Call} (shared : Shared) (position : Position call),
    let after := object.step shared position
    stored after.1 + after.2.weight (effort call) (fun _ => 0) + 1 ≤
      stored shared + effort call position + gain call shared position

/-- The number of steps of the threads is bounded in every run. -/
theorem Paid.bounded
    {object : ConcurrentObject Shared Environment Position Result}
    {stored : Shared → Nat} {effort : (call : Call) → Position call → Nat}
    {entry : Call → Nat} {gain : (call : Call) → Shared → Position call → Nat}
    {allowed : Pool Shared Position Result → PoolLabel Call Environment → Prop}
    {start : Shared → Prop} {bound : Nat}
    (paid : Paid object stored effort entry gain)
    (initial : ∀ shared, start shared → stored shared ≤ bound)
    {world : World (Pool Shared Position Result) (PoolLabel Call Environment)}
    (reachable : (object.system start).Reachable allowed world) :
    world.total (fun _ label => label.isRun) ≤
      bound +
        world.total fun pool label =>
          pool.atStep gain label + Pool.brought entry label := by
  refine Nat.le_trans (Nat.le_add_left _ _) (reachable.amortized
    (fun pool => stored pool.shared + pool.shares effort fun _ _ => 0)
    (fun _ label => label.isRun)
    (fun pool label => pool.atStep gain label + Pool.brought entry label) ?_ ?_)
  · rintro pool ⟨shared, starts, rfl⟩
    rw [Pool.shares_idle, add_zero]
    exact initial shared starts
  · intro label source target _ executed
    have moves := ConcurrentObject.moves_of_exec executed
    cases label with
    | call thread call =>
        cases moves with
        | call free =>
            have enters := paid.enter call
            rw [Pool.shares_begin effort _ free, Pool.brought_call]
            simp only [Pool.begin, PoolLabel.isRun]
            omega
    | run thread =>
        obtain ⟨activity, others, running, shared, before, after⟩ :=
          Pool.shares_run effort (fun _ _ => 0) moves
        have step := paid.step source.shared activity.position
        rw [shared, before, after, Pool.atStep_run _ running, Pool.brought_run]
        simp only [PoolLabel.isRun] at step ⊢
        omega
    | environment event =>
        cases moves with
        | environment =>
            have same := paid.environment event source.shared
            simp only [Pool.disturb, PoolLabel.isRun] at same ⊢
            exact Nat.le_add_right_of_le (Nat.add_le_add_right same _)

end HautePerformance.Library
