import Mathlib.Algebra.BigOperators.Group.List.Lemmas
import Mathlib.Algebra.Order.BigOperators.Group.List
import Mathlib.Algebra.Order.Group.Nat
import HautePerformance.Library.ThreadPool

/-!
# Adding up over the threads of a pool

Weights in a commutative monoid, summed over the calls under way and over the
steps of a run.  A move changes the sum over the calls at its own thread only, so
that a quantity which passes from the shared state to a thread and back is
accounted for by one equation for each move.
-/

namespace HautePerformance.Library

variable {M : Type} [AddCommMonoid M]

/-! ## Sums over the entries of a map -/

namespace Entries

variable {Key : Type} [DecidableEq Key] {Value : Key → Type}
variable {map : AList Value} {key : Key} {value : Value key}

def sum (map : AList Value) (weight : Sigma Value → M) : M :=
  (map.entries.map weight).sum

/-- The entry under a key, and the others. -/
theorem sum_of_lookup (weight : Sigma Value → M)
    (found : map.lookup key = some value) :
    sum map weight = weight ⟨key, value⟩ + sum (map.erase key) weight := by
  have isKey : key ∈ map.entries.keys :=
    AList.lookup_isSome.mp (Option.isSome_of_eq_some found)
  obtain ⟨other, before, after, absent, split, erased⟩ :=
    List.exists_of_kerase isKey
  have member : (⟨key, other⟩ : Sigma Value) ∈ map.entries := by
    rw [split]
    simp
  have sameValue : other = value := by
    have lookup := AList.mem_lookup_iff.mpr member
    rw [found] at lookup
    exact (Option.some.inj lookup).symm
  subst sameValue
  have others : (map.erase key).entries = before ++ after := erased
  rw [sum, sum, others, split]
  simp only [List.map_append, List.map_cons, List.sum_append, List.sum_cons]
  exact add_left_comm _ _ _

theorem sum_insert (weight : Sigma Value → M) (value : Value key) :
    sum (map.insert key value) weight =
      weight ⟨key, value⟩ + sum (map.erase key) weight := by
  have entries : (map.insert key value).entries =
      ⟨key, value⟩ :: (map.erase key).entries :=
    AList.entries_insert
  rw [sum, sum, entries, List.map_cons, List.sum_cons]

theorem erase_of_lookup_none (absent : map.lookup key = none) :
    map.erase key = map :=
  AList.ext (List.kerase_of_notMem_keys (AList.lookup_eq_none.mp absent))

end Entries

/-! ## Sums over the calls under way -/

variable {Shared Environment Call : Type} {Position Result : Call → Type}

namespace Pool

variable {pool : Pool Shared Position Result} {thread : Nat}
variable {activity : Activity Position}

def total (pool : Pool Shared Position Result)
    (weight : Activity Position → M) : M :=
  Entries.sum pool.running fun entry => weight entry.2

/-- The sum over the other threads. -/
def totalExcept (pool : Pool Shared Position Result) (thread : Nat)
    (weight : Activity Position → M) : M :=
  Entries.sum (pool.running.erase thread) fun entry => weight entry.2

theorem total_of_running (weight : Activity Position → M)
    (running : pool.activity? thread = some activity) :
    pool.total weight = weight activity + pool.totalExcept thread weight :=
  Entries.sum_of_lookup _ running

@[simp]
theorem total_idle (weight : Activity Position → M) (shared : Shared) :
    (Pool.idle shared : Pool Shared Position Result).total weight = 0 := by
  simp [total, Entries.sum, idle]

theorem total_begin (weight : Activity Position → M)
    (free : pool.activity? thread = none) (call : Call)
    (position : Position call) :
    (pool.begin thread call position).total weight =
      weight ⟨call, pool.steps, position⟩ + pool.total weight := by
  have unchanged := Entries.erase_of_lookup_none free
  rw [total, begin, Entries.sum_insert, unchanged]
  rfl

theorem total_advance (weight : Activity Position → M)
    (activity : Activity Position) (shared : Shared)
    (position : Position activity.call) :
    (pool.advance thread activity shared position).total weight =
      weight { activity with position := position } +
        pool.totalExcept thread weight :=
  Entries.sum_insert _ _

theorem total_finish (weight : Activity Position → M)
    (activity : Activity Position) (shared : Shared)
    (result : Result activity.call) :
    (pool.finish thread activity shared result).total weight =
      pool.totalExcept thread weight :=
  rfl

/-- A bound on each weight bounds the sum. -/
theorem map_total_le (pool : Pool Shared Position Result) (measure : M →+ Nat)
    {weight : Activity Position → M} {bound : Activity Position → Nat}
    (each : ∀ activity, measure (weight activity) ≤ bound activity) :
    measure (pool.total weight) ≤ pool.total bound := by
  rw [total, Entries.sum, map_list_sum, List.map_map]
  exact List.sum_le_sum fun entry _ => each entry.2

/-- What the steps of a run amount to. -/
def amount (weight : Activity Position → M)
    (world : World (Pool Shared Position Result) (PoolLabel Call Environment)) :
    M :=
  (world.trace.map fun step =>
    ((step.1.mover? step.2).map weight).getD 0).sum

theorem amount_push (weight : Activity Position → M)
    (world : World (Pool Shared Position Result) (PoolLabel Call Environment))
    (label : PoolLabel Call Environment)
    (target : Pool Shared Position Result) :
    amount weight (world.push label target) =
      ((world.state.mover? label).map weight).getD 0 + amount weight world := by
  simp [amount, World.push]

end Pool

end HautePerformance.Library
