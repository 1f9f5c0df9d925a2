import HautePerformance.Demos.RingBuffer

/-!
# The ring buffer is a bounded queue

In the order of the lock, the values taken out so far followed by those in the
buffer are the values put in, and the buffer never exceeds its capacity.
-/

namespace HautePerformance.Demos

open Library

namespace RingBuffer

variable {T : Type}

/-- The values put into the buffer in a run, in the order of the lock. -/
def accepted {n : Nat} (trace : List (BufferPool T n × MonitorLabel n)) : List T :=
  (monitor.sections trace).filterMap acceptedValue

/-- The values taken out of the buffer in a run, in the order of the lock. -/
def returned {n : Nat} (trace : List (BufferPool T n × MonitorLabel n)) : List T :=
  (monitor.sections trace).filterMap returnedValue

/-- What the sections left so far say about the buffer. -/
structure Ledger (capacity : Nat) (guard : Inner T)
    (past : List (Exchange T)) : Prop where
  order : past.filterMap returnedValue ++ guard.queue =
    past.filterMap acceptedValue
  bounded : guard.queue.length ≤ guard.capacity
  sameCapacity : guard.capacity = capacity
  positive : 0 < capacity
  closes : ∀ exchange, exchange ∈ past → exchange.1 = .close →
    guard.closed = true

variable {capacity : Nat} {guard after : Inner T}
variable {past : List (Exchange T)}

theorem ledger_new (created : new capacity = some guard) :
    Ledger capacity guard [] := by
  simp only [new, Option.ite_none_right_eq_some, Option.some.injEq] at created
  obtain ⟨positive, rfl⟩ := created
  exact ⟨rfl, Nat.zero_le capacity, rfl, positive, by simp⟩

/-- The flag tells a close among the sections, if the last one is none. -/
theorem Ledger.closes_snoc (ledger : Ledger capacity guard past)
    {exchange : Exchange T}
    (notClose : exchange.1 ≠ .close)
    (other : Exchange T)
    (member : other ∈ past ++ [exchange]) (isClose : other.1 = .close) :
    guard.closed = true := by
  rcases List.mem_append.mp member with earlier | last
  · exact ledger.closes other earlier isClose
  · rw [List.mem_singleton.mp last] at isClose
    exact absurd isClose notClose

/-- Every section keeps the ledger. -/
theorem Ledger.leave (ledger : Ledger capacity guard past)
    {exchange : Exchange T}
    {notifications : List (Notification Condvar)}
    (leaves : Leaves guard exchange after notifications) :
    Ledger capacity after (past ++ [exchange]) := by
  have bounded : after.queue.length ≤ after.capacity :=
    leaves.bounded ledger.bounded
  cases leaves with
  | accept accepts returnsNothing notClose _ _ _ =>
      refine ⟨?_, bounded, ledger.sameCapacity, ledger.positive,
        ledger.closes_snoc notClose⟩
      have order := ledger.order
      simp only [List.filterMap_append, List.filterMap_cons, accepts,
        returnsNothing, List.filterMap_nil, List.append_nil]
      rw [← List.append_assoc, order]
  | hand acceptsNothing returns notClose _ holds =>
      refine ⟨?_, bounded, ledger.sameCapacity, ledger.positive,
        ledger.closes_snoc notClose⟩
      have order := ledger.order
      rw [holds] at order
      simpa [List.filterMap_append, acceptsNothing, returns] using order
  | refuse acceptsNothing returnsNothing notClose _ =>
      refine ⟨?_, bounded, ledger.sameCapacity, ledger.positive,
        ledger.closes_snoc notClose⟩
      simpa [List.filterMap_append, acceptsNothing, returnsNothing] using
        ledger.order
  | close =>
      refine ⟨?_, bounded, ledger.sameCapacity, ledger.positive,
        fun _ _ _ => rfl⟩
      have acceptsNothing : acceptedValue (⟨.close, ()⟩ : Exchange T) = none :=
        rfl
      have returnsNothing : returnedValue (⟨.close, ()⟩ : Exchange T) = none :=
        rfl
      simpa [List.filterMap_append, acceptsNothing, returnsNothing] using
        ledger.order

variable {n : Nat} {programs : Fin n → BufferProgram T} {world : BufferWorld T n}

theorem ledger_of_reachable
    (reachable : (system T capacity programs).Reachable (fun _ _ => True) world) :
    Ledger capacity world.state.state (monitor.sections world.trace) := by
  refine Monitor.sections_invariant reachable (Ledger capacity) ?_ ?_ ?_
  · intro guard created
    exact ledger_new created
  · intro call guard slept condition past ledger ran
    rw [(waits_of_run ran).1]
    exact ledger
  · intro call guard after result notifications past ledger ran
    exact ledger.leave (leaves_of_run ran)

/-- No value is lost, duplicated or overtaken, and the capacity is respected. -/
theorem bounded_fifo
    (reachable : (system T capacity programs).Reachable (fun _ _ => True) world) :
    returned world.trace ++ world.state.state.queue = accepted world.trace ∧
      world.state.state.queue.length ≤ capacity := by
  have ledger := ledger_of_reachable reachable
  refine ⟨ledger.order, ?_⟩
  rw [← ledger.sameCapacity]
  exact ledger.bounded

/-- The run of a producer that has to wait for room, a consumer, and a third thread
that takes the value put in before the consumer, woken for it, gets the lock. -/
def bargingPrograms : Fin 3 → BufferProgram Nat
  | 0 => .perform (.push 7) fun _ => .perform (.push 8) fun _ => .done
  | 1 => .perform .pop fun _ => .done
  | 2 => .perform .tryPop fun _ => .done

theorem bounded_fifo_barging_consumer :
    ∃ world : BufferWorld Nat 3,
      accepted world.trace = [7, 8] ∧
        returned world.trace ++ world.state.state.queue = [7, 8] ∧
        world.state.state.queue.length ≤ 1 := by
  obtain ⟨world, reachable, checked⟩ :=
    System.exists_reachable_of_replay (system Nat 1 bargingPrograms)
      (fun _ _ => True)
      (MonitorPool.start { queue := [], capacity := 1, closed := false }
        bargingPrograms)
      [.enter 1, .enter 0, .notify 0 (some 1), .finish 0, .enter 0, .wake 0,
        .enter 0, .enter 2, .notify 2 (some 0), .enter 1, .enter 0]
      (fun _ _ => true)
      (fun world => decide (accepted world.trace = [7, 8]))
      ⟨_, rfl, rfl⟩ (fun _ _ _ => trivial) (by decide +kernel)
  have entered : accepted world.trace = [7, 8] := of_decide_eq_true checked
  obtain ⟨order, bounded⟩ := bounded_fifo reachable
  exact ⟨world, entered, order.trans entered, bounded⟩

end RingBuffer

end HautePerformance.Demos
