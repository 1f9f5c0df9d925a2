import HautePerformance.Library.Monitor

/-!
# The ring buffer

`RingBuffer` of `exo05_ringbuffer.rs`: a bounded queue behind a mutex, with one
condition variable for producers and one for consumers.  `push` and `pop` wait in a
loop, so a thread that is woken runs its section from the start; every call notifies
after it has dropped the guard.
-/

namespace HautePerformance.Demos

open Library

inductive BufferError where
  | closed
  deriving DecidableEq, Repr

/-- The queue, the oldest value first. -/
structure Inner (T : Type) where
  queue : List T
  capacity : Nat
  closed : Bool

/-- The condition variables. -/
inductive Condvar where
  | notFull
  | notEmpty
  deriving DecidableEq, Repr

inductive BufferCall (T : Type) where
  | push (value : T)
  | pop
  | tryPush (value : T)
  | tryPop
  | close

/-- What the calls return. -/
def BufferResult {T : Type} : BufferCall T → Type
  | .push _ => Except BufferError Unit
  | .pop => Except BufferError T
  | .tryPush _ => Except BufferError Unit
  | .tryPop => Except BufferError (Option T)
  | .close => Unit

/-- A call with what it has returned. -/
abbrev Exchange (T : Type) :=
  (call : BufferCall T) × BufferResult call

abbrev BufferProgram (T : Type) :=
  Program (@BufferResult T)

abbrev BufferPool (T : Type) (n : Nat) :=
  MonitorPool (Inner T) Condvar (@BufferResult T) n

abbrev BufferWorld (T : Type) (n : Nat) :=
  World (BufferPool T n) (MonitorLabel n)

namespace RingBuffer

variable {T : Type}

/-- `RingBuffer::new`, which panics for the capacity zero. -/
def new (capacity : Nat) : Option (Inner T) :=
  if 0 < capacity then
    some { queue := [], capacity := capacity, closed := false }
  else
    none

/-- The section of `push`. -/
def push (value : T) (guard : Inner T) :
    Inner T × Outcome Condvar (Except BufferError Unit) :=
  if guard.queue.length = guard.capacity ∧ guard.closed = false then
    (guard, .wait .notFull)
  else if guard.closed then
    (guard, .leave (.error .closed) [])
  else
    ({ guard with queue := guard.queue ++ [value] },
      .leave (.ok ()) [.one .notEmpty])

/-- The section of `pop`. -/
def pop (guard : Inner T) : Inner T × Outcome Condvar (Except BufferError T) :=
  if guard.queue.isEmpty ∧ guard.closed = false then
    (guard, .wait .notEmpty)
  else
    match guard.queue with
    | v :: rest =>
        ({ guard with queue := rest }, .leave (.ok v) [.one .notFull])
    | [] => (guard, .leave (.error .closed) [])

/-- The section of `try_push`: a full buffer is reported as a closed one. -/
def tryPush (value : T) (guard : Inner T) :
    Inner T × Outcome Condvar (Except BufferError Unit) :=
  if guard.closed then
    (guard, .leave (.error .closed) [])
  else if guard.queue.length = guard.capacity then
    (guard, .leave (.error .closed) [])
  else
    ({ guard with queue := guard.queue ++ [value] },
      .leave (.ok ()) [.one .notEmpty])

/-- The section of `try_pop`. -/
def tryPop (guard : Inner T) :
    Inner T × Outcome Condvar (Except BufferError (Option T)) :=
  match guard.queue with
  | v :: rest =>
      ({ guard with queue := rest }, .leave (.ok (some v)) [.one .notFull])
  | [] =>
      if guard.closed then
        (guard, .leave (.error .closed) [])
      else
        (guard, .leave (.ok none) [])

/-- The section of `close`. -/
def close (guard : Inner T) : Inner T × Outcome Condvar Unit :=
  ({ guard with closed := true },
    .leave () [.all .notFull, .all .notEmpty])

def monitor : Monitor (Inner T) Condvar (@BufferResult T) where
  run
    | .push value => push value
    | .pop => pop
    | .tryPush value => tryPush value
    | .tryPop => tryPop
    | .close => close

/-- The runs of programs that share a new buffer. -/
def system (T : Type) (capacity : Nat) {n : Nat}
    (programs : Fin n → BufferProgram T) :
    System (BufferPool T n) (MonitorLabel n) :=
  monitor.system (fun state => new capacity = some state) programs

/-! ## What a section can do -/

/-- The condition that a call waits for. -/
def waitsOn : BufferCall T → Option Condvar
  | .push _ => some .notFull
  | .pop => some .notEmpty
  | _ => none

/-- The value that a call has put into the buffer. -/
def acceptedValue : Exchange T → Option T
  | ⟨.push value, .ok _⟩ => some value
  | ⟨.tryPush value, .ok _⟩ => some value
  | _ => none

/-- The value that a call has taken out of the buffer. -/
def returnedValue : Exchange T → Option T
  | ⟨.pop, .ok value⟩ => some value
  | ⟨.tryPop, .ok value⟩ => value
  | _ => none

/-- A section that falls asleep finds an open buffer, and `push` a full one, `pop`
an empty one. -/
inductive Waits (guard : Inner T) : BufferCall T → Condvar → Prop
  | push {value : T} :
      guard.closed = false →
      guard.queue.length = guard.capacity →
      Waits guard (.push value) .notFull
  | pop :
      guard.closed = false →
      guard.queue = [] →
      Waits guard .pop .notEmpty

/-- A section that is left puts a value into an open buffer that is not full, takes
the oldest value out, changes nothing, or closes the buffer. -/
inductive Leaves (guard : Inner T) :
    Exchange T → Inner T → List (Notification Condvar) → Prop
  | accept {exchange : Exchange T} {value : T} :
      acceptedValue exchange = some value →
      returnedValue exchange = none →
      exchange.1 ≠ .close →
      waitsOn exchange.1 ≠ some .notEmpty →
      guard.closed = false →
      guard.queue.length ≠ guard.capacity →
      Leaves guard exchange { guard with queue := guard.queue ++ [value] }
        [.one .notEmpty]
  | hand {exchange : Exchange T} {value : T}
      {rest : List T} :
      acceptedValue exchange = none →
      returnedValue exchange = some value →
      exchange.1 ≠ .close →
      waitsOn exchange.1 ≠ some .notFull →
      guard.queue = value :: rest →
      Leaves guard exchange { guard with queue := rest } [.one .notFull]
  | refuse {exchange : Exchange T} :
      acceptedValue exchange = none →
      returnedValue exchange = none →
      exchange.1 ≠ .close →
      waitsOn exchange.1 = none ∨ guard.closed = true →
      Leaves guard exchange guard []
  | close :
      Leaves guard ⟨.close, ()⟩ { guard with closed := true }
        [.all .notFull, .all .notEmpty]

theorem waits_of_run {call : BufferCall T} {guard slept : Inner T}
    {condition : Condvar}
    (ran : monitor.run call guard = (slept, .wait condition)) :
    slept = guard ∧ Waits guard call condition := by
  cases call with
  | push value =>
      simp only [monitor, push] at ran
      split at ran
      · rename_i full
        cases ran
        exact ⟨rfl, Waits.push full.2 full.1⟩
      · split at ran <;> cases ran
  | pop =>
      simp only [monitor, pop] at ran
      split at ran
      · rename_i empty
        cases ran
        exact ⟨rfl, Waits.pop empty.2 (List.isEmpty_iff.mp empty.1)⟩
      · split at ran <;> cases ran
  | tryPush value =>
      simp only [monitor, tryPush] at ran
      split at ran
      · cases ran
      · split at ran <;> cases ran
  | tryPop =>
      simp only [monitor, tryPop] at ran
      split at ran
      · cases ran
      · split at ran <;> cases ran
  | close => cases ran

theorem leaves_of_run {call : BufferCall T} {guard after : Inner T}
    {result : BufferResult call} {notifications : List (Notification Condvar)}
    (ran : monitor.run call guard = (after, .leave result notifications)) :
    Leaves guard ⟨call, result⟩ after notifications := by
  cases call with
  | push value =>
      simp only [monitor, push] at ran
      split at ran
      · cases ran
      · rename_i notFull
        split at ran
        · rename_i isClosed
          cases ran
          exact Leaves.refuse rfl rfl (by simp) (Or.inr isClosed)
        · rename_i isOpen
          cases ran
          have isOpen : guard.closed = false := by simpa using isOpen
          have room : guard.queue.length ≠ guard.capacity := by
            intro full
            exact notFull ⟨full, isOpen⟩
          exact Leaves.accept rfl rfl (by simp) (by simp [waitsOn]) isOpen room
  | pop =>
      simp only [monitor, pop] at ran
      split at ran
      · cases ran
      · rename_i notWaiting
        split at ran
        · rename_i value rest holds
          cases ran
          exact Leaves.hand rfl rfl (by simp) (by simp [waitsOn]) holds
        · rename_i empty
          cases ran
          have isClosed : guard.closed = true := by
            simpa [empty] using notWaiting
          exact Leaves.refuse rfl rfl (by simp) (Or.inr isClosed)
  | tryPush value =>
      simp only [monitor, tryPush] at ran
      split at ran
      · cases ran
        exact Leaves.refuse rfl rfl (by simp) (Or.inl rfl)
      · rename_i isOpen
        split at ran
        · cases ran
          exact Leaves.refuse rfl rfl (by simp) (Or.inl rfl)
        · rename_i room
          cases ran
          exact Leaves.accept rfl rfl (by simp) (by simp [waitsOn])
            (by simpa using isOpen) room
  | tryPop =>
      simp only [monitor, tryPop] at ran
      split at ran
      · rename_i value rest holds
        cases ran
        exact Leaves.hand rfl rfl (by simp) (by simp [waitsOn]) holds
      · split at ran
        · cases ran
          exact Leaves.refuse rfl rfl (by simp) (Or.inl rfl)
        · cases ran
          exact Leaves.refuse rfl rfl (by simp) (Or.inl rfl)
  | close =>
      cases ran
      exact Leaves.close

/-- A section never fills the buffer beyond its capacity. -/
theorem Leaves.bounded {guard after : Inner T} {exchange : Exchange T}
    {notifications : List (Notification Condvar)}
    (leaves : Leaves guard exchange after notifications)
    (bounded : guard.queue.length ≤ guard.capacity) :
    after.queue.length ≤ after.capacity := by
  cases leaves with
  | accept _ _ _ _ _ room =>
      simp only [List.length_append, List.length_singleton]
      omega
  | hand _ _ _ _ holds =>
      rw [holds, List.length_cons] at bounded
      exact Nat.le_of_succ_le bounded
  | refuse _ _ _ _ => exact bounded
  | close => exact bounded

end RingBuffer

end HautePerformance.Demos
