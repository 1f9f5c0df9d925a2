import HautePerformance.Library.ThreadPool

/-!
# The two dispatchers

`Dispatcher` and `DispatcherMutex` of `exo07_dispatcher.rs`: tasks go through a
queue to any number of workers, which count them by kind, until a flag is cleared.
One has a lock-free queue and map, the other locks around each operation.  Either
way a push, a pop, an update of the statistics, a load and a store of the flag are
atomic steps.
-/

namespace HautePerformance.Demos

open Library

inductive TypeTache where
  | parse
  | metrique
  | alerte
  deriving DecidableEq, Repr

structure Tache where
  id : UInt64
  kind : TypeTache
  payload : UInt64
  deriving DecidableEq, Repr

/-- `traiter`: fifty rounds of wrapping arithmetic on the payload. -/
def traiter (t : Tache) : UInt64 :=
  (List.range 50).foldl (fun acc _ => acc * 2654435761 + 1) t.payload

def nomKind : TypeTache → String
  | .parse => "parse"
  | .metrique => "metrique"
  | .alerte => "alerte"

/-- The counts by name of kind: a `DashMap` or a `HashMap` of `u64`. -/
abbrev Stats := AList fun _ : String => UInt64

namespace Stats

/-- The count of a name that may have no entry yet. -/
def count (stats : Stats) (name : String) : UInt64 :=
  (stats.lookup name).getD 0

/-- `*stats.entry(name).or_insert(0) += 1`. -/
def increment (stats : Stats) (name : String) : Stats :=
  stats.insert name (stats.count name + 1)

end Stats

/-- The lock-free dispatcher; its `SegQueue` with the oldest task first. -/
structure Dispatcher where
  queue : List Tache
  stats : Stats
  running : Bool

namespace Dispatcher

def new : Dispatcher :=
  { queue := [], stats := ∅, running := true }

/-- `Dispatcher::submit`. -/
def submit (t : Tache) (self : Dispatcher) : Dispatcher :=
  { self with queue := self.queue ++ [t] }

/-- `self.queue.pop()`. -/
def pop (self : Dispatcher) : Option Tache × Dispatcher :=
  match self.queue with
  | [] => (none, self)
  | t :: rest => (some t, { self with queue := rest })

/-- The update of the statistics for a task. -/
def countTache (t : Tache) (self : Dispatcher) : Dispatcher :=
  { self with stats := self.stats.increment (nomKind t.kind) }

/-- `Dispatcher::stop`. -/
def stop (self : Dispatcher) : Dispatcher :=
  { self with running := false }

end Dispatcher

/-- The dispatcher with locks around its `VecDeque` and its `HashMap`. -/
structure DispatcherMutex where
  queue : List Tache
  stats : Stats
  running : Bool

namespace DispatcherMutex

def new : DispatcherMutex :=
  { queue := [], stats := ∅, running := true }

/-- `DispatcherMutex::submit`: `push_back` under the lock. -/
def submit (t : Tache) (self : DispatcherMutex) : DispatcherMutex :=
  { self with queue := self.queue ++ [t] }

/-- `pop_front` under the lock, which is released before the task is processed. -/
def pop (self : DispatcherMutex) : Option Tache × DispatcherMutex :=
  match self.queue with
  | [] => (none, self)
  | t :: rest => (some t, { self with queue := rest })

/-- The update of the statistics for a task, under their lock. -/
def countTache (t : Tache) (self : DispatcherMutex) : DispatcherMutex :=
  { self with stats := self.stats.increment (nomKind t.kind) }

/-- `DispatcherMutex::stop`. -/
def stop (self : DispatcherMutex) : DispatcherMutex :=
  { self with running := false }

/-- The same contents without the locks. -/
def unlocked (self : DispatcherMutex) : Dispatcher :=
  { queue := self.queue
    stats := self.stats
    running := self.running }

end DispatcherMutex

/-! ## What they have in common -/

/-- The atomic operations of a dispatcher.  Seen through `view` they are those of
`Dispatcher`. -/
structure Dispatching (Shared : Type) where
  new : Shared
  submit : Tache → Shared → Shared
  pop : Shared → Option Tache × Shared
  countTache : Tache → Shared → Shared
  isRunning : Shared → Bool
  stop : Shared → Shared
  view : Shared → Dispatcher
  view_new : view new = Dispatcher.new
  view_submit : ∀ t shared, view (submit t shared) = (view shared).submit t
  view_pop : ∀ shared,
    ((pop shared).1, view (pop shared).2) = (view shared).pop
  view_countTache : ∀ t shared,
    view (countTache t shared) = (view shared).countTache t
  view_isRunning : ∀ shared, isRunning shared = (view shared).running
  view_stop : ∀ shared, view (stop shared) = (view shared).stop

def Dispatcher.dispatching : Dispatching Dispatcher where
  new := .new
  submit := submit
  pop := pop
  countTache := countTache
  isRunning := running
  stop := stop
  view := id
  view_new := rfl
  view_submit _ _ := rfl
  view_pop _ := rfl
  view_countTache _ _ := rfl
  view_isRunning _ := rfl
  view_stop _ := rfl

def DispatcherMutex.dispatching : Dispatching DispatcherMutex where
  new := .new
  submit := submit
  pop := pop
  countTache := countTache
  isRunning := running
  stop := stop
  view := unlocked
  view_new := rfl
  view_submit _ _ := rfl
  view_pop shared := by
    cases shared with
    | mk queue stats running => cases queue <;> rfl
  view_countTache _ _ := rfl
  view_isRunning _ := rfl
  view_stop _ := rfl

/-! ## Threads on a dispatcher -/

inductive DispatcherCall where
  | submit (t : Tache)
  | workerLoop
  | stop
  deriving DecidableEq, Repr

namespace DispatcherCall

/-- Where a thread stands in a call; after a pop it has a task in hand. -/
inductive Position : DispatcherCall → Type where
  | submitPush {t} : Position (.submit t)
  | workerPop : Position .workerLoop
  | workerCount (t : Tache) : Position .workerLoop
  | workerLoad : Position .workerLoop
  | stopStore : Position .stop

abbrev Result : DispatcherCall → Type :=
  fun _ => Unit

/-- The first position of a call. -/
def enter : (call : DispatcherCall) → Position call
  | .submit _ => .submitPush
  | .workerLoop => .workerPop
  | .stop => .stopStore

end DispatcherCall

abbrev DispatcherPool (Shared : Type) :=
  Pool Shared DispatcherCall.Position DispatcherCall.Result

abbrev DispatcherActivity := Activity DispatcherCall.Position

/-- Nothing happens around a dispatcher. -/
abbrev DispatcherLabel := PoolLabel DispatcherCall Empty

abbrev DispatcherWorld (Shared : Type) :=
  World (DispatcherPool Shared) DispatcherLabel

namespace Dispatching

variable {Shared : Type} (dispatching : Dispatching Shared)

/-- One atomic step of a call.  A worker that finds the queue empty reads the flag
in a second step, and yields to the others when it goes on. -/
def step : {call : DispatcherCall} → Shared → DispatcherCall.Position call →
    Shared × Next (DispatcherCall.Position call) (DispatcherCall.Result call)
  | .submit t, shared, .submitPush =>
      (dispatching.submit t shared, .finish ())
  | .workerLoop, shared, .workerPop =>
      match dispatching.pop shared with
      | (some t, rest) => (rest, .goOn (.workerCount t))
      | (none, rest) => (rest, .goOn .workerLoad)
  | .workerLoop, shared, .workerCount t =>
      -- The result of the processing is dropped.
      let _ := traiter t
      (dispatching.countTache t shared, .goOn .workerPop)
  | .workerLoop, shared, .workerLoad =>
      if dispatching.isRunning shared then (shared, .goOn .workerPop)
      else (shared, .finish ())
  | .stop, shared, .stopStore => (dispatching.stop shared, .finish ())

/-- The dispatcher as an object that threads share. -/
def object :
    ConcurrentObject Shared Empty DispatcherCall.Position
      DispatcherCall.Result where
  enter := DispatcherCall.enter
  step := dispatching.step
  environment event := nomatch event

/-- The runs of a dispatcher from `new()`. -/
def system : System (DispatcherPool Shared) DispatcherLabel :=
  dispatching.object.system (· = dispatching.new)

end Dispatching

end HautePerformance.Demos
