import Mathlib.Data.UInt
import HautePerformance.Library.PoolBalance
import HautePerformance.KvDistributed.MetricsPage
import HautePerformance.KvDistributed.Protocol

/-!
# The counters of the server

`run`, `handle_connection` and `handle_request` of `server.rs` with the counters
that they keep, each a `fetch_add` of its own, for any number of connections.  What
a connection meets is given with it: what it reads, how its handlers end, and which
of its writes succeed.  A handler that panics ends the task of its connection at
once, before the `fetch_sub`.
-/

namespace HautePerformance.KvDistributed

open Library

/-- The counters that the server keeps. -/
inductive Counter where
  | ops
  | get
  | put
  | delete
  | errors
  | connections
  deriving DecidableEq, Repr

namespace NodeMetrics

def value (self : NodeMetrics) : Counter → UInt64
  | .ops => self.opsTotal
  | .get => self.getTotal
  | .put => self.putTotal
  | .delete => self.deleteTotal
  | .errors => self.errorsTotal
  | .connections => self.activeConnections

/-- `fetch_add(1)` on a counter. -/
def count (self : NodeMetrics) : Counter → NodeMetrics
  | .ops => { self with opsTotal := self.opsTotal + 1 }
  | .get => { self with getTotal := self.getTotal + 1 }
  | .put => { self with putTotal := self.putTotal + 1 }
  | .delete => { self with deleteTotal := self.deleteTotal + 1 }
  | .errors => { self with errorsTotal := self.errorsTotal + 1 }
  | .connections => { self with activeConnections := self.activeConnections + 1 }

/-- `active_connections.fetch_sub(1)`. -/
def disconnect (self : NodeMetrics) : NodeMetrics :=
  { self with activeConnections := self.activeConnections - 1 }

/-- The store of `update_replication_lag`, after `prev` has been loaded. -/
def storeLag (self : NodeMetrics) (prev latMs : UInt64) : NodeMetrics :=
  { self with
    toMetrics := Metrics.updateReplicationLag { replicationLagUs := prev } latMs }

variable {self : NodeMetrics} {counter other : Counter}

theorem value_count :
    (self.count counter).value other =
      self.value other + if counter = other then 1 else 0 := by
  cases counter <;> cases other <;> simp [count, value]

theorem value_disconnect :
    self.disconnect.value other =
      self.value other - if other = .connections then 1 else 0 := by
  cases other <;> simp [disconnect, value]

@[simp]
theorem value_storeLag (prev latMs : UInt64) :
    (self.storeLag prev latMs).value other = self.value other := by
  cases other <;> rfl

end NodeMetrics

/-- How the handler of a request ends: with what was asked for, with an error of the
replicator, or with a panic. -/
inductive HandlerEnd where
  | succeeds
  | fails
  | panics
  deriving DecidableEq

/-- A request that a connection reads, how its handler ends, the latency that is
measured if it is a `Put`, and whether the response is written. -/
structure Exchange where
  request : Request
  ends : HandlerEnd
  latMs : UInt64
  written : Bool
  deriving DecidableEq

/-- What a connection meets; after the exchanges it reads the end of the stream, or
an error. -/
structure Session where
  nodelay : Bool
  exchanges : List Exchange
  eof : Bool
  deriving DecidableEq

/-- Where the task of a connection is. -/
inductive ConnectionPosition where
  | accept
  | nodelay
  | read (rest : List Exchange)
  | ops (exchange : Exchange) (rest : List Exchange)
  | dispatch (exchange : Exchange) (rest : List Exchange)
  | serve (exchange : Exchange) (rest : List Exchange)
  | lagLoad (exchange : Exchange) (rest : List Exchange)
  | lagStore (prev : UInt64) (exchange : Exchange) (rest : List Exchange)
  | answer (exchange : Exchange) (rest : List Exchange)
  | write (exchange : Exchange) (rest : List Exchange)
  | leave (ok : Bool)
  deriving DecidableEq

/-- One step of a connection, from the `fetch_add` after `accept` to the `fetch_sub`
at the end of its task.  A panic ends the task without a result. -/
def connectionStep (session : Session) (metrics : NodeMetrics) :
    ConnectionPosition → NodeMetrics × Next ConnectionPosition (Option Bool)
  | .accept => (metrics.count .connections, .goOn .nodelay)
  | .nodelay =>
      if session.nodelay then (metrics, .goOn (.read session.exchanges))
      else (metrics, .goOn (.leave false))
  | .read [] => (metrics, .goOn (.leave session.eof))
  | .read (exchange :: rest) => (metrics, .goOn (.ops exchange rest))
  | .ops exchange rest => (metrics.count .ops, .goOn (.dispatch exchange rest))
  | .dispatch exchange rest =>
      match exchange.request with
      | .get _ => (metrics.count .get, .goOn (.serve exchange rest))
      | .put _ _ _ => (metrics.count .put, .goOn (.serve exchange rest))
      | .delete _ => (metrics.count .delete, .goOn (.serve exchange rest))
      | .scan _ _ => (metrics, .goOn (.serve exchange rest))
      | .replicate _ _ _ _ _ => (metrics, .goOn (.serve exchange rest))
      | .heartbeat _ _ => (metrics, .goOn (.serve exchange rest))
  | .serve exchange rest =>
      if exchange.ends = .panics then (metrics, .finish none)
      else
        match exchange.request with
        | .get _ => (metrics, .goOn (.answer exchange rest))
        | .put _ _ _ => (metrics, .goOn (.lagLoad exchange rest))
        | .delete _ => (metrics, .goOn (.answer exchange rest))
        | .scan _ _ => (metrics, .goOn (.write exchange rest))
        | .replicate _ _ _ _ _ => (metrics, .goOn (.write exchange rest))
        | .heartbeat _ _ => (metrics, .goOn (.write exchange rest))
  | .lagLoad exchange rest =>
      (metrics, .goOn (.lagStore metrics.replicationLagUs exchange rest))
  | .lagStore prev exchange rest =>
      (metrics.storeLag prev exchange.latMs, .goOn (.answer exchange rest))
  | .answer exchange rest =>
      if exchange.ends = .fails then
        (metrics.count .errors, .goOn (.write exchange rest))
      else (metrics, .goOn (.write exchange rest))
  | .write exchange rest =>
      if exchange.written then (metrics, .goOn (.read rest))
      else (metrics, .goOn (.leave false))
  | .leave ok => (metrics.disconnect, .finish (some ok))

/-- The connections of a server; the heartbeat loop stores the number of peers. -/
def serverObject :
    ConcurrentObject NodeMetrics UInt64 (fun _ : Session => ConnectionPosition)
      (fun _ => Option Bool) where
  enter _ := .accept
  step {session} metrics position := connectionStep session metrics position
  environment alive metrics := { metrics with peersAlive := alive }

abbrev ServerPool :=
  Pool NodeMetrics (fun _ : Session => ConnectionPosition)
    (fun _ => Option Bool)

abbrev ServerWorld :=
  World ServerPool (PoolLabel Session UInt64)

/-- Servers that start with the counters at zero. -/
def serverSystem : System ServerPool (PoolLabel Session UInt64) :=
  serverObject.system fun metrics => ∀ counter, metrics.value counter = 0

/-! ## What a connection counts -/

namespace Exchange

/-- What every request adds to a counter. -/
def opsCount (counter : Counter) : Nat :=
  if .ops = counter then 1 else 0

/-- What an error of the replicator adds. -/
def errorCount (exchange : Exchange) (counter : Counter) : Nat :=
  if exchange.ends = .fails then if .errors = counter then 1 else 0 else 0

/-- What a request adds for its kind. -/
def kindCount (exchange : Exchange) (counter : Counter) : Nat :=
  match exchange.request with
  | .get _ => if .get = counter then 1 else 0
  | .put _ _ _ => if .put = counter then 1 else 0
  | .delete _ => if .delete = counter then 1 else 0
  | .scan _ _ => 0
  | .replicate _ _ _ _ _ => 0
  | .heartbeat _ _ => 0

/-- What its handler adds; only three kinds go to the replicator. -/
def serveCount (exchange : Exchange) (counter : Counter) : Nat :=
  match exchange.request with
  | .get _ => exchange.errorCount counter
  | .put _ _ _ => exchange.errorCount counter
  | .delete _ => exchange.errorCount counter
  | .scan _ _ => 0
  | .replicate _ _ _ _ _ => 0
  | .heartbeat _ _ => 0

def counts (exchange : Exchange) (counter : Counter) : Nat :=
  opsCount counter + (exchange.kindCount counter + exchange.serveCount counter)

theorem counts_connections (exchange : Exchange) :
    exchange.counts .connections = 0 := by
  cases request : exchange.request <;>
    simp [counts, opsCount, kindCount, serveCount, errorCount, request]

theorem serveCount_of_panics {exchange : Exchange} (panics : exchange.ends = .panics)
    (counter : Counter) : exchange.serveCount counter = 0 := by
  cases request : exchange.request <;>
    simp [serveCount, errorCount, request, panics]

end Exchange

/-- The exchanges whose request is handled: no other is read after a panic or a write
that fails. -/
def handledExchanges : List Exchange → List Exchange
  | [] => []
  | exchange :: rest =>
      exchange ::
        if exchange.ends ≠ .panics ∧ exchange.written = true then
          handledExchanges rest
        else []

/-- The exchanges that a connection comes to. -/
def Session.handled (session : Session) : List Exchange :=
  if session.nodelay then handledExchanges session.exchanges else []

def countedIn (counter : Counter) (exchanges : List Exchange) : Nat :=
  (exchanges.map fun exchange => exchange.counts counter).sum

namespace ConnectionPosition

/-- What follows once the response to the exchange is there. -/
def afterAnswer (counter : Counter) (exchange : Exchange) (rest : List Exchange) :
    Nat :=
  if exchange.written then countedIn counter (handledExchanges rest) else 0

/-- What follows once the handler of the exchange is called. -/
def afterServe (counter : Counter) (exchange : Exchange) (rest : List Exchange) :
    Nat :=
  if exchange.ends = .panics then 0 else afterAnswer counter exchange rest

/-- What the connection will still count. -/
def ahead (session : Session) (counter : Counter) : ConnectionPosition → Nat
  | .accept => countedIn counter session.handled
  | .nodelay => countedIn counter session.handled
  | .read rest => countedIn counter (handledExchanges rest)
  | .ops exchange rest => exchange.counts counter + afterServe counter exchange rest
  | .dispatch exchange rest =>
      exchange.kindCount counter +
        (exchange.serveCount counter + afterServe counter exchange rest)
  | .serve exchange rest =>
      exchange.serveCount counter + afterServe counter exchange rest
  | .lagLoad exchange rest =>
      exchange.errorCount counter + afterAnswer counter exchange rest
  | .lagStore _ exchange rest =>
      exchange.errorCount counter + afterAnswer counter exchange rest
  | .answer exchange rest =>
      exchange.errorCount counter + afterAnswer counter exchange rest
  | .write exchange rest => afterAnswer counter exchange rest
  | .leave _ => 0

/-- One for a connection that has been counted as open. -/
def opened : ConnectionPosition → Nat
  | .accept => 0
  | _ => 1

end ConnectionPosition

/-- What the connection is still to add to a counter; an open connection is to be
taken off `active_connections`. -/
def owed (counter : Counter) (session : Session) (position : ConnectionPosition) :
    UInt64 :=
  UInt64.ofNat (position.ahead session counter) -
    if counter = .connections then UInt64.ofNat position.opened else 0

/-- A task that a panic has ended is never taken off `active_connections`. -/
def unsettled (counter : Counter) (result : Option Bool) : UInt64 :=
  0 - if counter = .connections ∧ result = none then 1 else 0

theorem countedIn_connections (exchanges : List Exchange) :
    countedIn .connections exchanges = 0 := by
  refine List.sum_eq_zero fun count member => ?_
  obtain ⟨exchange, _, rfl⟩ := List.mem_map.mp member
  exact exchange.counts_connections

/-- No request counts a connection. -/
theorem ConnectionPosition.ahead_connections (session : Session)
    (position : ConnectionPosition) : position.ahead session .connections = 0 := by
  have afterwards (exchange : Exchange) (rest : List Exchange) :
      afterAnswer .connections exchange rest = 0 := by
    rw [afterAnswer, countedIn_connections, ite_self]
  have served (exchange : Exchange) (rest : List Exchange) :
      afterServe .connections exchange rest = 0 := by
    rw [afterServe, afterwards, ite_self]
  have noError (exchange : Exchange) : exchange.errorCount .connections = 0 := by
    simp [Exchange.errorCount]
  have neither (exchange : Exchange) :
      exchange.kindCount .connections = 0 ∧ exchange.serveCount .connections = 0 := by
    have none := exchange.counts_connections
    rw [Exchange.counts] at none
    omega
  cases position <;>
    simp [ahead, countedIn_connections, Exchange.counts_connections, afterwards,
      served, noError, neither]

theorem countedIn_handled_cons (counter : Counter) (exchange : Exchange)
    (rest : List Exchange) :
    countedIn counter (handledExchanges (exchange :: rest)) =
      exchange.counts counter +
        ConnectionPosition.afterServe counter exchange rest := by
  rw [handledExchanges, countedIn, List.map_cons, List.sum_cons,
    ConnectionPosition.afterServe, ConnectionPosition.afterAnswer]
  by_cases panics : exchange.ends = .panics
  · simp [panics]
  · cases written : exchange.written with
    | true => simp [panics, countedIn]
    | false => simp [panics]

theorem add_owing {value taken : UInt64} {counts : Prop} [Decidable counts]
    {before after : Nat} (paid : before = (if counts then 1 else 0) + after) :
    value + (if counts then 1 else 0) + (UInt64.ofNat after - taken) =
      value + (UInt64.ofNat before - taken) := by
  subst paid
  split
  · rw [UInt64.ofNat_add, UInt64.ofNat_one, add_assoc, add_sub_assoc]
  · rw [Nat.zero_add, add_zero]

/-- The step from a position counts what the connection then owes less. -/
def StepCounted (counter : Counter) (session : Session) (metrics : NodeMetrics)
    (position : ConnectionPosition) : Prop :=
  (connectionStep session metrics position).1.value counter +
      (connectionStep session metrics position).2.weight (owed counter session)
        (unsettled counter) =
    metrics.value counter + owed counter session position

theorem stepCounted_accept (counter : Counter) (session : Session)
    (metrics : NodeMetrics) : StepCounted counter session metrics .accept := by
  simp only [StepCounted, connectionStep, NodeMetrics.value_count, Next.weight, owed,
    ConnectionPosition.ahead, ConnectionPosition.opened]
  by_cases connections : counter = .connections
  · simp [connections, add_assoc]
  · simp [connections, Ne.symm connections]

/-- The kind of a request is counted when the request is dispatched. -/
theorem stepCounted_dispatch (counter : Counter) (session : Session)
    (metrics : NodeMetrics) (exchange : Exchange) (rest : List Exchange) :
    StepCounted counter session metrics (.dispatch exchange rest) := by
  simp only [StepCounted, connectionStep]
  split
  case h_1 | h_2 | h_3 =>
    rename_i request
    rw [NodeMetrics.value_count]
    refine add_owing ?_
    simp only [ConnectionPosition.ahead, Exchange.kindCount, request]
  all_goals
    rename_i request
    simp [Next.weight, owed, ConnectionPosition.ahead,
      ConnectionPosition.opened, Exchange.kindCount, request]

/-- A handler that panics counts nothing any more, and leaves its connection open. -/
theorem stepCounted_serve (counter : Counter) (session : Session)
    (metrics : NodeMetrics) (exchange : Exchange) (rest : List Exchange) :
    StepCounted counter session metrics (.serve exchange rest) := by
  simp only [StepCounted, connectionStep]
  split
  · rename_i panics
    simp [Next.weight, owed, unsettled, ConnectionPosition.ahead,
      ConnectionPosition.opened, ConnectionPosition.afterServe, panics,
      Exchange.serveCount_of_panics panics]
  · rename_i answers
    split
    all_goals
      rename_i request
      simp [Next.weight, owed, ConnectionPosition.ahead,
        ConnectionPosition.opened, ConnectionPosition.afterServe, answers,
        Exchange.serveCount, request]

theorem stepCounted_answer (counter : Counter) (session : Session)
    (metrics : NodeMetrics) (exchange : Exchange) (rest : List Exchange) :
    StepCounted counter session metrics (.answer exchange rest) := by
  simp only [StepCounted, connectionStep]
  split
  · rename_i fails
    rw [NodeMetrics.value_count]
    refine add_owing ?_
    simp only [ConnectionPosition.ahead, Exchange.errorCount, fails, if_true]
  · rename_i succeeds
    simp [Next.weight, owed, ConnectionPosition.ahead,
      ConnectionPosition.opened, Exchange.errorCount, succeeds]

theorem stepCounted (counter : Counter) (session : Session)
    (metrics : NodeMetrics) (position : ConnectionPosition) :
    StepCounted counter session metrics position := by
  cases position with
  | accept => exact stepCounted_accept counter session metrics
  | nodelay =>
      simp only [StepCounted, connectionStep]
      split
      · rename_i on
        simp [Next.weight, owed, ConnectionPosition.ahead, ConnectionPosition.opened,
          Session.handled, on]
      · rename_i off
        simp [Next.weight, owed, ConnectionPosition.ahead, ConnectionPosition.opened,
          Session.handled, off, countedIn]
  | read rest =>
      cases rest with
      | nil => rfl
      | cons exchange rest =>
          simp only [StepCounted, connectionStep, Next.weight, owed,
            ConnectionPosition.ahead, ConnectionPosition.opened,
            countedIn_handled_cons]
  | ops exchange rest =>
      rw [StepCounted, connectionStep, NodeMetrics.value_count]
      refine add_owing ?_
      rw [ConnectionPosition.ahead, ConnectionPosition.ahead, Exchange.counts,
        Exchange.opsCount, Nat.add_assoc, Nat.add_assoc]
  | dispatch exchange rest =>
      exact stepCounted_dispatch counter session metrics exchange rest
  | serve exchange rest =>
      exact stepCounted_serve counter session metrics exchange rest
  | lagLoad exchange rest => rfl
  | lagStore prev exchange rest =>
      simp only [StepCounted, connectionStep, NodeMetrics.value_storeLag]
      rfl
  | answer exchange rest =>
      exact stepCounted_answer counter session metrics exchange rest
  | write exchange rest =>
      simp only [StepCounted, connectionStep]
      split
      · rename_i written
        simp [Next.weight, owed, ConnectionPosition.ahead, ConnectionPosition.opened,
          ConnectionPosition.afterAnswer, written]
      · rename_i lost
        simp [Next.weight, owed, ConnectionPosition.ahead, ConnectionPosition.opened,
          ConnectionPosition.afterAnswer, lost]
  | leave ok =>
      simp [StepCounted, connectionStep, NodeMetrics.value_disconnect, Next.weight,
        owed, unsettled, ConnectionPosition.ahead, ConnectionPosition.opened,
        sub_eq_add_neg]

/-! ## Runs -/

/-- What the calls that a pool has seen come to in all. -/
def due (counter : Counter) (session : Session) : UInt64 :=
  UInt64.ofNat (countedIn counter session.handled)

theorem balanced (counter : Counter) :
    Balanced serverObject (fun metrics => metrics.value counter)
      (fun session position => owed counter session position - due counter session)
      (fun session result => unsettled counter result - due counter session)
      (fun _ => 0) (fun _ _ _ => 0)
      (fun _ _ _ => 0) (fun _ _ => True) where
  enter session := by
    have atStart : owed counter session .accept = due counter session := by
      simp [owed, due, ConnectionPosition.ahead, ConnectionPosition.opened]
    exact sub_eq_zero.mpr atStart
  environment alive metrics := by cases counter <;> rfl
  step {pool _ activity} _ _ := by
    have step := stepCounted counter activity.call pool.shared activity.position
    intro after
    have settled (next : Next ConnectionPosition (Option Bool)) :
        next.weight
            (fun position => owed counter activity.call position -
              due counter activity.call)
            (fun result => unsettled counter result - due counter activity.call) =
          next.weight (owed counter activity.call) (unsettled counter) -
            due counter activity.call := by
      cases next with
      | goOn position => rfl
      | finish result => rfl
    show after.1.value counter + after.2.weight _ _ + 0 = _
    rw [settled, add_zero, add_zero, ← add_sub_assoc, ← add_sub_assoc]
    exact congrArg (· - due counter activity.call) step

theorem sum_sub_add {Item : Type} (first second : Item → UInt64)
    (items : List Item) :
    (items.map fun item => first item - second item).sum +
        (items.map second).sum =
      (items.map first).sum := by
  rw [← List.sum_map_add]
  refine congrArg List.sum (List.map_congr_left fun item _ => ?_)
  exact sub_add_cancel _ _

theorem sum_neg_add {Item : Type} (weight : Item → UInt64) (items : List Item) :
    (items.map fun item => -weight item).sum + (items.map weight).sum = 0 := by
  rw [← List.sum_map_add]
  refine List.sum_eq_zero fun value member => ?_
  obtain ⟨item, _, rfl⟩ := List.mem_map.mp member
  exact neg_add_cancel _

theorem sum_ofNat {Item : Type} (weight : Item → Nat) (items : List Item) :
    (items.map fun item => UInt64.ofNat (weight item)).sum =
      UInt64.ofNat (items.map weight).sum := by
  induction items with
  | nil => rfl
  | cons item rest inductionHypothesis =>
      rw [List.map_cons, List.sum_cons, inductionHypothesis, List.map_cons,
        List.sum_cons, UInt64.ofNat_add]

theorem sum_neg_ofNat {Item : Type} (weight : Item → Nat) (items : List Item) :
    (items.map fun item => -UInt64.ofNat (weight item)).sum =
      -UInt64.ofNat (items.map weight).sum := by
  rw [← sum_ofNat]
  exact eq_neg_of_add_eq_zero_left (sum_neg_add _ _)

theorem total_ofNat (pool : ServerPool)
    (weight : Activity (fun _ : Session => ConnectionPosition) → Nat) :
    (pool.total fun activity => UInt64.ofNat (weight activity)) =
      UInt64.ofNat (pool.total weight) := by
  exact sum_ofNat _ _

/-- What a counter shows, what the open connections owe to it and what panics have
left unsettled is due to the connections that there have been. -/
theorem value_add_owed (counter : Counter) {world : ServerWorld}
    (reachable : serverSystem.Reachable (fun _ _ => True) world) :
    world.state.shared.value counter +
        (world.state.total
            (fun activity => owed counter activity.call activity.position) +
          (world.state.returned.map fun record =>
            unsettled counter record.result).sum) =
      world.state.total (fun activity => due counter activity.call) +
        (world.state.returned.map fun record => due counter record.call).sum := by
  have balance := (balanced counter).balance_closed
    (fun _ atZero => atZero counter) reachable
  rw [Pool.total_atStep_zero, Pool.total_brought_zero, add_zero, add_zero,
    Pool.shares] at balance
  have running :
      world.state.heldBy (fun session position =>
            owed counter session position - due counter session) +
          world.state.total (fun activity => due counter activity.call) =
        world.state.total
          (fun activity => owed counter activity.call activity.position) :=
    sum_sub_add _ _ _
  have returned :
      world.state.returnedBy (fun session result =>
            unsettled counter result - due counter session) +
          (world.state.returned.map fun record => due counter record.call).sum =
        (world.state.returned.map fun record =>
          unsettled counter record.result).sum :=
    sum_sub_add _ _ _
  rw [← running, ← returned, add_add_add_comm, ← add_assoc, balance, zero_add]

/-- The connections that are open. -/
def openConnections (pool : ServerPool) : Nat :=
  pool.total fun activity => activity.position.opened

/-- The connections whose task a panic has ended. -/
def panickedConnections (pool : ServerPool) : Nat :=
  (pool.returned.map fun record => if record.result = none then 1 else 0).sum

/-- What the open connections will still count. -/
def stillToCount (counter : Counter) (pool : ServerPool) : Nat :=
  pool.total fun activity => activity.position.ahead activity.call counter

/-- What the exchanges of all connections so far come to. -/
def toCount (counter : Counter) (pool : ServerPool) : Nat :=
  pool.total (fun activity => countedIn counter activity.call.handled) +
    (pool.returned.map fun record => countedIn counter record.call.handled).sum

/-- No connection owes anything to the count of connections but its own end. -/
theorem activeConnections_eq {world : ServerWorld}
    (reachable : serverSystem.Reachable (fun _ _ => True) world) :
    world.state.shared.activeConnections =
      UInt64.ofNat
        (openConnections world.state + panickedConnections world.state) := by
  have balance := value_add_owed .connections reachable
  have nothingDue (session : Session) : due .connections session = 0 := by
    rw [due, countedIn_connections]
    rfl
  have owes (activity : Activity (fun _ : Session => ConnectionPosition)) :
      owed .connections activity.call activity.position =
        -UInt64.ofNat activity.position.opened := by
    rw [owed, ConnectionPosition.ahead_connections]
    exact zero_sub _
  have unpaid (result : Option Bool) :
      unsettled .connections result =
        -UInt64.ofNat (if result = none then 1 else 0) := by
    cases result <;> simp [unsettled]
  have held :
      (world.state.total fun activity => -UInt64.ofNat activity.position.opened) =
        -UInt64.ofNat (openConnections world.state) :=
    sum_neg_ofNat _ _
  have kept :
      (world.state.returned.map fun record =>
          -UInt64.ofNat (if record.result = none then 1 else 0)).sum =
        -UInt64.ofNat (panickedConnections world.state) :=
    sum_neg_ofNat _ _
  have noDues : (world.state.returned.map fun _ => (0 : UInt64)).sum = 0 :=
    List.sum_eq_zero fun value member => by
      obtain ⟨_, _, rfl⟩ := List.mem_map.mp member
      rfl
  have noDuesRunning : (world.state.total fun _ => (0 : UInt64)) = 0 :=
    List.sum_eq_zero fun value member => by
      obtain ⟨_, _, rfl⟩ := List.mem_map.mp member
      rfl
  simp only [owes, unpaid, nothingDue] at balance
  rw [held, kept, noDues, noDuesRunning, add_zero, ← neg_add,
    ← UInt64.ofNat_add] at balance
  exact add_neg_eq_zero.mp balance

/-- No count is lost, whatever the interleaving and however the connections end:
`active_connections` is at any time the number of the connections that are open or
whose task a panic has ended, and the other counters lack only what the open
connections have not counted yet. -/
theorem counters_exact {world : ServerWorld}
    (reachable : serverSystem.Reachable (fun _ _ => True) world) :
    world.state.shared.activeConnections =
        UInt64.ofNat
          (openConnections world.state + panickedConnections world.state) ∧
      ∀ counter, counter ≠ .connections →
        world.state.shared.value counter +
            UInt64.ofNat (stillToCount counter world.state) =
          UInt64.ofNat (toCount counter world.state) := by
  refine ⟨activeConnections_eq reachable, ?_⟩
  intro counter other
  have balance := value_add_owed counter reachable
  have owes (activity : Activity (fun _ : Session => ConnectionPosition)) :
      owed counter activity.call activity.position =
        UInt64.ofNat (activity.position.ahead activity.call counter) := by
    rw [owed, if_neg other, sub_zero]
  have settled (result : Option Bool) : unsettled counter result = 0 := by
    rw [unsettled, if_neg (fun both => other both.1), sub_zero]
  have nothingUnsettled :
      (world.state.returned.map fun _ => (0 : UInt64)).sum = 0 :=
    List.sum_eq_zero fun value member => by
      obtain ⟨_, _, rfl⟩ := List.mem_map.mp member
      rfl
  simp only [owes, settled, due] at balance
  rw [nothingUnsettled, add_zero, total_ofNat, total_ofNat, sum_ofNat,
    ← UInt64.ofNat_add] at balance
  exact balance

/-- A connection that has read a get, a put that fails and a scan whose response is
lost. -/
def brokenSession : Session where
  nodelay := true
  exchanges :=
    [⟨.get "k", .succeeds, 0, true⟩, ⟨.put "k" [1] none, .fails, 3, true⟩,
      ⟨.scan "" 10, .succeeds, 0, false⟩]
  eof := true

/-- A connection whose second request makes its handler panic. -/
def panickingSession : Session where
  nodelay := true
  exchanges :=
    [⟨.replicate "k" [1] 18446744073709551615 none 2, .succeeds, 0, true⟩,
      ⟨.put "k" [2] none, .panics, 0, true⟩]
  eof := true

/-- One thread goes through the broken session and one through the panicking one,
while a third is about to read. -/
theorem counters_exact_broken :
    ∃ world, serverSystem.Reachable (fun _ _ => True) world ∧
      world.state.shared.activeConnections = UInt64.ofNat 2 ∧
      world.state.shared.value .ops + UInt64.ofNat 3 = UInt64.ofNat 8 ∧
      world.state.shared.value .errors + UInt64.ofNat 1 = UInt64.ofNat 2 := by
  obtain ⟨world, reachable, checked⟩ :=
    serverSystem.exists_reachable_of_replay (fun _ _ => True)
      (Pool.idle (NodeMetrics.new 1 0))
      ([.call 1 brokenSession, .call 2 brokenSession, .call 3 panickingSession,
        .run 2, .run 2] ++ List.replicate 11 (.run 3) ++
        List.replicate 22 (.run 1))
      (fun _ _ => true)
      (fun world =>
        openConnections world.state == 1 &&
          panickedConnections world.state == 1 &&
          stillToCount .ops world.state == 3 &&
          toCount .ops world.state == 8 && stillToCount .errors world.state == 1 &&
          toCount .errors world.state == 2)
      ⟨NodeMetrics.new 1 0, fun counter => by cases counter <;> rfl, rfl⟩
      (fun _ _ _ => trivial) (by decide +kernel)
  simp only [Bool.and_eq_true, beq_iff_eq] at checked
  obtain ⟨⟨⟨⟨⟨isOpen, panicked⟩, opsAhead⟩, ops⟩, errorsAhead⟩, errors⟩ := checked
  have counted := counters_exact reachable
  refine ⟨world, reachable, ?_, ?_, ?_⟩
  · rw [counted.1, isOpen, panicked]
  · rw [← opsAhead, ← ops]
    exact counted.2 .ops (by decide)
  · rw [← errorsAhead, ← errors]
    exact counted.2 .errors (by decide)

end HautePerformance.KvDistributed
