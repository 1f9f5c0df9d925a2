import HautePerformance.Library.Counter
import HautePerformance.Library.RpcEval
import HautePerformance.KvDistributed.ClusterSteps

/-!
# Versions and the range of the counter

One node handles a sequence of requests, its peers answering as they please.  A
`Replicate` raises the version counter to whatever version it carries.  The
versions that local puts draw are then above all stored ones, without overflow,
exactly when the counter that the sequence describes in natural numbers stays
below `2 ^ 64`.
-/

namespace HautePerformance.KvDistributed

open Library
open Library.Rpc

/-- A request that reaches a node, some time after the one before it, and the
outcomes of the calls that the node makes to serve it. -/
structure Arrival where
  request : Request
  elapsed : Nat
  outside : Nat → List (String × Request) → List (Except CallError Response)

namespace Cluster

variable (cluster : Cluster) (name : String)

/-- The node when a request has arrived. -/
def arrived (node : NodeState) (arrival : Arrival) : NodeState :=
  { node with now := node.now + arrival.elapsed }

/-- The node after it has handled one request. -/
def handle (node : NodeState) (arrival : Arrival) : NodeState :=
  ((cluster.service.handler name arrival.request).runWith arrival.outside 0 []
    (arrived node arrival)).2

/-- The node after it has handled the requests in order, from its boot. -/
def handleAll (arrivals : List Arrival) : NodeState :=
  arrivals.foldl (cluster.handle name) (cluster.service.boot name)

/-- What a request does to the version counter. -/
def counterOp? (request : Request) : Option CounterOp :=
  match request with
  | .put key _ _ => if name ∈ cluster.replicas key then some .next else none
  | .replicate _ _ version _ _ => some (.raise version.toNat)
  | _ => none

def counterOps (arrivals : List Arrival) : List CounterOp :=
  arrivals.filterMap fun arrival => cluster.counterOp? name arrival.request

/-- Every put that the node coordinates draws the successor of the counter,
without overflow, and above every version that the node has stored before. -/
def DrawsAbove (arrivals : List Arrival) : Prop :=
  ∀ before arrival after key value ttlMs,
    arrivals = before ++ arrival :: after →
    arrival.request = .put key value ttlMs →
    name ∈ cluster.replicas key →
    let node := arrived (cluster.handleAll name before) arrival
    let version :=
      (node.storage.put key value (ttlMs.map durationFromMillis) node.now).1
    version.toNat = node.storage.versionCounter.toNat + 1 ∧
      ∀ early late, before = early ++ late →
        ∀ other entry,
          (cluster.handleAll name early).storage.lookup other = some entry →
          entry.version < version

variable {cluster name}

/-- A put that the node coordinates is one local write. -/
theorem handle_put {node : NodeState} {arrival : Arrival} {key : String}
    {value : Bytes} {ttlMs : Option UInt64}
    (isPut : arrival.request = .put key value ttlMs)
    (isReplica : name ∈ cluster.replicas key) :
    cluster.handle name node arrival =
      (arrived node arrival).put key value ttlMs := by
  have stores : (Request.put key value ttlMs).stores key = true := by
    simp [Request.stores]
  obtain ⟨act, next, isAtomic⟩ := isActing_handler stores isReplica
  have within :
      (cluster.service.handler name (.put key value ttlMs)).Within
        (cluster.Acts name (.put key value ttlMs))
        (cluster.Calls name (.put key value ttlMs)) :=
    within_handler name _
  have once :
      (cluster.service.handler name (.put key value ttlMs)).ActsOnce :=
    actsOnce_handler name stores
  rw [isAtomic] at within once
  have isAction : act = (Request.put key value ttlMs).action := within.1.1
  simp only [handle, isPut, isAtomic, Prog.runWith]
  rw [Prog.Actless.runWith (once _), isAction]
  rfl

theorem handle_replicate {node : NodeState} {arrival : Arrival} {key : String}
    {value : Bytes} {version : UInt64} {ttlMs : Option UInt64}
    {sourceNodeId : UInt32}
    (isReplicate :
      arrival.request = .replicate key value version ttlMs sourceNodeId) :
    cluster.handle name node arrival =
      (arrived node arrival).putWithVersion key value version ttlMs := by
  simp only [handle, isReplicate]
  rfl

/-- The other requests leave the counter alone and add no entry. -/
theorem handle_other (node : NodeState) {arrival : Arrival}
    (noOp : cluster.counterOp? name arrival.request = none) :
    (cluster.handle name node arrival).storage.versionCounter =
        node.storage.versionCounter ∧
      ∀ key entry,
        (cluster.handle name node arrival).storage.lookup key = some entry →
        node.storage.lookup key = some entry := by
  refine (within_handler name arrival.request).runWith
    (fun store =>
      store.storage.versionCounter = node.storage.versionCounter ∧
        ∀ key entry, store.storage.lookup key = some entry →
          node.storage.lookup key = some entry)
    ?_ 0 [] (arrived node arrival) ⟨rfl, fun _ _ found => found⟩
  rintro act ⟨rfl, mayAct⟩ store ⟨sameCounter, fewer⟩
  cases request : arrival.request with
  | get key =>
      refine ⟨(StorageEngine.versionCounter_get _ _ _).trans sameCounter, ?_⟩
      intro other entry found
      exact fewer other entry (StorageEngine.lookup_of_lookup_get found)
  | delete key =>
      refine ⟨sameCounter, ?_⟩
      intro other entry found
      exact fewer other entry (StorageEngine.lookup_of_lookup_delete found)
  | put key value ttlMs =>
      rw [request] at mayAct noOp
      have isReplica : name ∈ cluster.replicas key := mayAct
      simp [counterOp?, isReplica] at noOp
  | replicate key value version ttlMs sourceNodeId =>
      rw [request] at noOp
      cases noOp
  | scan keyPrefix limit => exact ⟨sameCounter, fewer⟩
  | heartbeat nodeId timestampMs => exact ⟨sameCounter, fewer⟩

/-! ## The counter in natural numbers -/

theorem handleAll_append_singleton (arrivals : List Arrival)
    (last : Arrival) :
    cluster.handleAll name (arrivals ++ [last]) =
      cluster.handle name (cluster.handleAll name arrivals) last := by
  simp [handleAll]

theorem counterOps_append (arrivals more : List Arrival) :
    cluster.counterOps name (arrivals ++ more) =
      cluster.counterOps name arrivals ++ cluster.counterOps name more :=
  List.filterMap_append

/-- The kinds of requests, by what they do to the counter. -/
theorem counterOp?_cases (cluster : Cluster) (name : String)
    (request : Request) :
    cluster.counterOp? name request = none ∨
      (∃ key value ttlMs,
        request = .put key value ttlMs ∧ name ∈ cluster.replicas key ∧
          cluster.counterOp? name request = some .next) ∨
      ∃ key value version ttlMs sourceNodeId,
        request = .replicate key value version ttlMs sourceNodeId ∧
          cluster.counterOp? name request = some (.raise version.toNat) := by
  cases request with
  | put key value ttlMs =>
      by_cases isReplica : name ∈ cluster.replicas key
      · exact Or.inr (Or.inl
          ⟨key, value, ttlMs, rfl, isReplica, if_pos isReplica⟩)
      · exact Or.inl (if_neg isReplica)
  | replicate key value version ttlMs sourceNodeId =>
      exact Or.inr (Or.inr
        ⟨key, value, version, ttlMs, sourceNodeId, rfl, rfl⟩)
  | get key => exact Or.inl rfl
  | delete key => exact Or.inl rfl
  | scan keyPrefix limit => exact Or.inl rfl
  | heartbeat nodeId timestampMs => exact Or.inl rfl

theorem toNat_add_one {counter : UInt64}
    (inRange : counter.toNat + 1 < 2 ^ 64) :
    (counter + 1).toNat = counter.toNat + 1 := by
  rw [UInt64.toNat_add]
  simp only [UInt64.reduceToNat]
  omega

/-- As long as the counter in natural numbers stays in range, the machine counter
agrees with it and is above the stored versions. -/
theorem versionCounter_handleAll (arrivals : List Arrival) :
    CounterOp.countFrom 0 (cluster.counterOps name arrivals) < 2 ^ 64 →
      (cluster.handleAll name arrivals).storage.versionCounter.toNat =
          CounterOp.countFrom 0 (cluster.counterOps name arrivals) ∧
        (cluster.handleAll name arrivals).storage.Coherent := by
  induction arrivals using List.reverseRecOn with
  | nil => exact fun _ => ⟨rfl, StorageEngine.coherent_new⟩
  | append_singleton earlier last inductionHypothesis =>
      intro inRange
      rw [counterOps_append, CounterOp.countFrom_append] at inRange ⊢
      rw [handleAll_append_singleton]
      obtain ⟨agrees, coherent⟩ :=
        inductionHypothesis
          (Nat.lt_of_le_of_lt (CounterOp.le_countFrom _ _) inRange)
      have coherentArrived :
          (arrived (cluster.handleAll name earlier) last).storage.Coherent :=
        coherent
      rcases counterOp?_cases cluster name last.request with
        noOp | ⟨key, value, ttlMs, isPut, isReplica, isNext⟩ |
          ⟨key, value, version, ttlMs, sourceNodeId, isReplicate, isRaise⟩
      · obtain ⟨sameCounter, fewer⟩ :=
          handle_other (cluster.handleAll name earlier) noOp
        have ops : cluster.counterOps name [last] = [] := by
          simp [counterOps, noOp]
        rw [ops, sameCounter]
        exact ⟨agrees, coherent.of_fewer fewer
          (UInt64.le_of_eq sameCounter.symm)⟩
      · have ops : cluster.counterOps name [last] = [.next] := by
          simp [counterOps, isNext]
        rw [ops] at inRange ⊢
        simp only [CounterOp.countFrom, List.foldl_cons, List.foldl_nil,
          CounterOp.apply] at inRange agrees ⊢
        have hasNext :
            (arrived (cluster.handleAll name earlier)
              last).storage.HasNextVersion := by
          show (cluster.handleAll name earlier).storage.versionCounter.toNat +
            1 < 2 ^ 64
          rw [agrees]
          exact inRange
        rw [handle_put isPut isReplica]
        refine ⟨?_, coherentArrived.put hasNext _ _ _ _⟩
        rw [← agrees]
        exact toNat_add_one hasNext
      · have ops :
            cluster.counterOps name [last] = [.raise version.toNat] := by
          simp [counterOps, isRaise]
        rw [ops]
        simp only [CounterOp.countFrom, List.foldl_cons, List.foldl_nil,
          CounterOp.apply] at agrees ⊢
        rw [handle_replicate isReplicate]
        refine ⟨?_, coherentArrived.putWithVersion _ _ _ _ _⟩
        rw [← agrees, ← StorageEngine.toNat_raisedCounter]
        exact congrArg UInt64.toNat
          (StorageEngine.versionCounter_putWithVersion _ _ _ _ _ _)

/-- The sequence of requests keeps the counter in range: what the local puts add
to zero, and to every version that a `Replicate` carries, stays below
`2 ^ 64`. -/
def VersionsFit (cluster : Cluster) (name : String)
    (arrivals : List Arrival) : Prop :=
  CounterOp.Fits 0 (2 ^ 64) (cluster.counterOps name arrivals)

theorem versionsFit_iff {arrivals : List Arrival} :
    VersionsFit cluster name arrivals ↔
      CounterOp.countFrom 0 (cluster.counterOps name arrivals) < 2 ^ 64 :=
  (CounterOp.countFrom_lt_iff _ _ _).symm

theorem VersionsFit.of_append {early late : List Arrival}
    (fits : VersionsFit cluster name (early ++ late)) :
    VersionsFit cluster name early := by
  rw [versionsFit_iff] at fits ⊢
  rw [counterOps_append, CounterOp.countFrom_append] at fits
  exact Nat.lt_of_le_of_lt (CounterOp.le_countFrom _ _) fits

/-- The versions stored on the way are below the counter. -/
theorem toNat_version_le {early late : List Arrival}
    (fits : VersionsFit cluster name (early ++ late)) {key : String}
    {entry : ValueEntry}
    (found : (cluster.handleAll name early).storage.lookup key = some entry) :
    entry.version.toNat ≤
      (cluster.handleAll name
        (early ++ late)).storage.versionCounter.toNat := by
  obtain ⟨agreesEarly, coherent⟩ :=
    versionCounter_handleAll early (versionsFit_iff.mp fits.of_append)
  obtain ⟨agrees, _⟩ :=
    versionCounter_handleAll (early ++ late) (versionsFit_iff.mp fits)
  have bounded := UInt64.le_iff_toNat_le.mp (coherent key entry found)
  rw [counterOps_append, CounterOp.countFrom_append] at agrees
  have grows :=
    CounterOp.le_countFrom (cluster.counterOps name late)
      (CounterOp.countFrom 0 (cluster.counterOps name early))
  omega

theorem drawsAbove_of_versionsFit {arrivals : List Arrival}
    (fits : VersionsFit cluster name arrivals) :
    cluster.DrawsAbove name arrivals := by
  intro before arrival after key value ttlMs split isPut isReplica
  have through : VersionsFit cluster name (before ++ [arrival]) := by
    rw [split, List.append_cons] at fits
    exact fits.of_append
  have fitsBefore := through.of_append
  obtain ⟨agrees, _⟩ :=
    versionCounter_handleAll before (versionsFit_iff.mp fitsBefore)
  have ops : cluster.counterOps name [arrival] = [.next] := by
    simp [counterOps, counterOp?, isPut, isReplica]
  rw [versionsFit_iff, counterOps_append, CounterOp.countFrom_append, ops,
    ← agrees] at through
  have drawn :
      ((cluster.handleAll name before).storage.versionCounter + 1).toNat =
        (cluster.handleAll name before).storage.versionCounter.toNat + 1 :=
    toNat_add_one through
  refine ⟨drawn, ?_⟩
  intro early late parts other entry found
  rw [parts] at fitsBefore
  have bounded := toNat_version_le fitsBefore found
  rw [← parts] at bounded
  apply UInt64.lt_iff_toNat_lt.mpr
  show entry.version.toNat <
    ((cluster.handleAll name before).storage.versionCounter + 1).toNat
  omega

theorem versionsFit_of_drawsAbove (arrivals : List Arrival) :
    cluster.DrawsAbove name arrivals →
      VersionsFit cluster name arrivals := by
  induction arrivals using List.reverseRecOn with
  | nil =>
      intro _
      exact versionsFit_iff.mpr (Nat.two_pow_pos 64)
  | append_singleton earlier last inductionHypothesis =>
      intro draws
      have drawsEarlier : cluster.DrawsAbove name earlier := by
        intro before arrival after key value ttlMs split
        exact draws before arrival (after ++ [last]) key value ttlMs
          (by rw [split, List.append_assoc, List.cons_append])
      have fits := versionsFit_iff.mp (inductionHypothesis drawsEarlier)
      obtain ⟨agrees, _⟩ := versionCounter_handleAll earlier fits
      rw [versionsFit_iff, counterOps_append, CounterOp.countFrom_append]
      rcases counterOp?_cases cluster name last.request with
        noOp | ⟨key, value, ttlMs, isPut, isReplica, isNext⟩ |
          ⟨key, value, version, ttlMs, sourceNodeId, _, isRaise⟩
      · have ops : cluster.counterOps name [last] = [] := by
          simp [counterOps, noOp]
        rw [ops]
        exact fits
      · have ops : cluster.counterOps name [last] = [.next] := by
          simp [counterOps, isNext]
        obtain ⟨drawn, _⟩ :=
          draws earlier last [] key value ttlMs rfl isPut isReplica
        have machine :=
          UInt64.toNat_lt
            ((cluster.handleAll name earlier).storage.versionCounter + 1)
        rw [ops, ← agrees]
        exact Nat.lt_of_le_of_lt (Nat.le_of_eq drawn.symm) machine
      · have ops :
            cluster.counterOps name [last] = [.raise version.toNat] := by
          simp [counterOps, isRaise]
        rw [ops]
        exact Nat.max_lt.mpr ⟨fits, UInt64.toNat_lt version⟩

/-- For every sequence of requests that a node handles, the local puts draw
versions without overflow and above all those stored before exactly when the
sequence keeps the counter in range. -/
theorem draws_above_iff (cluster : Cluster) (name : String)
    (arrivals : List Arrival) :
    cluster.DrawsAbove name arrivals ↔ VersionsFit cluster name arrivals :=
  ⟨versionsFit_of_drawsAbove arrivals, drawsAbove_of_versionsFit⟩

/-- A request that comes at once and gets no answer from outside. -/
def alone (request : Request) : Arrival :=
  { request := request, elapsed := 0, outside := fun _ _ => [] }

/-- A `Replicate` of the greatest version, then a `Put`: its version is zero. -/
theorem not_draws_above :
    ¬ ∀ (cluster : Cluster) (name : String) (arrivals : List Arrival),
      cluster.DrawsAbove name arrivals := by
  intro draws
  have drawn :=
    (draws (small ["node-1"]) "node-1"
      [alone (.replicate "a" [1] 18446744073709551615 none 2),
        alone (.put "b" [2] none)]
      [alone (.replicate "a" [1] 18446744073709551615 none 2)]
      (alone (.put "b" [2] none)) [] "b" [2] none rfl rfl (by decide)).1
  revert drawn
  decide +kernel

end Cluster

end HautePerformance.KvDistributed
