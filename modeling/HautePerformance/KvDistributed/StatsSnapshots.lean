import HautePerformance.Library.PoolHistory
import HautePerformance.KvDistributed.StorageSteps

/-!
# Snapshots of the storage counters

`StorageStats::snapshot` loads the six counters one after the other while other
threads go on counting.  A `get` is counted before its outcome is, but `gets` is
also loaded before `hits` and `misses`, so that a snapshot may show the outcomes
of gets that it does not show.  It shows no others.

Two observers of one expired entry count it twice, whether they are readers or the
purge; the second removal then finds nothing.
-/

namespace HautePerformance.KvDistributed

open Library

structure StatsSnapshot where
  gets : UInt64
  puts : UInt64
  deletes : UInt64
  hits : UInt64
  misses : UInt64
  expired : UInt64
  deriving DecidableEq, Repr

/-- The calls on a shared engine, the reading of its counters included. -/
inductive MeteredCall where
  | storage (call : StorageCall)
  | snapshot
  deriving DecidableEq

namespace MeteredCall

abbrev Result : MeteredCall → Type
  | .storage call => call.Result
  | .snapshot => StatsSnapshot

/-- Where a thread stands; a snapshot has the counters loaded so far. -/
inductive Position : MeteredCall → Type where
  | storage {call} (position : StorageCall.Position call) :
      Position (.storage call)
  | loadGets : Position .snapshot
  | loadPuts (gets : UInt64) : Position .snapshot
  | loadDeletes (gets puts : UInt64) : Position .snapshot
  | loadHits (gets puts deletes : UInt64) : Position .snapshot
  | loadMisses (gets puts deletes hits : UInt64) : Position .snapshot
  | loadExpired (gets puts deletes hits misses : UInt64) : Position .snapshot

/-- The first position of a call. -/
def enter : (call : MeteredCall) → Position call
  | .storage call => .storage call.enter
  | .snapshot => .loadGets

def onward {call : StorageCall} :
    Next (StorageCall.Position call) call.Result →
      Next (Position (.storage call)) (Result (.storage call))
  | .goOn position => .goOn (.storage position)
  | .finish result => .finish result

/-- One atomic step of a call. -/
def step {call : MeteredCall} (node : NodeState) (position : Position call) :
    NodeState × Next (Position call) call.Result :=
  match call, position with
  | _, .storage position =>
      ((StorageCall.step node position).1,
        onward (StorageCall.step node position).2)
  | _, .loadGets => (node, .goOn (.loadPuts node.storage.stats.gets))
  | _, .loadPuts gets =>
      (node, .goOn (.loadDeletes gets node.storage.stats.puts))
  | _, .loadDeletes gets puts =>
      (node, .goOn (.loadHits gets puts node.storage.stats.deletes))
  | _, .loadHits gets puts deletes =>
      (node, .goOn (.loadMisses gets puts deletes node.storage.stats.hits))
  | _, .loadMisses gets puts deletes hits =>
      (node,
        .goOn (.loadExpired gets puts deletes hits node.storage.stats.misses))
  | _, .loadExpired gets puts deletes hits misses =>
      (node,
        .finish
          { gets := gets
            puts := puts
            deletes := deletes
            hits := hits
            misses := misses
            expired := node.storage.stats.expired })

end MeteredCall

/-- The storage engine with its snapshots. -/
def meteredObject :
    ConcurrentObject NodeState Nat MeteredCall.Position MeteredCall.Result where
  enter := MeteredCall.enter
  step := MeteredCall.step
  environment elapsed node := { node with now := node.now + elapsed }

abbrev MeteredPool :=
  Pool NodeState MeteredCall.Position MeteredCall.Result

abbrev MeteredActivity :=
  Activity MeteredCall.Position

abbrev MeteredLabel :=
  PoolLabel MeteredCall Nat

abbrev MeteredWorld :=
  World MeteredPool MeteredLabel

abbrev MeteredTrace :=
  PoolTrace NodeState Nat MeteredCall.Position MeteredCall.Result

/-- The snapshot that a call has returned. -/
def snapshot? : Returned MeteredCall.Result → Option StatsSnapshot
  | ⟨_, .snapshot, snapshot, _, _⟩ => some snapshot
  | _ => none

/-- Threads that share a new storage engine and read its counters. -/
def meteredSystem : System MeteredPool MeteredLabel :=
  meteredObject.system fun node => node.storage = StorageEngine.new

/-! ## Without interference -/

namespace MeteredCall

/-- A snapshot that runs alone shows the counters as they are. -/
theorem runsAlone_snapshot (node : NodeState) :
    meteredObject.RunsAlone node snapshot.enter
      (node,
        { gets := node.storage.stats.gets
          puts := node.storage.stats.puts
          deletes := node.storage.stats.deletes
          hits := node.storage.stats.hits
          misses := node.storage.stats.misses
          expired := node.storage.stats.expired }) :=
  .goOn rfl (.goOn rfl (.goOn rfl (.goOn rfl (.goOn rfl (.finish rfl)))))

theorem step_storage {call : StorageCall} (node : NodeState)
    (position : StorageCall.Position call) :
    meteredObject.step node (Position.storage position) =
      ((storageObject.step node position).1,
        onward (storageObject.step node position).2) :=
  rfl

/-- A storage call runs as it does without snapshots. -/
theorem runsAlone_storage {call : StorageCall} {node : NodeState}
    {position : StorageCall.Position call} {outcome : NodeState × call.Result}
    (alone : storageObject.RunsAlone node position outcome) :
    meteredObject.RunsAlone node (Position.storage position) outcome := by
  induction alone with
  | finish stepped =>
      refine .finish ?_
      rw [step_storage, stepped]
      rfl
  | goOn stepped _ inductionHypothesis =>
      refine .goOn ?_ inductionHypothesis
      rw [step_storage, stepped]
      rfl

end MeteredCall

/-! ## What is counted -/

/-- What a step counts: a call of `get`, its outcome, a stored entry, or the removal
of an expired entry, which takes the entry out or comes too late for it. -/
structure StepCounts where
  gets : Nat := 0
  hits : Nat := 0
  misses : Nat := 0
  inserted : Nat := 0
  taken : Nat := 0
  tooLate : Nat := 0

namespace StorageCall

/-- The removal of the expired entry under a key. -/
def expiration (node : NodeState) (key : String) : StepCounts :=
  if (node.storage.lookup key).isSome then { taken := 1 } else { tooLate := 1 }

def counts (node : NodeState) :
    (call : StorageCall) → Position call → StepCounts
  | _, .getCount => { gets := 1 }
  | _, .getCountHit _ => { hits := 1 }
  | _, .getCountMiss => { misses := 1 }
  | .get key, .getRemove => expiration node key
  | _, .putInsert _ _ => { inserted := 1 }
  | _, .versionInsert _ => { inserted := 1 }
  | .purgeExpired, .purgeRemove (key :: _) _ => expiration node key
  | _, _ => {}

/-- A `get` that is counted and whose outcome is not. -/
def awaitsOutcome : (call : StorageCall) → Position call → Nat
  | _, .getRead => 1
  | _, .getCheck _ => 1
  | _, .getRemove => 1
  | _, .getCountExpired => 1
  | _, .getCountMiss => 1
  | _, .getCountHit _ => 1
  | _, _ => 0

/-- The removals that the call has made and not yet counted as expired. -/
def owesExpired : (call : StorageCall) → Position call → Nat
  | _, .getCountExpired => 1
  | _, .purgeRemove keys count => count - keys.length
  | _, _ => 0

end StorageCall

/-- A step enters into the books what it does.  `awaiting` and `owing` are the
outcomes and the expirations that its call is still to count. -/
structure Balanced (node after : NodeState) (counts : StepCounts)
    (awaiting awaitingAfter owing owingAfter : Nat) : Prop where
  gets :
    after.storage.stats.gets =
      node.storage.stats.gets + UInt64.ofNat counts.gets
  hits :
    after.storage.stats.hits.toNat ≤
      node.storage.stats.hits.toNat + counts.hits
  misses :
    after.storage.stats.misses.toNat ≤
      node.storage.stats.misses.toNat + counts.misses
  outcomes :
    counts.hits + counts.misses + awaitingAfter = awaiting + counts.gets
  entries :
    after.storage.len + counts.taken ≤ node.storage.len + counts.inserted
  expired :
    after.storage.stats.expired.toNat + owingAfter ≤
      node.storage.stats.expired.toNat + owing + counts.taken +
        counts.tooLate

namespace NodeState

theorem len_insert_le (node : NodeState) (key : String) (entry : ValueEntry) :
    (node.insert key entry).storage.len ≤ node.storage.len + 1 := by
  simp only [insert, StorageEngine.len, AList.keys_insert, List.length_cons]
  exact Nat.succ_le_succ (List.length_erase_le)

/-- The removal of an expired entry, in the books. -/
theorem len_remove_le (node : NodeState) (key : String) :
    (node.remove key).storage.len + (StorageCall.expiration node key).taken ≤
      node.storage.len := by
  simp only [remove, StorageEngine.len, AList.keys_erase, List.length_erase,
    StorageCall.expiration, StorageEngine.lookup, AList.lookup_isSome,
    AList.mem_keys]
  split
  · rename_i isKey
    have some : 0 < node.storage.store.keys.length :=
      List.length_pos_of_mem isKey
    simp only
    omega
  · simp

end NodeState

namespace StorageCall

theorem taken_add_tooLate (node : NodeState) (key : String) :
    (expiration node key).taken + (expiration node key).tooLate = 1 := by
  unfold expiration
  split
  · rfl
  · rfl

/-- A step that leaves the four counters as they are and stores nothing. -/
theorem balanced_of_same (node after : NodeState)
    (gets : after.storage.stats.gets = node.storage.stats.gets)
    (hits : after.storage.stats.hits = node.storage.stats.hits)
    (misses : after.storage.stats.misses = node.storage.stats.misses)
    (expired : after.storage.stats.expired = node.storage.stats.expired)
    (entries : after.storage.len ≤ node.storage.len) (awaiting owing : Nat) :
    Balanced node after {} awaiting awaiting owing owing where
  gets := by simp [gets]
  hits := by simp [hits]
  misses := by simp [misses]
  outcomes := by simp
  entries := entries
  expired := by simp [expired]

/-- A step that does nothing to the node. -/
theorem balanced_refl (node : NodeState) (awaiting owing : Nat) :
    Balanced node node {} awaiting awaiting owing owing :=
  balanced_of_same node node rfl rfl rfl rfl (Nat.le_refl _) awaiting owing

/-- The removal of an expired entry, which is owed to the counter from then on. -/
theorem balanced_remove (node : NodeState) (key : String)
    {awaiting owing owingAfter : Nat} (owes : owingAfter ≤ owing + 1) :
    Balanced node (node.remove key) (expiration node key) awaiting awaiting
      owing owingAfter := by
  have one := taken_add_tooLate node key
  have nothing : (expiration node key).gets = 0 ∧
      (expiration node key).hits = 0 ∧ (expiration node key).misses = 0 := by
    unfold expiration
    split
    · exact ⟨rfl, rfl, rfl⟩
    · exact ⟨rfl, rfl, rfl⟩
  obtain ⟨noGet, noHit, noMiss⟩ := nothing
  refine
    { gets := by simp [noGet, NodeState.remove]
      hits := by simp [noHit, NodeState.remove]
      misses := by simp [noMiss, NodeState.remove]
      outcomes := by rw [noGet, noHit, noMiss]; omega
      entries := ?_
      expired := ?_ }
  · exact (NodeState.len_remove_le node key).trans (Nat.le_add_right _ _)
  · have same : (node.remove key).storage.stats = node.storage.stats := rfl
    rw [same]
    omega

/-- An entry is stored. -/
theorem balanced_insert (node : NodeState) (key : String) (entry : ValueEntry) :
    Balanced node (node.insert key entry) { inserted := 1 } 0 0 0 0 where
  gets := by simp [NodeState.insert]
  hits := by simp [NodeState.insert]
  misses := by simp [NodeState.insert]
  outcomes := rfl
  entries := NodeState.len_insert_le node key entry
  expired := by simp [NodeState.insert]

/-- A counter that wraps around is smaller than the sum. -/
theorem toNat_add_le (first second : UInt64) :
    (first + second).toNat ≤ first.toNat + second.toNat := by
  rw [UInt64.toNat_add]
  exact Nat.mod_le _ _

/-- Expirations are counted. -/
theorem balanced_countExpired (node : NodeState) (awaiting count : Nat) :
    Balanced node (node.withStats (·.countExpired (UInt64.ofNat count))) {}
      awaiting awaiting count 0 where
  gets := by simp [NodeState.withStats, StorageStats.countExpired]
  hits := Nat.le_refl _
  misses := Nat.le_refl _
  outcomes := by simp
  entries := Nat.le_refl _
  expired := by
    have sum := toNat_add_le node.storage.stats.expired (UInt64.ofNat count)
    have atMost : (UInt64.ofNat count).toNat ≤ count := by
      rw [UInt64.toNat_ofNat']
      exact Nat.mod_le _ _
    simp only [NodeState.withStats, StorageStats.countExpired]
    omega

/-- The step from the position enters into the books what it does. -/
def KeepsBooks (node : NodeState) {call : StorageCall}
    (position : Position call) : Prop :=
  Balanced node (step node position).1 (counts node call position)
    (awaitsOutcome call position)
    ((step node position).2.weigh (awaitsOutcome call))
    (owesExpired call position)
    ((step node position).2.weigh (owesExpired call))

theorem keepsBooks_getCountMiss (node : NodeState) (key : String) :
    KeepsBooks node (.getCountMiss : Position (.get key)) where
  gets := by simp [step, counts, NodeState.withStats, StorageStats.countMiss]
  hits := Nat.le_refl _
  misses := toNat_add_le _ 1
  outcomes := rfl
  entries := Nat.le_refl _
  expired := Nat.le_refl _

theorem keepsBooks_getCountHit (node : NodeState) (key : String)
    (entry : ValueEntry) :
    KeepsBooks node (.getCountHit entry : Position (.get key)) where
  gets := by simp [step, counts, NodeState.withStats, StorageStats.countHit]
  hits := toNat_add_le _ 1
  misses := Nat.le_refl _
  outcomes := rfl
  entries := Nat.le_refl _
  expired := Nat.le_refl _

theorem keepsBooks_get (node : NodeState) {key : String}
    (position : Position (.get key)) : KeepsBooks node position := by
  cases position with
  | getCount =>
      exact
        { gets := rfl
          hits := Nat.le_refl _
          misses := Nat.le_refl _
          outcomes := rfl
          entries := Nat.le_refl _
          expired := Nat.le_refl _ }
  | getRead =>
      simp only [KeepsBooks, step]
      split
      · exact balanced_refl node 1 0
      · exact balanced_refl node 1 0
  | getCheck entry =>
      simp only [KeepsBooks, step]
      split
      · exact balanced_refl node 1 0
      · exact balanced_refl node 1 0
  | getRemove => exact balanced_remove node key (Nat.le_refl 1)
  | getCountExpired => exact balanced_countExpired node 1 1
  | getCountMiss => exact keepsBooks_getCountMiss node key
  | getCountHit entry => exact keepsBooks_getCountHit node key entry

theorem keepsBooks_put (node : NodeState) {key : String} {data : Bytes}
    {ttl : Option Nat} (position : Position (.put key data ttl)) :
    KeepsBooks node position := by
  cases position with
  | putCount =>
      exact balanced_of_same node (node.withStats .countPut) rfl rfl rfl rfl
        (Nat.le_refl _) 0 0
  | putFetchAdd =>
      exact balanced_of_same node
        (node.withCounter (node.storage.versionCounter + 1)) rfl rfl rfl rfl
        (Nat.le_refl _) 0 0
  | putNow version => exact balanced_refl node 0 0
  | putInsert version createdAt => exact balanced_insert node _ _

/-- The loop that raises the counter stores nothing. -/
theorem keepsBooks_versionRaise (node : NodeState) {key : String} {data : Bytes}
    {version : UInt64} {ttl : Option Nat} (cur : UInt64) :
    KeepsBooks node
      (.versionRaise cur : Position (.putWithVersion key data version ttl)) := by
  simp only [KeepsBooks, step]
  split
  · split
    · exact balanced_of_same node (node.withCounter version) rfl rfl rfl rfl
        (Nat.le_refl _) 0 0
    · exact balanced_refl node 0 0
  · exact balanced_refl node 0 0

theorem keepsBooks_putWithVersion (node : NodeState) {key : String}
    {data : Bytes} {version : UInt64} {ttl : Option Nat}
    (position : Position (.putWithVersion key data version ttl)) :
    KeepsBooks node position := by
  cases position with
  | versionLoad => exact balanced_refl node 0 0
  | versionRaise cur => exact keepsBooks_versionRaise node cur
  | versionCheck =>
      simp only [KeepsBooks, step]
      split
      · split
        · exact balanced_refl node 0 0
        · exact balanced_refl node 0 0
      · exact balanced_refl node 0 0
  | versionNow => exact balanced_refl node 0 0
  | versionInsert createdAt => exact balanced_insert node _ _
  | versionCount =>
      exact balanced_of_same node (node.withStats .countPut) rfl rfl rfl rfl
        (Nat.le_refl _) 0 0

theorem keepsBooks_delete (node : NodeState) {key : String}
    (position : Position (.delete key)) : KeepsBooks node position := by
  cases position with
  | deleteCount =>
      exact balanced_of_same node (node.withStats .countDelete) rfl rfl rfl rfl
        (Nat.le_refl _) 0 0
  | deleteRemove =>
      have fewer := node.len_remove_le key
      exact balanced_of_same node (node.remove key) rfl rfl rfl rfl
        (by omega) 0 0

/-- The purge owes the removals that it has made until it counts them. -/
theorem keepsBooks_purge (node : NodeState)
    (position : Position .purgeExpired) : KeepsBooks node position := by
  cases position with
  | purgeIterate =>
      have nothing := balanced_refl node 0 0
      simpa [KeepsBooks, step, counts, awaitsOutcome, owesExpired, Next.weigh]
        using nothing
  | purgeRemove keys count =>
      cases keys with
      | nil => exact balanced_countExpired node 0 count
      | cons key rest =>
          refine balanced_remove node key ?_
          show count - rest.length ≤ count - (rest.length + 1) + 1
          omega

/-- Every step of a storage call keeps the books. -/
theorem balanced_step {call : StorageCall} (node : NodeState)
    (position : Position call) :
    Balanced node (step node position).1 (counts node call position)
      (awaitsOutcome call position)
      ((step node position).2.weigh (awaitsOutcome call))
      (owesExpired call position)
      ((step node position).2.weigh (owesExpired call)) := by
  cases call with
  | get key => exact keepsBooks_get node position
  | put key data ttl => exact keepsBooks_put node position
  | putWithVersion key data version ttl =>
      exact keepsBooks_putWithVersion node position
  | delete key => exact keepsBooks_delete node position
  | scan keyPrefix limit =>
      cases position with
      | scanIterate => exact balanced_refl node 0 0
  | len =>
      cases position with
      | lenRead => exact balanced_refl node 0 0
  | purgeExpired => exact keepsBooks_purge node position

end StorageCall

namespace MeteredCall

/-- What a step counts; a snapshot counts nothing. -/
def counts (node : NodeState) :
    (call : MeteredCall) → Position call → StepCounts
  | _, .storage position => StorageCall.counts node _ position
  | _, _ => {}

/-- A weight of the positions of the storage calls; a snapshot weighs nothing. -/
def onStorage (weight : (call : StorageCall) → StorageCall.Position call → Nat) :
    (call : MeteredCall) → Position call → Nat
  | _, .storage position => weight _ position
  | _, _ => 0

theorem weigh_onward
    (weight : (call : StorageCall) → StorageCall.Position call → Nat)
    {call : StorageCall} (next : Next (StorageCall.Position call) call.Result) :
    (onward next).weigh (onStorage weight (.storage call)) =
      next.weigh (weight call) := by
  cases next with
  | goOn position => rfl
  | finish result => rfl

/-- Every step keeps the books. -/
theorem balanced_step {call : MeteredCall} (node : NodeState)
    (position : Position call) :
    Balanced node (step node position).1 (counts node call position)
      (onStorage StorageCall.awaitsOutcome call position)
      ((step node position).2.weigh
        (onStorage StorageCall.awaitsOutcome call))
      (onStorage StorageCall.owesExpired call position)
      ((step node position).2.weigh
        (onStorage StorageCall.owesExpired call)) := by
  cases position with
  | storage position =>
      have books := StorageCall.balanced_step node position
      rw [← weigh_onward, ← weigh_onward] at books
      exact books
  | loadGets => exact StorageCall.balanced_refl node 0 0
  | loadPuts gets => exact StorageCall.balanced_refl node 0 0
  | loadDeletes gets puts => exact StorageCall.balanced_refl node 0 0
  | loadHits gets puts deletes => exact StorageCall.balanced_refl node 0 0
  | loadMisses gets puts deletes hits => exact StorageCall.balanced_refl node 0 0
  | loadExpired gets puts deletes hits misses =>
      exact StorageCall.balanced_refl node 0 0

/-- A call begins with nothing to account for. -/
theorem onStorage_enter
    {weight : (call : StorageCall) → StorageCall.Position call → Nat}
    (atFirst : ∀ call : StorageCall, weight call call.enter = 0)
    (call : MeteredCall) : onStorage weight call call.enter = 0 := by
  cases call with
  | storage call => exact atFirst call
  | snapshot => rfl

end MeteredCall

namespace StorageCall

theorem awaitsOutcome_enter (call : StorageCall) :
    awaitsOutcome call call.enter = 0 := by
  cases call <;> rfl

theorem owesExpired_enter (call : StorageCall) :
    owesExpired call call.enter = 0 := by
  cases call <;> rfl

end StorageCall

end HautePerformance.KvDistributed
