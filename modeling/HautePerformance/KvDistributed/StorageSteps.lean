import HautePerformance.Library.ThreadPool
import HautePerformance.KvDistributed.Storage

/-!
# The storage engine under threads

The operations of `storage.rs` cut at their atomic steps: every operation on a
counter, on the version counter and on the map is one step, and so is every
reading of the clock.  Purging iterates in one step and removes key by key.

Run without interference, each operation is the sequential one.
-/

namespace HautePerformance.KvDistributed

open Library

/-- The calls that a thread makes on a shared `StorageEngine`. -/
inductive StorageCall where
  | get (key : String)
  | put (key : String) (data : Bytes) (ttl : Option Nat)
  | putWithVersion (key : String) (data : Bytes) (version : UInt64)
      (ttl : Option Nat)
  | delete (key : String)
  | scan (keyPrefix : String) (limit : Nat)
  | len
  | purgeExpired
  deriving DecidableEq

namespace StorageCall

abbrev Result : StorageCall → Type
  | .get _ => Option ValueEntry
  | .put _ _ _ => UInt64
  | .putWithVersion _ _ _ _ => Bool
  | .delete _ => Bool
  | .scan _ _ => List (String × ValueEntry)
  | .len => Nat
  | .purgeExpired => Nat

/-- The sequential operation. -/
def perform (node : NodeState) :
    (call : StorageCall) → NodeState × call.Result
  | .get key =>
      let (entry, storage) := node.storage.get key node.now
      ({ node with storage := storage }, entry)
  | .put key data ttl =>
      let (version, storage) := node.storage.put key data ttl node.now
      ({ node with storage := storage }, version)
  | .putWithVersion key data version ttl =>
      let (applied, storage) :=
        node.storage.putWithVersion key data version ttl node.now
      ({ node with storage := storage }, applied)
  | .delete key =>
      let (existed, storage) := node.storage.delete key
      ({ node with storage := storage }, existed)
  | .scan keyPrefix limit =>
      (node, node.storage.scan keyPrefix limit node.now)
  | .len => (node, node.storage.len)
  | .purgeExpired =>
      let (count, storage) := node.storage.purgeExpired node.now
      ({ node with storage := storage }, count)

/-- Where a thread stands in a call, with the local variables it has set. -/
inductive Position : StorageCall → Type where
  | getCount {key} : Position (.get key)
  | getRead {key} : Position (.get key)
  | getCheck {key} (entry : ValueEntry) : Position (.get key)
  | getRemove {key} : Position (.get key)
  | getCountExpired {key} : Position (.get key)
  | getCountMiss {key} : Position (.get key)
  | getCountHit {key} (entry : ValueEntry) : Position (.get key)
  | putCount {key data ttl} : Position (.put key data ttl)
  | putFetchAdd {key data ttl} : Position (.put key data ttl)
  | putNow {key data ttl} (version : UInt64) : Position (.put key data ttl)
  | putInsert {key data ttl} (version : UInt64) (createdAt : Nat) :
      Position (.put key data ttl)
  | versionLoad {key data version ttl} :
      Position (.putWithVersion key data version ttl)
  | versionRaise {key data version ttl} (cur : UInt64) :
      Position (.putWithVersion key data version ttl)
  | versionCheck {key data version ttl} :
      Position (.putWithVersion key data version ttl)
  | versionNow {key data version ttl} :
      Position (.putWithVersion key data version ttl)
  | versionInsert {key data version ttl} (createdAt : Nat) :
      Position (.putWithVersion key data version ttl)
  | versionCount {key data version ttl} :
      Position (.putWithVersion key data version ttl)
  | deleteCount {key} : Position (.delete key)
  | deleteRemove {key} : Position (.delete key)
  | scanIterate {keyPrefix limit} : Position (.scan keyPrefix limit)
  | lenRead : Position .len
  | purgeIterate : Position .purgeExpired
  | purgeRemove (expiredKeys : List String) (count : Nat) :
      Position .purgeExpired

/-- The first position of a call. -/
def enter : (call : StorageCall) → Position call
  | .get _ => .getCount
  | .put _ _ _ => .putCount
  | .putWithVersion _ _ _ _ => .versionLoad
  | .delete _ => .deleteCount
  | .scan _ _ => .scanIterate
  | .len => .lenRead
  | .purgeExpired => .purgeIterate

end StorageCall

namespace NodeState

def withStats (node : NodeState) (count : StorageStats → StorageStats) :
    NodeState :=
  { node with
    storage := { node.storage with stats := count node.storage.stats } }

def withCounter (node : NodeState) (counter : UInt64) : NodeState :=
  { node with storage := { node.storage with versionCounter := counter } }

def insert (node : NodeState) (key : String) (entry : ValueEntry) :
    NodeState :=
  { node with
    storage :=
      { node.storage with store := node.storage.store.insert key entry } }

def remove (node : NodeState) (key : String) : NodeState :=
  { node with
    storage := { node.storage with store := node.storage.store.erase key } }

variable (node : NodeState) {key other : String} (entry : ValueEntry)

@[simp]
theorem lookup_withStats (count : StorageStats → StorageStats) :
    (node.withStats count).storage.lookup key = node.storage.lookup key :=
  rfl

@[simp]
theorem now_withStats (count : StorageStats → StorageStats) :
    (node.withStats count).now = node.now :=
  rfl

@[simp]
theorem lookup_withCounter (counter : UInt64) :
    (node.withCounter counter).storage.lookup key = node.storage.lookup key :=
  rfl

@[simp]
theorem lookup_insert_self :
    (node.insert key entry).storage.lookup key = some entry := by
  simp [insert, StorageEngine.lookup]

theorem lookup_insert_ne (different : other ≠ key) :
    (node.insert key entry).storage.lookup other =
      node.storage.lookup other := by
  simp [insert, StorageEngine.lookup, AList.lookup_insert_ne different]

@[simp]
theorem lookup_remove_self : (node.remove key).storage.lookup key = none := by
  simp [remove, StorageEngine.lookup]

theorem lookup_remove_ne (different : other ≠ key) :
    (node.remove key).storage.lookup other = node.storage.lookup other := by
  simp [remove, StorageEngine.lookup, AList.lookup_erase_ne different]

end NodeState

namespace StorageCall

/-- One atomic step of a call.  `scan` and `purge_expired` go over the whole map in
one step, where DashMap locks one shard after the other. -/
def step {call : StorageCall} (node : NodeState) (position : Position call) :
    NodeState × Next (Position call) call.Result :=
  match call, position with
  | _, .getCount => (node.withStats .countGet, .goOn .getRead)
  | .get key, .getRead =>
      match node.storage.lookup key with
      | some entry => (node, .goOn (.getCheck entry))
      | none => (node, .goOn .getCountMiss)
  | _, .getCheck entry =>
      if entry.isExpired node.now then
        (node, .goOn .getRemove)
      else
        (node, .goOn (.getCountHit entry))
  | .get key, .getRemove => (node.remove key, .goOn .getCountExpired)
  | _, .getCountExpired =>
      (node.withStats (·.countExpired 1), .goOn .getCountMiss)
  | _, .getCountMiss => (node.withStats .countMiss, .finish none)
  | _, .getCountHit entry => (node.withStats .countHit, .finish (some entry))
  | _, .putCount => (node.withStats .countPut, .goOn .putFetchAdd)
  | _, .putFetchAdd =>
      (node.withCounter (node.storage.versionCounter + 1),
        .goOn (.putNow (node.storage.versionCounter + 1)))
  | _, .putNow version => (node, .goOn (.putInsert version node.now))
  | .put key data ttl, .putInsert version createdAt =>
      (node.insert key
          { data := data, version := version, createdAt := createdAt, ttl := ttl },
        .finish version)
  | _, .versionLoad =>
      (node, .goOn (.versionRaise node.storage.versionCounter))
  | .putWithVersion _ _ version _, .versionRaise cur =>
      if cur < version then
        -- `compare_exchange`: on failure the loop goes on with the value seen.
        if node.storage.versionCounter = cur then
          (node.withCounter version, .goOn .versionCheck)
        else
          (node, .goOn (.versionRaise node.storage.versionCounter))
      else
        (node, .goOn .versionCheck)
  | .putWithVersion key _ version _, .versionCheck =>
      match node.storage.lookup key with
      | some existing =>
          if version ≤ existing.version then
            (node, .finish false)
          else
            (node, .goOn .versionNow)
      | none => (node, .goOn .versionNow)
  | _, .versionNow => (node, .goOn (.versionInsert node.now))
  | .putWithVersion key data version ttl, .versionInsert createdAt =>
      (node.insert key
          { data := data, version := version, createdAt := createdAt, ttl := ttl },
        .goOn .versionCount)
  | _, .versionCount => (node.withStats .countPut, .finish true)
  | _, .deleteCount => (node.withStats .countDelete, .goOn .deleteRemove)
  | .delete key, .deleteRemove =>
      (node.remove key, .finish (node.storage.lookup key).isSome)
  | .scan keyPrefix limit, .scanIterate =>
      (node, .finish (node.storage.scan keyPrefix limit node.now))
  | _, .lenRead => (node, .finish node.storage.len)
  | _, .purgeIterate =>
      let keys := node.storage.expiredKeys node.now
      (node, .goOn (.purgeRemove keys keys.length))
  | _, .purgeRemove [] count =>
      (node.withStats (·.countExpired (UInt64.ofNat count)), .finish count)
  | _, .purgeRemove (key :: rest) count =>
      (node.remove key, .goOn (.purgeRemove rest count))

/-! ## What a step does to the map and to the version counter -/

/-- The entry that the step from a position inserts. -/
def insertion? {call : StorageCall} (position : Position call) :
    Option (String × ValueEntry) :=
  match call, position with
  | .put key data ttl, .putInsert version createdAt =>
      some (key,
        { data := data, version := version, createdAt := createdAt, ttl := ttl })
  | .putWithVersion key data version ttl, .versionInsert createdAt =>
      some (key,
        { data := data, version := version, createdAt := createdAt, ttl := ttl })
  | _, _ => none

/-- The key that the step from a position removes. -/
def removal? {call : StorageCall} (position : Position call) :
    Option String :=
  match call, position with
  | .get key, .getRemove => some key
  | .delete key, .deleteRemove => some key
  | .purgeExpired, .purgeRemove (key :: _) _ => some key
  | _, _ => none

/-- The step from this position draws a version. -/
def draws {call : StorageCall} (position : Position call) : Bool :=
  match call, position with
  | .put _ _ _, .putFetchAdd => true
  | _, _ => false

/-- A step either leaves the map and the counter as they are, or does one of
four things to them. -/
inductive Touches {call : StorageCall} (node : NodeState)
    (position : Position call) (after : NodeState) : Prop
  | nothing :
      after.storage.store = node.storage.store →
      after.storage.versionCounter = node.storage.versionCounter →
      Touches node position after
  | draw :
      draws position = true →
      after.storage.store = node.storage.store →
      after.storage.versionCounter = node.storage.versionCounter + 1 →
      Touches node position after
  | raise :
      after.storage.store = node.storage.store →
      node.storage.versionCounter < after.storage.versionCounter →
      Touches node position after
  | insert {key : String} {entry : ValueEntry} :
      insertion? position = some (key, entry) →
      after = node.insert key entry →
      Touches node position after
  | remove {key : String} :
      removal? position = some key →
      after = node.remove key →
      Touches node position after

theorem step_of_insertion {call : StorageCall} (node : NodeState)
    {position : Position call} {key : String} {entry : ValueEntry}
    (inserts : insertion? position = some (key, entry)) :
    (step node position).1 = node.insert key entry := by
  cases position with
  | putInsert _ _ =>
      cases inserts
      rfl
  | versionInsert _ =>
      cases inserts
      rfl
  | _ => cases inserts

/-- Time passes by the environment alone. -/
theorem now_step {call : StorageCall} (node : NodeState)
    (position : Position call) : (step node position).1.now = node.now := by
  cases position with
  | getRead =>
      simp only [step]
      split <;> rfl
  | getCheck entry =>
      simp only [step]
      split <;> rfl
  | versionRaise cur =>
      simp only [step]
      split
      · split <;> rfl
      · rfl
  | versionCheck =>
      simp only [step]
      split
      · split <;> rfl
      · rfl
  | purgeRemove keys count => cases keys <;> rfl
  | _ => rfl

theorem touches_step {call : StorageCall} (node : NodeState)
    (position : Position call) :
    Touches node position (step node position).1 := by
  cases position with
  | getRead =>
      simp only [step]
      split <;> exact Touches.nothing rfl rfl
  | getCheck entry =>
      simp only [step]
      split <;> exact Touches.nothing rfl rfl
  | getRemove => exact Touches.remove rfl rfl
  | putFetchAdd => exact Touches.draw rfl rfl rfl
  | putInsert version createdAt => exact Touches.insert rfl rfl
  | versionRaise cur =>
      simp only [step]
      split
      · rename_i below
        split
        · rename_i unchanged
          exact Touches.raise rfl (unchanged ▸ below)
        · exact Touches.nothing rfl rfl
      · exact Touches.nothing rfl rfl
  | versionCheck =>
      simp only [step]
      split
      · split <;> exact Touches.nothing rfl rfl
      · exact Touches.nothing rfl rfl
  | versionInsert createdAt => exact Touches.insert rfl rfl
  | deleteRemove => exact Touches.remove rfl rfl
  | purgeRemove keys count =>
      cases keys with
      | nil => exact Touches.nothing rfl rfl
      | cons key rest => exact Touches.remove rfl rfl
  | _ => exact Touches.nothing rfl rfl

end StorageCall

/-- The storage engine as an object.  The environment lets time pass. -/
def storageObject :
    ConcurrentObject NodeState Nat StorageCall.Position StorageCall.Result where
  enter := StorageCall.enter
  step := StorageCall.step
  environment elapsed node := { node with now := node.now + elapsed }

abbrev StoragePool :=
  Pool NodeState StorageCall.Position StorageCall.Result

abbrev StorageLabel :=
  PoolLabel StorageCall Nat

abbrev StorageActivity :=
  Activity StorageCall.Position

/-- Threads that share a new storage engine. -/
def storageSystem : System StoragePool StorageLabel :=
  storageObject.system fun node => node.storage = StorageEngine.new

/-- A move of the pool changes the storage as the step of one thread does, or
not at all. -/
theorem storage_cases {source target : StoragePool} {label : StorageLabel}
    (moves : storageObject.Moves source label target) :
    target.shared.storage = source.shared.storage ∨
      ∃ activity,
        source.mover? label = some activity ∧
          StorageCall.Touches source.shared activity.position
            target.shared := by
  rcases moves.shared_cases with
    same | ⟨thread, activity, rfl, running, stepped⟩ | ⟨elapsed, ticked⟩
  · exact Or.inl (by rw [same])
  · refine Or.inr ⟨activity, running, ?_⟩
    rw [stepped]
    exact StorageCall.touches_step source.shared activity.position
  · exact Or.inl (by
      rw [ticked]
      rfl)

/-- The entry that a move is about to insert. -/
def insertionAt? (pool : StoragePool) (label : StorageLabel) :
    Option (String × ValueEntry) :=
  (pool.mover? label).bind fun activity =>
    StorageCall.insertion? activity.position

theorem insertionAt?_eq_some {pool : StoragePool} {label : StorageLabel}
    {key : String} {entry : ValueEntry} :
    insertionAt? pool label = some (key, entry) ↔
      ∃ activity,
        pool.mover? label = some activity ∧
          StorageCall.insertion? activity.position = some (key, entry) := by
  simp [insertionAt?, Option.bind_eq_some_iff]

section

variable {source target : StoragePool} {label : StorageLabel}

/-- A move that inserts an entry does nothing else to the node. -/
theorem shared_of_insertionAt
    (moves : storageObject.Moves source label target) {key : String}
    {entry : ValueEntry}
    (inserting : insertionAt? source label = some (key, entry)) :
    target.shared = source.shared.insert key entry := by
  obtain ⟨activity, moving, inserts⟩ := insertionAt?_eq_some.mp inserting
  have stepped := StorageCall.step_of_insertion source.shared inserts
  cases moves with
  | call _ => cases moving
  | environment => cases moving
  | advance running advanced =>
      have same := running.symm.trans moving
      cases same
      exact (congrArg Prod.fst advanced).symm.trans stepped
  | finish running finished =>
      have same := running.symm.trans moving
      cases same
      exact (congrArg Prod.fst finished).symm.trans stepped

/-- The entry under a key is left alone by a move, inserted or removed. -/
theorem lookup_cases (moves : storageObject.Moves source label target)
    (key : String) :
    target.shared.storage.lookup key = source.shared.storage.lookup key ∨
      (∃ entry,
        insertionAt? source label = some (key, entry) ∧
          target.shared = source.shared.insert key entry ∧
          target.shared.storage.lookup key = some entry) ∨
      ∃ activity,
        source.mover? label = some activity ∧
          StorageCall.removal? activity.position = some key ∧
          target.shared.storage.lookup key = none := by
  rcases storage_cases moves with same | ⟨activity, moving, touches⟩
  · exact Or.inl (by rw [same])
  · have sameStore
        (store : target.shared.storage.store = source.shared.storage.store) :
        target.shared.storage.lookup key =
          source.shared.storage.lookup key := by
      rw [StorageEngine.lookup, StorageEngine.lookup, store]
    cases touches with
    | nothing store _ => exact Or.inl (sameStore store)
    | draw _ store _ => exact Or.inl (sameStore store)
    | raise store _ => exact Or.inl (sameStore store)
    | @insert inserted entry inserting after =>
        rw [after]
        by_cases same : key = inserted
        · subst same
          exact Or.inr (Or.inl
            ⟨entry, insertionAt?_eq_some.mpr ⟨activity, moving, inserting⟩,
              rfl, NodeState.lookup_insert_self source.shared entry⟩)
        · exact Or.inl (NodeState.lookup_insert_ne source.shared entry same)
    | @remove removed removing after =>
        rw [after]
        by_cases same : key = removed
        · subst same
          exact Or.inr (Or.inr
            ⟨activity, moving, removing,
              NodeState.lookup_remove_self source.shared⟩)
        · exact Or.inl (NodeState.lookup_remove_ne source.shared same)

/-- Time does not go back. -/
theorem now_le_of_moves (moves : storageObject.Moves source label target) :
    source.shared.now ≤ target.shared.now := by
  rcases moves.shared_cases with
    same | ⟨thread, activity, _, _, stepped⟩ | ⟨elapsed, ticked⟩
  · rw [same]
  · rw [stepped]
    exact Nat.le_of_eq
      (StorageCall.now_step source.shared activity.position).symm
  · rw [ticked]
    exact Nat.le_add_right source.shared.now elapsed

end

/-! ## Without interference -/

namespace StorageCall

/-- The removals of a purge, one after the other. -/
theorem runsAlone_purgeRemove (count : Nat) (keys : List String) :
    ∀ node : NodeState,
      storageObject.RunsAlone node (Position.purgeRemove keys count)
        ({ node with
            storage :=
              { node.storage with
                store :=
                  keys.foldl (fun store key => store.erase key)
                    node.storage.store
                stats :=
                  node.storage.stats.countExpired (UInt64.ofNat count) } },
          count) := by
  induction keys with
  | nil => exact fun node => .finish rfl
  | cons key rest inductionHypothesis =>
      exact fun node => .goOn rfl (inductionHypothesis (node.remove key))

/-- A `get` that runs alone. -/
theorem runsAlone_get (key : String) (node : NodeState) :
    storageObject.RunsAlone node (StorageCall.get key).enter
      ((StorageCall.get key).perform node) := by
  refine .goOn rfl ?_
  cases found : node.storage.lookup key with
  | none =>
      have miss :
          step (node.withStats .countGet)
              (.getRead : Position (.get key)) =
            (node.withStats .countGet, .goOn .getCountMiss) := by
        simp [step, found]
      have same :
          (StorageCall.get key).perform node =
            ((node.withStats .countGet).withStats .countMiss, none) := by
        simp [perform, StorageEngine.get, found, NodeState.withStats]
      rw [same]
      exact .goOn miss (.finish rfl)
  | some entry =>
      have hit :
          step (node.withStats .countGet)
              (.getRead : Position (.get key)) =
            (node.withStats .countGet, .goOn (.getCheck entry)) := by
        simp [step, found]
      refine .goOn hit ?_
      cases expired : entry.isExpired node.now with
      | true =>
          have remove :
              step (node.withStats .countGet)
                  (.getCheck entry : Position (.get key)) =
                (node.withStats .countGet, .goOn .getRemove) := by
            simp [step, expired]
          have same :
              (StorageCall.get key).perform node =
                ((((node.withStats .countGet).remove key).withStats
                  (·.countExpired 1)).withStats .countMiss, none) := by
            simp [perform, StorageEngine.get, found, expired,
              NodeState.withStats, NodeState.remove]
          rw [same]
          exact .goOn remove (.goOn rfl (.goOn rfl (.finish rfl)))
      | false =>
          have keep :
              step (node.withStats .countGet)
                  (.getCheck entry : Position (.get key)) =
                (node.withStats .countGet, .goOn (.getCountHit entry)) := by
            simp [step, expired]
          have same :
              (StorageCall.get key).perform node =
                ((node.withStats .countGet).withStats .countHit,
                  some entry) := by
            simp [perform, StorageEngine.get, found, expired,
              NodeState.withStats]
          rw [same]
          exact .goOn keep (.finish rfl)

/-- The loop on the version counter, run alone, raises it at most once. -/
theorem runsAlone_versionLoad {key : String} {data : Bytes}
    {version : UInt64} {ttl : Option Nat} {node : NodeState}
    {outcome : NodeState × Bool}
    (rest : storageObject.RunsAlone
      (node.withCounter
        (StorageEngine.raisedCounter node.storage.versionCounter version))
      (.versionCheck : Position (.putWithVersion key data version ttl))
      outcome) :
    storageObject.RunsAlone node
      (.versionLoad : Position (.putWithVersion key data version ttl))
      outcome := by
  refine .goOn rfl (.goOn ?_ rest)
  by_cases below : node.storage.versionCounter < version
  · simp [storageObject, step, StorageEngine.raisedCounter, below]
  · simp [storageObject, step, StorageEngine.raisedCounter, below,
      NodeState.withCounter]

/-- A `put_with_version` that runs alone. -/
theorem runsAlone_putWithVersion (key : String) (data : Bytes)
    (version : UInt64) (ttl : Option Nat) (node : NodeState) :
    storageObject.RunsAlone node
      (StorageCall.putWithVersion key data version ttl).enter
      ((StorageCall.putWithVersion key data version ttl).perform node) := by
  refine runsAlone_versionLoad ?_
  by_cases refused :
      ∃ existing,
        node.storage.lookup key = some existing ∧ version ≤ existing.version
  · obtain ⟨existing, found, notNewer⟩ := refused
    have same :
        (StorageCall.putWithVersion key data version ttl).perform node =
          (node.withCounter
            (StorageEngine.raisedCounter node.storage.versionCounter version),
            false) := by
      simp [perform, StorageEngine.putWithVersion, found, notNewer,
        NodeState.withCounter]
    rw [same]
    refine .finish ?_
    simp [storageObject, step, found, notNewer]
  · have accepted :
        step
            (node.withCounter
              (StorageEngine.raisedCounter node.storage.versionCounter
                version))
            (.versionCheck : Position (.putWithVersion key data version ttl)) =
          (node.withCounter
            (StorageEngine.raisedCounter node.storage.versionCounter version),
            .goOn .versionNow) := by
      simp only [step, NodeState.lookup_withCounter]
      split
      · rename_i existing found
        exact if_neg fun notNewer => refused ⟨existing, found, notNewer⟩
      · rfl
    have same :
        (StorageCall.putWithVersion key data version ttl).perform node =
          (((node.withCounter
            (StorageEngine.raisedCounter node.storage.versionCounter
              version)).insert key
            { data := data
              version := version
              createdAt := node.now
              ttl := ttl }).withStats .countPut,
            true) := by
      simp only [perform, StorageEngine.putWithVersion]
      split
      · rename_i existing found
        have newer : ¬ version ≤ existing.version :=
          fun notNewer => refused ⟨existing, found, notNewer⟩
        simp [newer, NodeState.withCounter, NodeState.insert,
          NodeState.withStats]
      · rfl
    rw [same]
    exact .goOn accepted (.goOn rfl (.goOn rfl (.finish rfl)))

/-- A call that runs alone is the sequential operation. -/
theorem runsAlone_enter (call : StorageCall) (node : NodeState) :
    storageObject.RunsAlone node call.enter (call.perform node) := by
  cases call with
  | get key => exact runsAlone_get key node
  | put key data ttl =>
      exact .goOn rfl (.goOn rfl (.goOn rfl (.finish rfl)))
  | putWithVersion key data version ttl =>
      exact runsAlone_putWithVersion key data version ttl node
  | delete key => exact .goOn rfl (.finish rfl)
  | scan keyPrefix limit => exact .finish rfl
  | len => exact .finish rfl
  | purgeExpired => exact .goOn rfl (runsAlone_purgeRemove _ _ node)

end StorageCall

end HautePerformance.KvDistributed
