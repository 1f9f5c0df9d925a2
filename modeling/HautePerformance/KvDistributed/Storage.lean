import Mathlib.Data.List.AList
import Mathlib.Data.List.Sort
import Mathlib.Data.String.Basic

/-!
# The local storage engine

Each operation of `storage.rs`, run without interference.  The map is an
association list with distinct keys: its order stands for the order in which
DashMap iterates, which the program does not control.  Instants and durations
are counted in nanoseconds.
-/

namespace HautePerformance.KvDistributed

abbrev Bytes := List UInt8

/-- `Duration::from_millis`. -/
def durationFromMillis (millis : UInt64) : Nat :=
  millis.toNat * 1000000

structure ValueEntry where
  data : Bytes
  version : UInt64
  createdAt : Nat
  ttl : Option Nat
  deriving DecidableEq, Repr

namespace ValueEntry

/-- `created_at.elapsed() > ttl`, strictly. -/
def isExpired (entry : ValueEntry) (now : Nat) : Bool :=
  match entry.ttl with
  | some ttl => decide (ttl < now - entry.createdAt)
  | none => false

@[simp]
theorem isExpired_of_no_ttl {entry : ValueEntry} (noTtl : entry.ttl = none)
    (now : Nat) : entry.isExpired now = false := by
  simp [isExpired, noTtl]

/-- An expired entry stays expired. -/
theorem isExpired_mono {entry : ValueEntry} {earlier later : Nat}
    (order : earlier ≤ later) (expired : entry.isExpired earlier = true) :
    entry.isExpired later = true := by
  unfold isExpired at expired ⊢
  split at expired
  · simp only [decide_eq_true_eq] at expired ⊢
    omega
  · cases expired

end ValueEntry

structure StorageStats where
  gets : UInt64 := 0
  puts : UInt64 := 0
  deletes : UInt64 := 0
  hits : UInt64 := 0
  misses : UInt64 := 0
  expired : UInt64 := 0
  deriving DecidableEq, Repr

namespace StorageStats

def countGet (stats : StorageStats) : StorageStats :=
  { stats with gets := stats.gets + 1 }

def countPut (stats : StorageStats) : StorageStats :=
  { stats with puts := stats.puts + 1 }

def countDelete (stats : StorageStats) : StorageStats :=
  { stats with deletes := stats.deletes + 1 }

def countHit (stats : StorageStats) : StorageStats :=
  { stats with hits := stats.hits + 1 }

def countMiss (stats : StorageStats) : StorageStats :=
  { stats with misses := stats.misses + 1 }

def countExpired (stats : StorageStats) (count : UInt64) : StorageStats :=
  { stats with expired := stats.expired + count }

end StorageStats

/-- The sharded map of the `dashmap` crate. -/
abbrev DashMap (Key Value : Type) := AList (fun _ : Key => Value)

structure StorageEngine where
  store : DashMap String ValueEntry
  versionCounter : UInt64
  stats : StorageStats

namespace StorageEngine

/-- `StorageEngine::new`. -/
def new : StorageEngine :=
  { store := ∅, versionCounter := 0, stats := {} }

/-- The entry under a key, expired or not. -/
def lookup (engine : StorageEngine) (key : String) : Option ValueEntry :=
  engine.store.lookup key

/-- `StorageEngine::get`: an expired entry is removed. -/
def get (engine : StorageEngine) (key : String) (now : Nat) :
    Option ValueEntry × StorageEngine :=
  let stats := engine.stats.countGet
  match engine.lookup key with
  | some entry =>
      if entry.isExpired now then
        (none,
          { engine with
            store := engine.store.erase key
            stats := (stats.countExpired 1).countMiss })
      else
        (some entry, { engine with stats := stats.countHit })
  | none => (none, { engine with stats := stats.countMiss })

/-- `StorageEngine::put`.  The counter wraps at `2 ^ 64`, and so does the
version computed from its previous value in a release build; a debug build panics
there. -/
def put (engine : StorageEngine) (key : String) (data : Bytes)
    (ttl : Option Nat) (now : Nat) : UInt64 × StorageEngine :=
  let version := engine.versionCounter + 1
  let entry : ValueEntry :=
    { data := data, version := version, createdAt := now, ttl := ttl }
  (version,
    { store := engine.store.insert key entry
      versionCounter := engine.versionCounter + 1
      stats := engine.stats.countPut })

/-- Outcome of the `compare_exchange` loop when nothing interferes. -/
def raisedCounter (counter version : UInt64) : UInt64 :=
  if counter < version then version else counter

/-- `StorageEngine::put_with_version`.  The counter is raised even when the
write is then refused. -/
def putWithVersion (engine : StorageEngine) (key : String) (data : Bytes)
    (version : UInt64) (ttl : Option Nat) (now : Nat) :
    Bool × StorageEngine :=
  let raised :=
    { engine with
      versionCounter := raisedCounter engine.versionCounter version }
  let entry : ValueEntry :=
    { data := data, version := version, createdAt := now, ttl := ttl }
  let applied :=
    { raised with
      store := engine.store.insert key entry
      stats := engine.stats.countPut }
  match engine.lookup key with
  | some existing =>
      if version ≤ existing.version then (false, raised) else (true, applied)
  | none => (true, applied)

/-- `StorageEngine::delete`. -/
def delete (engine : StorageEngine) (key : String) : Bool × StorageEngine :=
  ((engine.lookup key).isSome,
    { engine with
      store := engine.store.erase key
      stats := engine.stats.countDelete })

/-- `key.starts_with(prefix)` on UTF-8 text. -/
def startsWith (key keyPrefix : String) : Bool :=
  keyPrefix.toList.isPrefixOf key.toList

/-- The loop of `scan` over the entries in iteration order. -/
def scanLoop (keyPrefix : String) (limit : Nat) (now : Nat) :
    List (String × ValueEntry) → List (String × ValueEntry) →
      List (String × ValueEntry)
  | result, [] => result
  | result, (key, entry) :: rest =>
      if limit ≤ result.length then
        result
      else if startsWith key keyPrefix && !entry.isExpired now then
        scanLoop keyPrefix limit now (result ++ [(key, entry)]) rest
      else
        scanLoop keyPrefix limit now result rest

/-- The entries in iteration order. -/
def iter (engine : StorageEngine) : List (String × ValueEntry) :=
  engine.store.entries.map fun entry => (entry.1, entry.2)

/-- `StorageEngine::scan`: the limit is applied before the sort. -/
def scan (engine : StorageEngine) (keyPrefix : String) (limit : Nat)
    (now : Nat) : List (String × ValueEntry) :=
  (scanLoop keyPrefix limit now [] engine.iter).insertionSort
    (fun left right => left.1 ≤ right.1)

/-- `StorageEngine::len`. -/
def len (engine : StorageEngine) : Nat :=
  engine.store.keys.length

/-- The keys that `purge_expired` collects in its first pass. -/
def expiredKeys (engine : StorageEngine) (now : Nat) : List String :=
  (engine.iter.filter fun entry => entry.2.isExpired now).map Prod.fst

/-- `StorageEngine::purge_expired`. -/
def purgeExpired (engine : StorageEngine) (now : Nat) :
    Nat × StorageEngine :=
  let keys := engine.expiredKeys now
  (keys.length,
    { engine with
      store := keys.foldl (fun store key => store.erase key) engine.store
      stats := engine.stats.countExpired (UInt64.ofNat keys.length) })

/-! ## What an operation does to the entries -/

@[simp]
theorem lookup_new (key : String) : new.lookup key = none :=
  rfl

theorem lookup_put_self (engine : StorageEngine) (key : String) (data : Bytes)
    (ttl : Option Nat) (now : Nat) :
    (engine.put key data ttl now).2.lookup key =
      some
        { data := data
          version := engine.versionCounter + 1
          createdAt := now
          ttl := ttl } := by
  simp [put, lookup]

theorem lookup_put_ne (engine : StorageEngine) {key other : String}
    (different : other ≠ key) (data : Bytes) (ttl : Option Nat)
    (now : Nat) :
    (engine.put key data ttl now).2.lookup other = engine.lookup other := by
  simp [put, lookup, AList.lookup_insert_ne different]

theorem lookup_putWithVersion_ne (engine : StorageEngine)
    {key other : String} (different : other ≠ key) (data : Bytes)
    (version : UInt64) (ttl : Option Nat) (now : Nat) :
    (engine.putWithVersion key data version ttl now).2.lookup other =
      engine.lookup other := by
  unfold putWithVersion
  split
  · split
    · rfl
    · simp [lookup, AList.lookup_insert_ne different]
  · simp [lookup, AList.lookup_insert_ne different]

/-- The entry under the key after `put_with_version`: the existing one when its
version is not below the received one, the received one otherwise. -/
theorem lookup_putWithVersion_self (engine : StorageEngine) (key : String)
    (data : Bytes) (version : UInt64) (ttl : Option Nat)
    (now : Nat) :
    (∃ existing,
      engine.lookup key = some existing ∧
        version ≤ existing.version ∧
        (engine.putWithVersion key data version ttl now).2.lookup key =
          some existing) ∨
      ((∀ existing, engine.lookup key = some existing →
          existing.version < version) ∧
        (engine.putWithVersion key data version ttl now).2.lookup key =
          some
            { data := data
              version := version
              createdAt := now
              ttl := ttl }) := by
  unfold putWithVersion
  split
  · rename_i existing found
    split
    · rename_i refused
      exact Or.inl ⟨existing, found, refused, found⟩
    · rename_i accepted
      refine Or.inr ⟨?_, by simp [lookup]⟩
      intro other same
      rw [found] at same
      cases same
      simpa using accepted
  · rename_i absent
    exact Or.inr ⟨by simp [absent], by simp [lookup]⟩

/-- `get` removes at most the key it reads. -/
theorem lookup_get_ne (engine : StorageEngine) {key other : String}
    (different : other ≠ key) (now : Nat) :
    (engine.get key now).2.lookup other = engine.lookup other := by
  unfold get
  split
  · split
    · simp [lookup, AList.lookup_erase_ne different]
    · rfl
  · rfl

/-- After `get`, an entry that is still there was there before. -/
theorem lookup_of_lookup_get {engine : StorageEngine} {key other : String}
    {now : Nat} {entry : ValueEntry}
    (found : (engine.get key now).2.lookup other = some entry) :
    engine.lookup other = some entry := by
  by_cases same : other = key
  · subst same
    unfold get at found
    split at found
    · split at found
      · simp [lookup] at found
      · exact found
    · exact found
  · rwa [lookup_get_ne engine same] at found

/-- What `get` returns is stored under the key and not expired. -/
theorem get_eq_some {engine : StorageEngine} {key : String} {now : Nat}
    {entry : ValueEntry} (got : (engine.get key now).1 = some entry) :
    engine.lookup key = some entry ∧ entry.isExpired now = false := by
  unfold get at got
  split at got
  · rename_i stored found
    split at got
    · cases got
    · rename_i live
      cases got
      exact ⟨found, by simpa using live⟩
  · cases got

/-- A live entry is returned and kept. -/
theorem get_of_live {engine : StorageEngine} {key : String} {now : Nat}
    {entry : ValueEntry} (found : engine.lookup key = some entry)
    (live : entry.isExpired now = false) :
    (engine.get key now).1 = some entry ∧
      (engine.get key now).2.lookup key = some entry := by
  have kept : (engine.get key now).2.store = engine.store := by
    simp [get, found, live]
  refine ⟨by simp [get, found, live], ?_⟩
  rw [lookup, kept]
  exact found

/-- An expired entry is removed. -/
theorem lookup_get_of_expired {engine : StorageEngine} {key : String}
    {now : Nat} {entry : ValueEntry} (found : engine.lookup key = some entry)
    (expired : entry.isExpired now = true) :
    (engine.get key now).2.lookup key = none := by
  have erased :
      (engine.get key now).2.store = engine.store.erase key := by
    simp [get, found, expired]
  rw [lookup, erased, AList.lookup_erase]

theorem lookup_delete_self (engine : StorageEngine) (key : String) :
    (engine.delete key).2.lookup key = none := by
  simp [delete, lookup]

theorem lookup_delete_ne (engine : StorageEngine) {key other : String}
    (different : other ≠ key) :
    (engine.delete key).2.lookup other = engine.lookup other := by
  simp [delete, lookup, AList.lookup_erase_ne different]

theorem lookup_of_lookup_delete {engine : StorageEngine} {key other : String}
    {entry : ValueEntry}
    (found : (engine.delete key).2.lookup other = some entry) :
    engine.lookup other = some entry := by
  by_cases same : other = key
  · subst same
    rw [lookup_delete_self] at found
    cases found
  · rwa [lookup_delete_ne engine same] at found

theorem lookup_foldl_erase {keys : List String} :
    ∀ {store : DashMap String ValueEntry} {other : String}
      {entry : ValueEntry},
      (keys.foldl (fun store key => store.erase key) store).lookup other =
          some entry ↔
        store.lookup other = some entry ∧ other ∉ keys := by
  induction keys with
  | nil => simp
  | cons key rest inductionHypothesis =>
      intro store other entry
      rw [List.foldl_cons, inductionHypothesis]
      by_cases same : other = key
      · subst same
        simp
      · simp [AList.lookup_erase_ne same, same]

theorem mem_iter {engine : StorageEngine} {key : String}
    {entry : ValueEntry} :
    (key, entry) ∈ engine.iter ↔ engine.lookup key = some entry := by
  unfold iter lookup
  rw [← Option.mem_def, AList.mem_lookup_iff]
  constructor
  · intro member
    obtain ⟨⟨otherKey, otherEntry⟩, stored, shape⟩ := List.mem_map.mp member
    simp only [Prod.mk.injEq] at shape
    obtain ⟨rfl, rfl⟩ := shape
    exact stored
  · intro stored
    exact List.mem_map.mpr ⟨⟨key, entry⟩, stored, rfl⟩

theorem mem_expiredKeys {engine : StorageEngine} {key : String} {now : Nat} :
    key ∈ engine.expiredKeys now ↔
      ∃ entry,
        engine.lookup key = some entry ∧ entry.isExpired now = true := by
  simp only [expiredKeys, List.mem_map, List.mem_filter]
  constructor
  · intro given
    obtain ⟨⟨otherKey, entry⟩, ⟨member, expired⟩, rfl⟩ := given
    exact ⟨entry, mem_iter.mp member, expired⟩
  · intro given
    obtain ⟨entry, found, expired⟩ := given
    exact ⟨(key, entry), ⟨mem_iter.mpr found, expired⟩, rfl⟩

/-- The purge removes exactly the expired entries. -/
theorem lookup_purgeExpired {engine : StorageEngine} {key : String}
    {now : Nat} {entry : ValueEntry} :
    (engine.purgeExpired now).2.lookup key = some entry ↔
      engine.lookup key = some entry ∧ entry.isExpired now = false := by
  simp only [purgeExpired, lookup]
  rw [lookup_foldl_erase, mem_expiredKeys]
  constructor
  · intro given
    obtain ⟨found, notExpired⟩ := given
    refine ⟨found, ?_⟩
    by_contra expired
    exact notExpired ⟨entry, found, by simpa using expired⟩
  · intro given
    obtain ⟨found, live⟩ := given
    refine ⟨found, ?_⟩
    intro given
    obtain ⟨other, otherFound, expired⟩ := given
    rw [lookup, found] at otherFound
    cases otherFound
    rw [live] at expired
    cases expired

/-! ## What a scan selects -/

/-- `scan` selects the entry. -/
def selects (keyPrefix : String) (now : Nat) (entry : String × ValueEntry) :
    Bool :=
  startsWith entry.1 keyPrefix && !entry.2.isExpired now

/-- The loop of `scan` collects the first live entries with the prefix. -/
theorem scanLoop_eq (keyPrefix : String) (limit now : Nat) :
    ∀ (entries result : List (String × ValueEntry)),
      scanLoop keyPrefix limit now result entries =
        result ++
          (entries.filter (selects keyPrefix now)).take
            (limit - result.length)
  | [], result => by
      simp [scanLoop]
  | (key, entry) :: rest, result => by
      simp only [scanLoop]
      split
      · rename_i full
        have noneLeft : limit - result.length = 0 := Nat.sub_eq_zero_of_le full
        rw [noneLeft, List.take_zero, List.append_nil]
      · rename_i notFull
        split
        · rename_i matching
          have oneMore : limit - result.length =
              limit - (result ++ [(key, entry)]).length + 1 := by
            rw [List.length_append, List.length_singleton]
            omega
          have selected : selects keyPrefix now (key, entry) = true := matching
          rw [scanLoop_eq keyPrefix limit now rest,
            List.filter_cons_of_pos selected, oneMore, List.take_succ_cons,
            List.append_assoc, List.singleton_append]
        · rename_i notMatching
          have notSelected : ¬ selects keyPrefix now (key, entry) = true :=
            notMatching
          rw [scanLoop_eq keyPrefix limit now rest,
            List.filter_cons_of_neg notSelected]

/-! ## Versions -/

/-- The counter has reached the version of every stored entry. -/
def Coherent (engine : StorageEngine) : Prop :=
  ∀ key entry,
    engine.lookup key = some entry → entry.version ≤ engine.versionCounter

/-- The next version exists: `fetch_add` and the addition after it do not
wrap. -/
def HasNextVersion (engine : StorageEngine) : Prop :=
  engine.versionCounter.toNat + 1 < 2 ^ 64

instance (engine : StorageEngine) : Decidable engine.HasNextVersion :=
  inferInstanceAs (Decidable (_ < _))

theorem lt_add_one_of_hasNextVersion {engine : StorageEngine}
    (hasNext : engine.HasNextVersion) :
    engine.versionCounter < engine.versionCounter + 1 := by
  unfold HasNextVersion at hasNext
  rw [UInt64.lt_iff_toNat_lt, UInt64.toNat_add]
  simp only [UInt64.reduceToNat]
  omega

theorem le_raisedCounter_left (counter version : UInt64) :
    counter ≤ raisedCounter counter version := by
  unfold raisedCounter
  split
  · rename_i below
    exact UInt64.le_of_lt below
  · exact UInt64.le_refl _

theorem le_raisedCounter_right (counter version : UInt64) :
    version ≤ raisedCounter counter version := by
  unfold raisedCounter
  split
  · exact UInt64.le_refl _
  · rename_i notBelow
    exact UInt64.not_lt.mp notBelow

theorem toNat_raisedCounter (counter version : UInt64) :
    (raisedCounter counter version).toNat =
      max counter.toNat version.toNat := by
  unfold raisedCounter
  split
  · rename_i below
    have less := UInt64.lt_iff_toNat_lt.mp below
    omega
  · rename_i notBelow
    have notLess := UInt64.le_iff_toNat_le.mp (UInt64.not_lt.mp notBelow)
    omega

@[simp]
theorem versionCounter_putWithVersion (engine : StorageEngine) (key : String)
    (data : Bytes) (version : UInt64) (ttl : Option Nat) (now : Nat) :
    (engine.putWithVersion key data version ttl now).2.versionCounter =
      raisedCounter engine.versionCounter version := by
  unfold putWithVersion
  split
  · split <;> rfl
  · rfl

@[simp]
theorem versionCounter_get (engine : StorageEngine) (key : String)
    (now : Nat) :
    (engine.get key now).2.versionCounter = engine.versionCounter := by
  unfold get
  split
  · split <;> rfl
  · rfl

theorem coherent_new : new.Coherent := by
  intro key entry found
  simp at found

/-- Removing entries and raising the counter keep coherence. -/
theorem Coherent.of_fewer {engine fewer : StorageEngine}
    (coherent : engine.Coherent)
    (subset : ∀ key entry,
      fewer.lookup key = some entry → engine.lookup key = some entry)
    (notBelow : engine.versionCounter ≤ fewer.versionCounter) :
    fewer.Coherent := by
  intro key entry found
  have bounded := coherent key entry (subset key entry found)
  exact UInt64.le_trans bounded notBelow

theorem Coherent.get {engine : StorageEngine} (coherent : engine.Coherent)
    (key : String) (now : Nat) : (engine.get key now).2.Coherent :=
  coherent.of_fewer (fun _ _ found => lookup_of_lookup_get found) (by simp)

theorem Coherent.delete {engine : StorageEngine} (coherent : engine.Coherent)
    (key : String) : (engine.delete key).2.Coherent :=
  coherent.of_fewer (fun _ _ found => lookup_of_lookup_delete found)
    (UInt64.le_refl _)

theorem Coherent.purgeExpired {engine : StorageEngine}
    (coherent : engine.Coherent) (now : Nat) :
    (engine.purgeExpired now).2.Coherent :=
  coherent.of_fewer (fun _ _ found => (lookup_purgeExpired.mp found).1)
    (UInt64.le_refl _)

theorem Coherent.put {engine : StorageEngine} (coherent : engine.Coherent)
    (hasNext : engine.HasNextVersion) (key : String) (data : Bytes)
    (ttl : Option Nat) (now : Nat) :
    (engine.put key data ttl now).2.Coherent := by
  intro other entry found
  by_cases same : other = key
  · subst same
    rw [lookup_put_self] at found
    cases found
    exact UInt64.le_refl _
  · rw [lookup_put_ne engine same] at found
    exact UInt64.le_trans (coherent other entry found)
      (UInt64.le_of_lt (lt_add_one_of_hasNextVersion hasNext))

theorem Coherent.putWithVersion {engine : StorageEngine}
    (coherent : engine.Coherent) (key : String) (data : Bytes)
    (version : UInt64) (ttl : Option Nat) (now : Nat) :
    (engine.putWithVersion key data version ttl now).2.Coherent := by
  intro other entry found
  rw [versionCounter_putWithVersion]
  have kept (stored : engine.lookup other = some entry) :
      entry.version ≤ raisedCounter engine.versionCounter version :=
    UInt64.le_trans (coherent other entry stored)
      (le_raisedCounter_left engine.versionCounter version)
  by_cases same : other = key
  · subst same
    rcases lookup_putWithVersion_self engine other data version ttl now with
      ⟨existing, stored, _, after⟩ | ⟨_, after⟩
    · rw [found] at after
      cases after
      exact kept stored
    · rw [found] at after
      cases after
      exact le_raisedCounter_right engine.versionCounter version
  · rw [lookup_putWithVersion_ne engine same] at found
    exact kept found

end StorageEngine

/-- What a node owns: its storage engine and its clock. -/
structure NodeState where
  storage : StorageEngine
  now : Nat

end HautePerformance.KvDistributed
