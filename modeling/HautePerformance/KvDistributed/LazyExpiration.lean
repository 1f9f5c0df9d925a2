import HautePerformance.Library.Lockstep
import HautePerformance.KvDistributed.StorageSteps

/-!
# Lazy expiration

The engine against a store that drops every entry the moment it expires.  An entry
that has expired but lingers is invisible to `get`, `put` and `scan`; `delete` and
`put_with_version` still see it.

Both iterate their entries in the order of the underlying list.
-/

namespace HautePerformance.KvDistributed

open Library.Lockstep

/-! ## What a caller observes -/

/-- The result of a call, as far as the two stores are compared on it: nothing is
compared for `len` and `purge_expired`. -/
inductive Observation where
  | entry (found : Option ValueEntry)
  | version (drawn : UInt64)
  | applied (accepted : Bool)
  | existed (removed : Bool)
  | items (listed : List (String × ValueEntry))
  | nothing
  deriving DecidableEq, Repr

namespace StorageCall

def observe : (call : StorageCall) → call.Result → Observation
  | .get _, found => .entry found
  | .put _ _ _, drawn => .version drawn
  | .putWithVersion _ _ _ _, accepted => .applied accepted
  | .delete _, removed => .existed removed
  | .scan _ _, listed => .items listed
  | .len, _ => .nothing
  | .purgeExpired, _ => .nothing

end StorageCall

/-- A call and the time that has passed since the previous one. -/
abbrev TimedCall := Nat × StorageCall

/-- The engine of a node serves a call. -/
def NodeState.serve (node : NodeState) (input : TimedCall) :
    Observation × NodeState :=
  let (served, result) :=
    input.2.perform { node with now := node.now + input.1 }
  (input.2.observe result, served)

/-- A node with an empty engine. -/
def NodeState.empty : NodeState :=
  { storage := StorageEngine.new, now := 0 }

/-! ## The reference -/

/-- A store that holds live entries only. -/
structure EagerStore where
  store : DashMap String ValueEntry
  versionCounter : UInt64
  now : Nat

namespace EagerStore

def empty : EagerStore :=
  { store := ∅, versionCounter := 0, now := 0 }

def isLive (now : Nat) (stored : Sigma fun _ : String => ValueEntry) : Bool :=
  !stored.2.isExpired now

/-- The entries that have not expired at an instant. -/
def liveAt (now : Nat) (store : DashMap String ValueEntry) :
    DashMap String ValueEntry where
  entries := store.entries.filter (isLive now)
  nodupKeys := store.nodupKeys.sublist List.filter_sublist

/-- Time passes, and what expires is dropped. -/
def elapse (self : EagerStore) (elapsed : Nat) : EagerStore :=
  { self with
    store := liveAt (self.now + elapsed) self.store
    now := self.now + elapsed }

/-- What is stored by a write. -/
def insert (self : EagerStore) (key : String) (data : Bytes)
    (version : UInt64) (ttl : Option Nat) : DashMap String ValueEntry :=
  self.store.insert key
    { data := data, version := version, createdAt := self.now, ttl := ttl }

/-- The operations, none of which looks at the time. -/
def answer (self : EagerStore) : StorageCall → Observation × EagerStore
  | .get key => (.entry (self.store.lookup key), self)
  | .put key data ttl =>
      let version := self.versionCounter + 1
      (.version version,
        { self with
          store := self.insert key data version ttl
          versionCounter := version })
  | .putWithVersion key data version ttl =>
      let counter := StorageEngine.raisedCounter self.versionCounter version
      let refused :=
        (self.store.lookup key).any fun existing =>
          decide (version ≤ existing.version)
      if refused then
        (.applied false, { self with versionCounter := counter })
      else
        (.applied true,
          { self with
            store := self.insert key data version ttl
            versionCounter := counter })
  | .delete key =>
      (.existed (self.store.lookup key).isSome,
        { self with store := self.store.erase key })
  | .scan keyPrefix limit =>
      let entries :=
        self.store.entries.map fun entry => (entry.1, entry.2)
      let matching :=
        entries.filter fun entry =>
          StorageEngine.startsWith entry.1 keyPrefix
      (.items
        ((matching.take limit).insertionSort
          (fun left right => left.1 ≤ right.1)), self)
  | .len => (.nothing, self)
  | .purgeExpired => (.nothing, self)

def serve (self : EagerStore) (input : TimedCall) :
    Observation × EagerStore :=
  (self.elapse input.1).answer input.2

end EagerStore

/-! ## Lingering entries -/

/-- The call is a deletion or a versioned write that meets an expired entry under its
key, which for the write is not of a lower version. -/
def StorageCall.meetsLingering (storage : StorageEngine) (now : Nat) :
    StorageCall → Bool
  | .delete key =>
      (storage.lookup key).any fun existing => existing.isExpired now
  | .putWithVersion key _ version _ =>
      (storage.lookup key).any fun existing =>
        existing.isExpired now && decide (version ≤ existing.version)
  | _ => false

/-- No lingering entry is in the way of the call. -/
def NoneLingers (node : NodeState) (input : TimedCall) : Prop :=
  input.2.meetsLingering node.storage (node.now + input.1) = false

/-! ## The live part of a map -/

namespace EagerStore

theorem filter_kerase {entries : List (Sigma fun _ : String => ValueEntry)}
    (nodup : entries.NodupKeys) (key : String)
    (keep : (Sigma fun _ : String => ValueEntry) → Bool) :
    (entries.kerase key).filter keep = (entries.filter keep).kerase key := by
  induction entries with
  | nil => rfl
  | cons head tail inductionHypothesis =>
      have tailNodup := List.nodupKeys_of_nodupKeys_cons nodup
      have headNew := List.notMem_keys_of_nodupKeys_cons nodup
      by_cases isHere : key = head.1
      · have absent : key ∉ (tail.filter keep).keys := by
          intro member
          have inTail : key ∈ tail.keys :=
            (List.filter_sublist.map Sigma.fst).subset member
          exact headNew (isHere ▸ inTail)
        rw [List.kerase_cons_eq isHere]
        by_cases kept : keep head = true
        · rw [List.filter_cons_of_pos kept, List.kerase_cons_eq isHere]
        · rw [List.filter_cons_of_neg kept, List.kerase_of_notMem_keys absent]
      · rw [List.kerase_cons_ne isHere]
        by_cases kept : keep head = true
        · rw [List.filter_cons_of_pos kept, List.filter_cons_of_pos kept,
            List.kerase_cons_ne isHere, inductionHypothesis tailNodup]
        · rw [List.filter_cons_of_neg kept, List.filter_cons_of_neg kept,
            inductionHypothesis tailNodup]

theorem lookup_liveAt {now : Nat} {store : DashMap String ValueEntry}
    {key : String} {entry : ValueEntry} :
    (liveAt now store).lookup key = some entry ↔
      store.lookup key = some entry ∧ entry.isExpired now = false := by
  rw [← Option.mem_def, ← Option.mem_def, AList.mem_lookup_iff,
    AList.mem_lookup_iff]
  simp [liveAt, isLive]

/-- A lookup among the live entries, from the entry that is stored. -/
theorem lookup_liveAt_of_stored {now : Nat} {store : DashMap String ValueEntry}
    {key : String} {entry : ValueEntry} (stored : store.lookup key = some entry) :
    (liveAt now store).lookup key =
      if entry.isExpired now then none else some entry := by
  split
  · rename_i expired
    apply Option.eq_none_iff_forall_ne_some.mpr
    intro other found
    obtain ⟨otherStored, live⟩ := lookup_liveAt.mp found
    rw [stored] at otherStored
    cases otherStored
    rw [live] at expired
    cases expired
  · rename_i notExpired
    exact lookup_liveAt.mpr ⟨stored, by simpa using notExpired⟩

theorem lookup_liveAt_of_absent {now : Nat} {store : DashMap String ValueEntry}
    {key : String} (absent : store.lookup key = none) :
    (liveAt now store).lookup key = none := by
  apply Option.eq_none_iff_forall_ne_some.mpr
  intro other found
  have stored := (lookup_liveAt.mp found).1
  rw [absent] at stored
  cases stored

theorem liveAt_erase (now : Nat) (store : DashMap String ValueEntry)
    (key : String) :
    liveAt now (store.erase key) = (liveAt now store).erase key :=
  AList.ext (filter_kerase store.nodupKeys key _)

theorem liveAt_insert {now : Nat} (store : DashMap String ValueEntry)
    (key : String) {entry : ValueEntry} (live : entry.isExpired now = false) :
    liveAt now (store.insert key entry) =
      (liveAt now store).insert key entry := by
  apply AList.ext
  have kept : isLive now ⟨key, entry⟩ = true := by
    simp [isLive, live]
  simp only [liveAt, AList.entries_insert]
  rw [List.filter_cons_of_pos kept, filter_kerase store.nodupKeys]

theorem liveAt_liveAt {earlier later : Nat} (order : earlier ≤ later)
    (store : DashMap String ValueEntry) :
    liveAt later (liveAt earlier store) = liveAt later store := by
  apply AList.ext
  simp only [liveAt, List.filter_filter]
  apply List.filter_congr
  intro entry _
  cases liveLater : entry.2.isExpired later with
  | true => simp [isLive, liveLater]
  | false =>
      have liveEarlier : entry.2.isExpired earlier = false := by
        by_contra expired
        have still := ValueEntry.isExpired_mono order
          (Bool.not_eq_false _ ▸ expired)
        rw [liveLater] at still
        cases still
      simp [isLive, liveEarlier]

/-- Erasing what is not live changes nothing. -/
theorem liveAt_erase_of_not_live {now : Nat}
    {store : DashMap String ValueEntry} {key : String}
    (notLive : (liveAt now store).lookup key = none) :
    liveAt now (store.erase key) = liveAt now store := by
  rw [liveAt_erase]
  apply AList.ext
  apply List.kerase_of_notMem_keys
  rw [← AList.keys, ← AList.mem_keys]
  exact AList.lookup_eq_none.mp notLive

theorem liveAt_foldl_erase {now : Nat} :
    ∀ (keys : List String) {store : DashMap String ValueEntry},
      (∀ key, key ∈ keys → (liveAt now store).lookup key = none) →
      liveAt now (keys.foldl (fun store key => store.erase key) store) =
        liveAt now store
  | [], _, _ => rfl
  | key :: rest, store, notLive => by
      have first : liveAt now (store.erase key) = liveAt now store :=
        liveAt_erase_of_not_live (notLive key List.mem_cons_self)
      rw [List.foldl_cons, liveAt_foldl_erase rest, first]
      intro other member
      rw [first]
      exact notLive other (List.mem_cons_of_mem _ member)

end EagerStore

/-! ## The engine mirrors the reference -/

open EagerStore

/-- The reference holds the live entries of the node. -/
structure Mirrors (node : NodeState) (eager : EagerStore) : Prop where
  sameInstant : eager.now = node.now
  sameCounter : eager.versionCounter = node.storage.versionCounter
  liveOnly : eager.store = liveAt node.now node.storage.store

namespace Mirrors

variable {node : NodeState} {eager : EagerStore}

theorem empty : Mirrors NodeState.empty EagerStore.empty where
  sameInstant := rfl
  sameCounter := rfl
  liveOnly := AList.ext rfl

theorem elapse (mirrors : Mirrors node eager) (elapsed : Nat) :
    Mirrors { node with now := node.now + elapsed } (eager.elapse elapsed) where
  sameInstant := by
    simp only [EagerStore.elapse, mirrors.sameInstant]
  sameCounter := mirrors.sameCounter
  liveOnly := by
    simp only [EagerStore.elapse, mirrors.sameInstant, mirrors.liveOnly]
    exact liveAt_liveAt (Nat.le_add_right _ _) _

/-- Under a key without a lingering entry, both stores hold the same. -/
theorem lookup_eq (mirrors : Mirrors node eager) {key : String}
    (noneLingers : ∀ entry, node.storage.lookup key = some entry →
      entry.isExpired node.now = false) :
    eager.store.lookup key = node.storage.lookup key := by
  rw [mirrors.liveOnly]
  cases stored : node.storage.lookup key with
  | none => exact lookup_liveAt_of_absent stored
  | some entry => exact lookup_liveAt.mpr ⟨stored, noneLingers entry stored⟩

/-- The reference has nothing where an entry lingers. -/
theorem lookup_of_expired (mirrors : Mirrors node eager) {key : String}
    {entry : ValueEntry} (stored : node.storage.lookup key = some entry)
    (expired : entry.isExpired node.now = true) :
    eager.store.lookup key = none := by
  rw [mirrors.liveOnly, lookup_liveAt_of_stored stored, if_pos expired]

/-- What is written at this instant is live. -/
theorem insert (mirrors : Mirrors node eager) (key : String) (data : Bytes)
    (version : UInt64) (ttl : Option Nat) :
    eager.insert key data version ttl =
      liveAt node.now
        (node.storage.store.insert key
          { data := data
            version := version
            createdAt := node.now
            ttl := ttl }) := by
  rw [liveAt_insert, EagerStore.insert, mirrors.liveOnly, mirrors.sameInstant]
  cases ttl with
  | none => rfl
  | some duration => simp [ValueEntry.isExpired]

theorem answer_get (mirrors : Mirrors node eager) (key : String) :
    .entry (node.storage.get key node.now).1 = (eager.answer (.get key)).1 ∧
      Mirrors
        { node with storage := (node.storage.get key node.now).2 }
        (eager.answer (.get key)).2 := by
  simp only [answer, StorageEngine.get]
  cases stored : node.storage.lookup key with
  | none =>
      refine ⟨?_, mirrors.sameInstant, mirrors.sameCounter, mirrors.liveOnly⟩
      rw [mirrors.liveOnly, lookup_liveAt_of_absent stored]
  | some entry =>
      by_cases expired : entry.isExpired node.now = true
      · have notLive := mirrors.lookup_of_expired stored expired
        simp only [expired, if_true, notLive, true_and]
        refine ⟨mirrors.sameInstant, mirrors.sameCounter, ?_⟩
        rw [mirrors.liveOnly] at notLive ⊢
        exact (liveAt_erase_of_not_live notLive).symm
      · have live : entry.isExpired node.now = false := by
          simpa using expired
        have found : eager.store.lookup key = some entry := by
          rw [mirrors.liveOnly]
          exact lookup_liveAt.mpr ⟨stored, live⟩
        simp only [live, found, Bool.false_eq_true, if_false, true_and]
        exact ⟨mirrors.sameInstant, mirrors.sameCounter, mirrors.liveOnly⟩

theorem answer_put (mirrors : Mirrors node eager) (key : String)
    (data : Bytes) (ttl : Option Nat) :
    .version (node.storage.put key data ttl node.now).1 =
        (eager.answer (.put key data ttl)).1 ∧
      Mirrors
        { node with storage := (node.storage.put key data ttl node.now).2 }
        (eager.answer (.put key data ttl)).2 := by
  simp only [answer, StorageEngine.put, mirrors.sameCounter, true_and]
  exact ⟨mirrors.sameInstant, rfl, mirrors.insert key data _ ttl⟩

/-- A versioned write is decided alike unless a lingering entry refuses it; once
written, it has replaced whatever lingered. -/
theorem answer_putWithVersion (mirrors : Mirrors node eager) (key : String)
    (data : Bytes) (version : UInt64) (ttl : Option Nat)
    (clear : StorageCall.meetsLingering node.storage node.now
      (.putWithVersion key data version ttl) = false) :
    .applied (node.storage.putWithVersion key data version ttl node.now).1 =
        (eager.answer (.putWithVersion key data version ttl)).1 ∧
      Mirrors
        { node with
          storage :=
            (node.storage.putWithVersion key data version ttl node.now).2 }
        (eager.answer (.putWithVersion key data version ttl)).2 := by
  have sameDecision :
      ((eager.store.lookup key).any fun existing =>
          decide (version ≤ existing.version)) =
        (node.storage.lookup key).any fun existing =>
          decide (version ≤ existing.version) := by
    cases stored : node.storage.lookup key with
    | none =>
        rw [mirrors.liveOnly, lookup_liveAt_of_absent stored]
    | some entry =>
        by_cases expired : entry.isExpired node.now = true
        · rw [mirrors.lookup_of_expired stored expired]
          simp only [StorageCall.meetsLingering, stored, Option.any_some,
            expired, Bool.true_and] at clear
          rw [Option.any_some, clear]
          rfl
        · have live : entry.isExpired node.now = false := by
            simpa using expired
          rw [mirrors.liveOnly, lookup_liveAt.mpr ⟨stored, live⟩]
  have written := mirrors.insert key data version ttl
  simp only [answer, sameDecision, StorageEngine.putWithVersion,
    mirrors.sameCounter]
  cases stored : node.storage.lookup key with
  | none =>
      simp only [Option.any_none, Bool.false_eq_true, if_false, true_and]
      exact ⟨mirrors.sameInstant, rfl, written⟩
  | some entry =>
      by_cases refused : version ≤ entry.version
      · simp only [Option.any_some, refused, decide_true, if_true, true_and]
        exact ⟨mirrors.sameInstant, rfl, mirrors.liveOnly⟩
      · simp only [Option.any_some, refused, decide_false, Bool.false_eq_true,
          if_false, true_and]
        exact ⟨mirrors.sameInstant, rfl, written⟩

theorem answer_delete (mirrors : Mirrors node eager) (key : String)
    (clear : StorageCall.meetsLingering node.storage node.now
      (.delete key) = false) :
    .existed (node.storage.delete key).1 =
        (eager.answer (.delete key)).1 ∧
      Mirrors { node with storage := (node.storage.delete key).2 }
        (eager.answer (.delete key)).2 := by
  have same : eager.store.lookup key = node.storage.lookup key := by
    apply mirrors.lookup_eq
    intro entry stored
    simpa only [StorageCall.meetsLingering, stored, Option.any_some]
      using clear
  refine ⟨?_, mirrors.sameInstant, mirrors.sameCounter, ?_⟩
  · simp only [answer, StorageEngine.delete, same]
  · simp only [answer, StorageEngine.delete, mirrors.liveOnly]
    exact (liveAt_erase _ _ _).symm

theorem answer_scan (mirrors : Mirrors node eager) (keyPrefix : String)
    (limit : Nat) :
    .items (node.storage.scan keyPrefix limit node.now) =
      (eager.answer (.scan keyPrefix limit)).1 := by
  have sameEntries :
      node.storage.iter.filter (StorageEngine.selects keyPrefix node.now) =
        (eager.store.entries.map fun entry => (entry.1, entry.2)).filter
          fun entry => StorageEngine.startsWith entry.1 keyPrefix := by
    simp only [StorageEngine.iter, mirrors.liveOnly, liveAt, List.filter_map,
      List.filter_filter]
    rfl
  simp only [answer, StorageEngine.scan, StorageEngine.scanLoop_eq,
    List.nil_append, List.length_nil, Nat.sub_zero, sameEntries]

theorem answer_purgeExpired (mirrors : Mirrors node eager) :
    Mirrors
      { node with storage := (node.storage.purgeExpired node.now).2 }
      eager := by
  refine ⟨mirrors.sameInstant, mirrors.sameCounter, ?_⟩
  simp only [StorageEngine.purgeExpired]
  rw [liveAt_foldl_erase, mirrors.liveOnly]
  intro key member
  obtain ⟨entry, stored, expired⟩ := StorageEngine.mem_expiredKeys.mp member
  rw [lookup_liveAt_of_stored stored, if_pos expired]

/-- A call that meets no lingering entry is answered alike. -/
theorem answer (mirrors : Mirrors node eager) (call : StorageCall)
    (clear : call.meetsLingering node.storage node.now = false) :
    call.observe (call.perform node).2 = (eager.answer call).1 ∧
      Mirrors (call.perform node).1 (eager.answer call).2 := by
  cases call with
  | get key => exact mirrors.answer_get key
  | put key data ttl => exact mirrors.answer_put key data ttl
  | putWithVersion key data version ttl =>
      exact mirrors.answer_putWithVersion key data version ttl clear
  | delete key => exact mirrors.answer_delete key clear
  | scan keyPrefix limit =>
      exact ⟨mirrors.answer_scan keyPrefix limit, mirrors⟩
  | len => exact ⟨rfl, mirrors⟩
  | purgeExpired => exact ⟨rfl, mirrors.answer_purgeExpired⟩

/-- A call that meets a lingering entry tells the two stores apart. -/
theorem answer_ne (mirrors : Mirrors node eager) (call : StorageCall)
    (meets : call.meetsLingering node.storage node.now = true) :
    call.observe (call.perform node).2 ≠ (eager.answer call).1 := by
  cases call with
  | get key => cases meets
  | put key data ttl => cases meets
  | putWithVersion key data version ttl =>
      simp only [StorageCall.meetsLingering, Option.any_eq_true,
        Bool.and_eq_true, decide_eq_true_eq] at meets
      obtain ⟨entry, stored, expired, refused⟩ := meets
      have gone := mirrors.lookup_of_expired stored expired
      simp [StorageCall.observe, StorageCall.perform, EagerStore.answer,
        StorageEngine.putWithVersion, stored, refused, gone]
  | delete key =>
      simp only [StorageCall.meetsLingering, Option.any_eq_true] at meets
      obtain ⟨entry, stored, expired⟩ := meets
      have gone := mirrors.lookup_of_expired stored expired
      simp [StorageCall.observe, StorageCall.perform, EagerStore.answer,
        StorageEngine.delete, stored, gone]
  | scan keyPrefix limit => cases meets
  | len => cases meets
  | purgeExpired => cases meets

end Mirrors

/-- For every sequence of calls, lazy expiration is unobservable exactly when no
deletion and no versioned write meets a lingering entry, which the write would
have to exceed. -/
theorem lazyExpiration_unobservable_iff (calls : List TimedCall) :
    outputs NodeState.serve NodeState.empty calls =
        outputs EagerStore.serve EagerStore.empty calls ↔
      Throughout NodeState.serve NoneLingers NodeState.empty calls := by
  apply outputs_eq_iff ?_ ?_ calls Mirrors.empty
  · intro node eager input mirrors clear
    exact (mirrors.elapse input.1).answer input.2 clear
  · intro node eager input mirrors meets
    apply (mirrors.elapse input.1).answer_ne input.2
    exact (Bool.not_eq_false _).mp meets

/-- An entry with ten nanoseconds to live meets, after eleven, a deletion, which
says that it existed, or a write of the same version, which it refuses. -/
theorem lingering_entry_observed :
    outputs NodeState.serve NodeState.empty
        [(0, .put "k" [1] (some 10)), (11, .delete "k")] ≠
      outputs EagerStore.serve EagerStore.empty
        [(0, .put "k" [1] (some 10)), (11, .delete "k")] ∧
    outputs NodeState.serve NodeState.empty
        [(0, .put "k" [1] (some 10)), (11, .putWithVersion "k" [2] 1 none)] ≠
      outputs EagerStore.serve EagerStore.empty
        [(0, .put "k" [1] (some 10)), (11, .putWithVersion "k" [2] 1 none)] := by
  decide

end HautePerformance.KvDistributed
