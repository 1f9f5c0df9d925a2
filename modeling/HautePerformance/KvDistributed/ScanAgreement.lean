import HautePerformance.KvDistributed.RequestTermination
import HautePerformance.KvDistributed.Convergence

/-!
# Scanning what can be read

A `Get` asks the first replica of the key, wherever it arrives.  A `Scan` reads the
storage of the node where it arrives and asks nobody.  The two agree when that node
has a copy of whatever the first replicas have.
-/

namespace HautePerformance.KvDistributed

open Library
open Library.Rpc

/-- With room for every entry a scan finds exactly the live entries with the
prefix. -/
theorem StorageEngine.mem_scan_iff {engine : StorageEngine} {keyPrefix : String}
    {limit now : Nat} (enough : engine.len ≤ limit) {key : String}
    {entry : ValueEntry} :
    (key, entry) ∈ engine.scan keyPrefix limit now ↔
      engine.lookup key = some entry ∧ startsWith key keyPrefix = true ∧
        entry.isExpired now = false := by
  have listed :
      (key, entry) ∈ engine.iter ↔ engine.lookup key = some entry := by
    rw [iter, lookup, ← Option.mem_def, AList.mem_lookup_iff]
    simp
  have room :
      (engine.iter.filter (selects keyPrefix now)).length ≤ limit := by
    refine (List.length_filter_le _ _).trans ?_
    simpa [iter, len, AList.keys, List.keys] using enough
  rw [scan, List.mem_insertionSort, scanLoop_eq, List.nil_append,
    List.length_nil, Nat.sub_zero, List.take_of_length_le room,
    List.mem_filter, listed]
  simp [selects]

namespace Cluster

variable (cluster : Cluster)

/-- A `Get` through the node returns the value, no call being lost or timed out. -/
def GetReturns (stores : String → NodeState) (name key : String)
    (data : Bytes) : Prop :=
  ∃ fuel served version,
    cluster.service.serve mutexHeld fuel [] stores name (.get key) =
        some served ∧
      served.value = .value (some data) version

/-- A `Scan` through the node returns the items. -/
def ScanReturns (stores : String → NodeState) (name keyPrefix : String)
    (limit : UInt32) (items : List (String × Bytes)) : Prop :=
  ∃ fuel served,
    cluster.service.serve mutexHeld fuel [] stores name
        (.scan keyPrefix limit) = some served ∧
      served.value = .scanResult items

/-- What a `Get` through the node returns for a key with the prefix, a `Scan` of
the prefix through the node returns too. -/
def ScanAgrees (stores : String → NodeState) (name keyPrefix : String)
    (limit : UInt32) : Prop :=
  ∀ key data,
    StorageEngine.startsWith key keyPrefix = true →
    cluster.GetReturns stores name key data →
    ∃ items,
      cluster.ScanReturns stores name keyPrefix limit items ∧
        (key, data) ∈ items

/-- The node holds a live copy, with the same data, of every live entry with the
prefix that the first replica of its key holds. -/
def CopiesFirst (stores : String → NodeState) (name keyPrefix : String) : Prop :=
  ∀ key first entry,
    StorageEngine.startsWith key keyPrefix = true →
    (cluster.replicas key).head? = some first →
    (stores first).storage.lookup key = some entry →
    entry.isExpired (stores first).now = false →
    ∃ copy,
      (stores name).storage.lookup key = some copy ∧
        copy.isExpired (stores name).now = false ∧
        copy.data = entry.data

variable {cluster} {stores : String → NodeState} {name key : String}

/-- The first replica reads its live entry. -/
theorem serve_get_first
    (held : List (String × String) → String × String → Bool) (fuel : Nat)
    (chain : List (String × String)) {first : String} {rest : List String}
    {entry : ValueEntry} (replicasAre : cluster.replicas key = first :: rest)
    (stored : (stores first).storage.lookup key = some entry)
    (live : entry.isExpired (stores first).now = false) :
    cluster.service.serve held (fuel + 1) chain stores first (.get key) =
      some
        { value := .value (some entry.data) 0
          stores := Function.update stores first ((stores first).get key)
          sent := [] } := by
  rw [serve_eq_map _ (handler_get_self replicasAre)]
  simp only [Prog.serve, (StorageEngine.get_of_live stored live).1]
  rfl

/-- Another node asks the first replica. -/
theorem serve_get_elsewhere (pools : cluster.FullPools) (fuel : Nat)
    {first : String} {rest : List String} {entry : ValueEntry}
    (replicasAre : cluster.replicas key = first :: rest)
    (notFirst : first ≠ name)
    (stored : (stores first).storage.lookup key = some entry)
    (live : entry.isExpired (stores first).now = false) :
    cluster.service.serve mutexHeld (fuel + 2) [] stores name (.get key) =
      some
        { value := .value (some entry.data) 0
          stores := Function.update stores first ((stores first).get key)
          sent := [(first, .get key)] } := by
  have free : mutexHeld [] (name, first) = false := rfl
  rw [serve_eq_map _ (handler_get_peer pools replicasAre notFirst)]
  simp only [Replicator.ask, Prog.serve_call, free, Bool.false_eq_true,
    if_false,
    serve_get_first mutexHeld fuel [(name, first)] replicasAre stored live]
  rfl

/-- Without a live entry the only replica has nothing to return. -/
theorem serve_get_only
    {held : List (String × String) → String × String → Bool} {fuel : Nat}
    {chain : List (String × String)} {first : String}
    {served : Served String NodeState Request Response}
    (replicasAre : cluster.replicas key = [first])
    (notLive : ∀ entry, (stores first).storage.lookup key = some entry →
      entry.isExpired (stores first).now = true)
    (answers :
      cluster.service.serve held fuel chain stores first (.get key) =
        some served) :
    served.value = .value none 0 := by
  cases fuel with
  | zero => cases answers
  | succ fuel =>
      rw [serve_eq_map _ (handler_get_self replicasAre)] at answers
      simp only [Prog.serve, get_eq_none notLive, Replicator.getLoop,
        Option.map_some, Option.some.injEq] at answers
      rw [← answers]
      rfl

/-- A `Get` that is answered returns the live entry of the first replica. -/
theorem value_of_live (pools : cluster.FullPools) {fuel : Nat} {first : String}
    {rest : List String} {entry : ValueEntry}
    {served : Served String NodeState Request Response}
    (replicasAre : cluster.replicas key = first :: rest)
    (stored : (stores first).storage.lookup key = some entry)
    (live : entry.isExpired (stores first).now = false)
    (answers :
      cluster.service.serve mutexHeld fuel [] stores name (.get key) =
        some served) :
    served.value = .value (some entry.data) 0 := by
  by_cases isFirst : first = name
  · subst isFirst
    cases fuel with
    | zero => cases answers
    | succ fuel =>
        rw [serve_get_first mutexHeld fuel [] replicasAre stored live] at answers
        cases answers
        rfl
  · cases fuel with
    | zero => cases answers
    | succ fuel =>
        cases fuel with
        | zero =>
            -- The call to the first replica has no fuel left.
            rw [serve_eq_map _ (handler_get_peer pools replicasAre isFirst)]
              at answers
            simp [Replicator.ask, Prog.serve_call, Service.serve] at answers
        | succ fuel =>
            rw [serve_get_elsewhere pools fuel replicasAre isFirst stored
              live] at answers
            cases answers
            rfl

/-- Without a live entry at the first replica no `Get` returns a value. -/
theorem not_getReturns (pools : cluster.FullPools) {first : String}
    {rest : List String} (data : Bytes)
    (replicasAre : cluster.replicas key = first :: rest)
    (notLive : ∀ entry, (stores first).storage.lookup key = some entry →
      entry.isExpired (stores first).now = true) :
    ¬ cluster.GetReturns stores name key data := by
  rintro ⟨fuel, served, version, answers, isValue⟩
  cases rest with
  | cons second others =>
      rw [serve_get_eq_none pools replicasAre _ _ _ _ notLive] at answers
      cases answers
  | nil =>
      by_cases isFirst : first = name
      · subst isFirst
        rw [serve_get_only replicasAre notLive answers] at isValue
        cases isValue
      · cases fuel with
        | zero => cases answers
        | succ fuel =>
            have free : mutexHeld [] (name, first) = false := rfl
            rw [serve_eq_map _ (handler_get_peer pools replicasAre isFirst)]
              at answers
            simp only [Replicator.ask, Prog.serve_call, free,
              Bool.false_eq_true, if_false, Replicator.getLoop] at answers
            cases asked :
                cluster.service.serve mutexHeld fuel [(name, first)] stores
                  first (.get key) with
            | none => simp [asked] at answers
            | some answered =>
                have nothing := serve_get_only replicasAre notLive asked
                simp only [asked, nothing, KvClient.get, Prog.serve,
                  Option.map_some, Option.some.injEq] at answers
                rw [← answers] at isValue
                cases isValue

/-- What a `Get` returns is what the first replica has, alive. -/
theorem getReturns_iff (pools : cluster.FullPools) (data : Bytes) :
    cluster.GetReturns stores name key data ↔
      ∃ first entry,
        (cluster.replicas key).head? = some first ∧
          (stores first).storage.lookup key = some entry ∧
          entry.isExpired (stores first).now = false ∧
          entry.data = data := by
  cases replicasAre : cluster.replicas key with
  | nil =>
      constructor
      · rintro ⟨fuel, served, version, answers, isValue⟩
        cases fuel with
        | zero => cases answers
        | succ fuel =>
            rw [serve_eq_map ((cluster.replicator name).getReplicated
              cluster.hash key) rfl] at answers
            simp only [Replicator.getReplicated, cluster.agreement,
              replicasAre, List.isEmpty_nil, if_true, Prog.serve,
              Option.map_some, Option.some.injEq] at answers
            rw [← answers] at isValue
            cases isValue
      · rintro ⟨first, entry, impossible, _⟩
        cases impossible
  | cons first rest =>
      constructor
      · intro returns
        by_cases live :
            ∃ entry,
              (stores first).storage.lookup key = some entry ∧
                entry.isExpired (stores first).now = false
        · obtain ⟨entry, stored, unexpired⟩ := live
          obtain ⟨fuel, served, version, answers, isValue⟩ := returns
          rw [value_of_live pools replicasAre stored unexpired answers] at isValue
          cases isValue
          exact ⟨first, entry, rfl, stored, unexpired, rfl⟩
        · refine (not_getReturns pools data replicasAre ?_ returns).elim
          intro entry stored
          cases expired : entry.isExpired (stores first).now with
          | true => rfl
          | false => exact (live ⟨entry, stored, expired⟩).elim
      · rintro ⟨other, entry, isFirst, stored, unexpired, rfl⟩
        cases isFirst
        by_cases isFirst : first = name
        · subst isFirst
          exact ⟨_, _, 0, serve_get_first mutexHeld 0 [] replicasAre stored
            unexpired, rfl⟩
        · exact ⟨_, _, 0, serve_get_elsewhere pools 0 replicasAre isFirst
            stored unexpired, rfl⟩

/-! ## Scans -/

/-- A `Scan` is answered from the node's own storage. -/
theorem scanReturns_iff {keyPrefix : String} {limit : UInt32}
    {items : List (String × Bytes)} :
    cluster.ScanReturns stores name keyPrefix limit items ↔
      items =
        ((stores name).storage.scan keyPrefix limit.toNat
          (stores name).now).map fun item => (item.1, item.2.data) := by
  constructor
  · rintro ⟨fuel, served, answers, isResult⟩
    cases fuel with
    | zero => cases answers
    | succ fuel =>
        cases answers
        cases isResult
        rfl
  · rintro rfl
    exact ⟨1, _, rfl, rfl⟩

/-- There are at most as many keys in the whole cluster. -/
def RoomForKeys (stores : String → NodeState) (limit : UInt32) : Prop :=
  ∃ keys : List String,
    keys.length ≤ limit.toNat ∧
      ∀ name key entry,
        (stores name).storage.lookup key = some entry → key ∈ keys

theorem RoomForKeys.len_le {limit : UInt32} (room : RoomForKeys stores limit)
    (name : String) : (stores name).storage.len ≤ limit.toNat := by
  obtain ⟨keys, enough, listed⟩ := room
  have among : (stores name).storage.store.keys ⊆ keys := by
    intro key member
    have present :
        ((stores name).storage.store.lookup key).isSome = true :=
      AList.lookup_isSome.mpr (AList.mem_keys.mpr member)
    obtain ⟨entry, found⟩ := Option.isSome_iff_exists.mp present
    exact listed name key entry found
  have fewer :=
    ((stores name).storage.store.keys_nodup.subperm among).length_le
  exact fewer.trans enough

/-- With enough room a scan finds the live entries of the prefix. -/
theorem scan_finds_iff {keyPrefix : String} {limit : UInt32}
    (room : RoomForKeys stores limit) (key : String) (data : Bytes) :
    (∃ items,
      cluster.ScanReturns stores name keyPrefix limit items ∧
        (key, data) ∈ items) ↔
      ∃ copy,
        (stores name).storage.lookup key = some copy ∧
          StorageEngine.startsWith key keyPrefix = true ∧
          copy.isExpired (stores name).now = false ∧
          copy.data = data := by
  simp only [scanReturns_iff, exists_eq_left, List.mem_map, Prod.exists,
    Prod.mk.injEq, StorageEngine.mem_scan_iff (room.len_le name)]
  constructor
  · rintro ⟨other, copy, ⟨stored, starts, live⟩, rfl, rfl⟩
    exact ⟨copy, stored, starts, live, rfl⟩
  · rintro ⟨copy, stored, starts, live, rfl⟩
    exact ⟨key, copy, ⟨stored, starts, live⟩, rfl, rfl⟩

/-- What the reads find and the scans list, the node has. -/
theorem copiesFirst_of_scanAgrees (pools : cluster.FullPools)
    {keyPrefix : String} {limit : UInt32} (room : RoomForKeys stores limit)
    (agrees : cluster.ScanAgrees stores name keyPrefix limit) :
    cluster.CopiesFirst stores name keyPrefix := by
  intro key first entry starts isFirst stored live
  have returned :
      cluster.GetReturns stores name key entry.data :=
    (getReturns_iff pools entry.data).mpr
      ⟨first, entry, isFirst, stored, live, rfl⟩
  obtain ⟨copy, found, _, unexpired, same⟩ :=
    (scan_finds_iff room key entry.data).mp
      (agrees key entry.data starts returned)
  exact ⟨copy, found, unexpired, same⟩

/-- What the reads find and the node has, its scans list. -/
theorem scanAgrees_of_copiesFirst (pools : cluster.FullPools)
    {keyPrefix : String} {limit : UInt32} (room : RoomForKeys stores limit)
    (copies : cluster.CopiesFirst stores name keyPrefix) :
    cluster.ScanAgrees stores name keyPrefix limit := by
  intro key data starts returned
  obtain ⟨first, entry, isFirst, stored, live, rfl⟩ :=
    (getReturns_iff pools data).mp returned
  obtain ⟨copy, found, unexpired, same⟩ :=
    copies key first entry starts isFirst stored live
  exact (scan_finds_iff room key entry.data).mpr
    ⟨copy, found, starts, unexpired, same⟩

/-- Clients do not send `Replicate` themselves. -/
def noClientReplicate : ClusterLabel → Bool
  | .issue _ (.replicate _ _ _ _ _) => false
  | _ => true

/-- A `Replicate` goes to replicas. -/
def replicateFits (cluster : Cluster) (name : String) : Request → Prop
  | .replicate key _ _ _ _ => name ∈ cluster.replicas key
  | _ => True

/-- The runs in which clients do not send `Replicate`. -/
abbrev publicSetting (cluster : Cluster) :
    Setting String NodeState Request Response CallError NodeEvent :=
  ⟨cluster.service, fun _ label => noClientReplicate label = true⟩

def publicTyping (cluster : Cluster) : (publicSetting cluster).Typing :=
  cluster.typing _ cluster.replicateFits
    (fun {_ name request} allowed => by
      cases request with
      | replicate key value version ttlMs sourceNodeId => cases allowed
      | _ => trivial)
    (fun {name request target called} _ calls => by
      cases calls with
      | replicate value version ttlMs isReplica notLocal => exact isReplica
      | _ => trivial)

/-- Entries are on replicas only. -/
theorem isReplica_of_lookup {world : ClusterWorld}
    (reachable : (publicSetting cluster).Reachable world) {entry : ValueEntry}
    (stored : (world.state.stores name).storage.lookup key = some entry) :
    name ∈ cluster.replicas key := by
  revert stored entry
  refine System.Reachable.invariant reachable
    (fun world => ∀ {entry : ValueEntry},
      (world.state.stores name).storage.lookup key = some entry →
        name ∈ cluster.replicas key) ?_ ?_
  · rintro state rfl entry stored
    cases stored
  · intro label source target reached before step entry stored
    have typed := (publicTyping cluster).typed reached
    rcases store_cases (publicTyping cluster) rfl (fun good => good.2.1) typed
        (Setting.moves step) name with
      same | ⟨index, execution, act, next, _, found, node, _, mayAct, acted⟩ |
        ⟨event, _, applied⟩
    · rw [same] at stored
      exact before stored
    · rw [acted] at stored
      rcases execution.request.lookup_action_cases (source.state.stores name)
          key with
        kept | ⟨removed, _, gone, _⟩ | ⟨value, ttlMs, request, _⟩ |
          ⟨value, version, ttlMs, sourceNodeId, request, _, _⟩
      · exact before (kept ▸ stored)
      · rw [gone] at stored
        cases stored
      · rw [request] at mayAct
        exact mayAct
      · have fits := typed.fits found
        rw [request, node] at fits
        exact fits
    · rw [applied] at stored
      cases event with
      | tick elapsed => exact before stored
      | purge =>
          rcases NodeEvent.lookup_purge_cases (source.state.stores name)
              key with kept | ⟨removed, _, _, gone⟩
          · exact before (kept ▸ stored)
          · rw [gone] at stored
            cases stored

/-- A node that is no replica of a key that can be read misses it in its scans. -/
theorem not_scanAgrees_of_notReplica (pools : cluster.FullPools)
    {world : ClusterWorld}
    (reachable : (publicSetting cluster).Reachable world) {keyPrefix : String}
    {limit : UInt32} (room : RoomForKeys world.state.stores limit)
    (starts : StorageEngine.startsWith key keyPrefix = true)
    (live : cluster.LiveAtFirst world.state.stores key)
    (notReplica : name ∉ cluster.replicas key) :
    ¬ cluster.ScanAgrees world.state.stores name keyPrefix limit := by
  intro agrees
  obtain ⟨first, entry, isFirst, stored, unexpired⟩ := live
  obtain ⟨copy, found, _⟩ :=
    copiesFirst_of_scanAgrees pools room agrees key first entry starts isFirst
      stored unexpired
  exact notReplica (isReplica_of_lookup reachable found)

/-- What one replica stores at rest, every replica stores. -/
theorem exists_copy_of_converged {network : ClusterNetwork}
    (converged : cluster.Converged network key) {left right : String}
    (isLeft : left ∈ cluster.replicas key)
    (isRight : right ∈ cluster.replicas key) {entry : ValueEntry}
    (stored : (network.stores left).storage.lookup key = some entry) :
    ∃ copy,
      (network.stores right).storage.lookup key = some copy ∧
        copy.data = entry.data := by
  have same := converged left right isLeft isRight
  rw [stored, Option.map_some, eq_comm, Option.map_eq_some_iff] at same
  obtain ⟨copy, found, equal⟩ := same
  exact ⟨copy, found, (Prod.mk.inj equal).2⟩

/-- In a run of `Put`s that spread, at rest, the scans of a node agree with the
reads through it if and only if it is a replica of every key that they are to
find. -/
theorem scanAgrees_iff_isReplica (pools : cluster.FullPools)
    {world : ClusterWorld}
    (reachable :
      cluster.service.system.Reachable
        (fun network label =>
          ∀ key, cluster.convergenceGuard key network label = true)
        world)
    (quiescent : world.state.Quiescent) (name keyPrefix : String)
    {limit : UInt32} (room : RoomForKeys world.state.stores limit) :
    cluster.ScanAgrees world.state.stores name keyPrefix limit ↔
      ∀ key holder entry,
        StorageEngine.startsWith key keyPrefix = true →
        (world.state.stores holder).storage.lookup key = some entry →
        name ∈ cluster.replicas key := by
  have inPublic : (publicSetting cluster).Reachable world := by
    refine reachable.mono fun network label guarded => ?_
    cases label with
    | issue node request =>
        cases request with
        | replicate key value version ttlMs sourceNodeId =>
            have asks := guarded key
            simp [convergenceGuard, onlyPuts, clientMayAsk] at asks
        | _ => rfl
    | _ => rfl
  have inv (key : String) : cluster.ConvergenceInv key world.state :=
    ((convergence_sound cluster key).holds
      (reachable.mono fun network label guarded => guarded key)).inv
  have converged (key : String) : cluster.Converged world.state key :=
    converged_of_inv (inv key) quiescent
  have neverExpires {key holder : String} {entry : ValueEntry}
      (isReplica : holder ∈ cluster.replicas key)
      (stored :
        (world.state.stores holder).storage.lookup key = some entry) :
      entry.isExpired (world.state.stores holder).now = false :=
    ValueEntry.isExpired_of_no_ttl
      ((inv key).spreading holder entry isReplica stored).1 _
  constructor
  · intro agrees key holder entry starts stored
    by_contra notReplica
    have isReplica := isReplica_of_lookup inPublic stored
    cases replicasAre : cluster.replicas key with
    | nil =>
        rw [replicasAre] at isReplica
        cases isReplica
    | cons first rest =>
        have firstReplica : first ∈ cluster.replicas key := by
          simp [replicasAre]
        obtain ⟨copy, found, _⟩ :=
          exists_copy_of_converged (converged key) isReplica firstReplica stored
        have live : cluster.LiveAtFirst world.state.stores key :=
          ⟨first, copy, by rw [replicasAre]; rfl, found,
            neverExpires firstReplica found⟩
        exact not_scanAgrees_of_notReplica pools inPublic room starts live
          notReplica agrees
  · intro replicates
    apply scanAgrees_of_copiesFirst pools room
    intro key first entry starts isFirst stored _
    have isReplica := replicates key first entry starts stored
    have firstReplica : first ∈ cluster.replicas key :=
      List.mem_of_mem_head? isFirst
    obtain ⟨copy, found, same⟩ :=
      exists_copy_of_converged (converged key) firstReplica isReplica stored
    exact ⟨copy, found, neverExpires isReplica found, same⟩

/-! ## A key and a node that is no replica of it -/

end Cluster

end HautePerformance.KvDistributed
