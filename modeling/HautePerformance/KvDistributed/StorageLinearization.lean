import Mathlib.Logic.Function.Basic
import HautePerformance.KvDistributed.StorageSteps
import HautePerformance.Library.Linearization

/-!
# The storage engine, one operation at a time

A `get`, a `put` and a `delete` make one access to the map each, as long as they meet
no entry whose time is over; so does a `put_with_version`, but for its look at the
version.  An entry is written at the step that inserts it, which is not the step that
has drawn its version: the order of the operations is that of the insertions, and a
write of a lower version may come after one of a higher version.
-/

namespace HautePerformance.KvDistributed

open Library

/-- A map of entries that performs one operation after the other.  What `scan` and
`len` answer is left open, as DashMap goes through its shards one by one, and so is
the order of the versions. -/
inductive MapPerforms :
    Sequential (String → Option ValueEntry) StorageCall.Result
  | get {map : String → Option ValueEntry} {key : String} :
      MapPerforms map ⟨.get key, map key⟩ map
  | put {map : String → Option ValueEntry} {key : String} {data : Bytes}
      {ttl : Option Nat} {version : UInt64} (createdAt : Nat) :
      MapPerforms map ⟨.put key data ttl, version⟩
        (Function.update map key
          (some
            { data := data, version := version, createdAt := createdAt, ttl := ttl }))
  | refuse {map : String → Option ValueEntry} {key : String} {data : Bytes}
      {ttl : Option Nat} {version : UInt64} {existing : ValueEntry} :
      map key = some existing →
      version ≤ existing.version →
      MapPerforms map ⟨.putWithVersion key data version ttl, false⟩ map
  | apply {map : String → Option ValueEntry} {key : String} {data : Bytes}
      {ttl : Option Nat} {version : UInt64} (createdAt : Nat) :
      MapPerforms map ⟨.putWithVersion key data version ttl, true⟩
        (Function.update map key
          (some
            { data := data, version := version, createdAt := createdAt, ttl := ttl }))
  | delete {map : String → Option ValueEntry} {key : String} :
      MapPerforms map ⟨.delete key, (map key).isSome⟩ (Function.update map key none)
  | scan {map : String → Option ValueEntry} {keyPrefix : String} {limit : Nat}
      {entries : List (String × ValueEntry)} :
      MapPerforms map ⟨.scan keyPrefix limit, entries⟩ map
  | len {map : String → Option ValueEntry} {length : Nat} :
      MapPerforms map ⟨.len, length⟩ map
  | purgeExpired {map : String → Option ValueEntry} :
      MapPerforms map ⟨.purgeExpired, (0 : Nat)⟩ map

def NodeState.contents (node : NodeState) : String → Option ValueEntry :=
  fun key => node.storage.lookup key

namespace StorageCall

/-- The step finds an entry whose time is over. -/
def findsExpired {call : StorageCall} (node : NodeState) : Position call → Bool
  | .getCheck entry => entry.isExpired node.now
  | .purgeIterate => !(node.storage.expiredKeys node.now).isEmpty
  | _ => false

/-- The result of a call that has accessed the map. -/
def settled : (call : StorageCall) → Position call → Option call.Result
  | _, .getCheck entry => some (some entry)
  | _, .getCountHit entry => some (some entry)
  | _, .getCountMiss => some none
  | _, .versionCount => some true
  | _, .purgeRemove _ count => some count
  | _, _ => none

/-- A call that has found nothing expired removes nothing on that account. -/
def removesNothing {call : StorageCall} : Position call → Bool
  | .getRemove => false
  | .getCountExpired => false
  | .purgeRemove expiredKeys _ => expiredKeys.isEmpty
  | _ => true

theorem removesNothing_enter (call : StorageCall) : removesNothing call.enter = true := by
  cases call <;> rfl

theorem removesNothing_step {call : StorageCall} {node later : NodeState}
    {position next : Position call} (live : findsExpired node position = false)
    (removes : removesNothing position = true)
    (stepped : step node position = (later, .goOn next)) :
    removesNothing next = true := by
  cases position with
  | getRead =>
      simp only [step] at stepped
      split at stepped <;> cases stepped <;> rfl
  | getCheck entry =>
      have notExpired : entry.isExpired node.now = false := live
      simp only [step, notExpired] at stepped
      cases stepped
      rfl
  | versionRaise cur =>
      simp only [step] at stepped
      split at stepped
      · split at stepped <;> cases stepped <;> rfl
      · cases stepped
        rfl
  | versionCheck =>
      simp only [step] at stepped
      split at stepped
      · split at stepped
        · cases stepped
        · cases stepped
          rfl
      · cases stepped
        rfl
  | purgeIterate =>
      simp only [step] at stepped
      cases stepped
      simpa [findsExpired, removesNothing] using live
  | purgeRemove expiredKeys count =>
      cases expiredKeys with
      | nil => cases stepped
      | cons key rest => cases removes
  | getRemove => cases removes
  | getCountExpired => cases removes
  | _ => cases stepped <;> rfl

end StorageCall

/-- No call meets an entry whose time is over. -/
def MeetsNoExpired (pool : StoragePool) (label : StorageLabel) : Prop :=
  ∀ activity, activity ∈ pool.mover? label →
    StorageCall.findsExpired pool.shared activity.position = false

instance (pool : StoragePool) (label : StorageLabel) :
    Decidable (MeetsNoExpired pool label) :=
  inferInstanceAs (Decidable (∀ activity, activity ∈ pool.mover? label → _))

/-- No call is about to remove what has expired. -/
def nothingToRemove : Outline NodeState StorageCall.Position StorageCall.Result where
  Inv _ := True
  At _ activity := StorageCall.removesNothing activity.position = true

theorem nothingToRemove_sound : nothingToRemove.Sound storageObject MeetsNoExpired where
  inv := fun _ _ _ => trivial
  begins := fun _ _ _ => StorageCall.removesNothing_enter _
  advances := by
    intro source thread activity shared position admitted holds running stepped
    exact StorageCall.removesNothing_step (admitted activity running)
      (holds.2 thread activity running) stepped
  stable := fun _ holds _ running _ => holds.2 _ _ running

namespace NodeState

theorem contents_insert (node : NodeState) (key : String) (entry : ValueEntry) :
    (node.insert key entry).contents =
      Function.update node.contents key (some entry) := by
  funext other
  by_cases same : other = key
  · subst same
    rw [contents, Function.update_self, lookup_insert_self]
  · rw [contents, Function.update_of_ne same, lookup_insert_ne node entry same, contents]

theorem contents_remove (node : NodeState) (key : String) :
    (node.remove key).contents = Function.update node.contents key none := by
  funext other
  by_cases same : other = key
  · subst same
    rw [contents, Function.update_self, lookup_remove_self]
  · rw [contents, Function.update_of_ne same, lookup_remove_ne node same, contents]

end NodeState

/-- Each call has its effect at one step, if nothing it meets has expired. -/
theorem storage_takesEffectOnce :
    TakesEffectOnce storageObject NodeState.contents MapPerforms StorageCall.settled
      fun pool label => MeetsNoExpired pool label ∧ nothingToRemove.Holds pool where
  enter := by
    intro call
    cases call <;> rfl
  environment := fun _ _ => rfl
  step := by
    intro pool thread activity admitted running
    have live := admitted.1 activity running
    have removes := admitted.2.2 thread activity running
    obtain ⟨call, began, position⟩ := activity
    cases position with
    | @getRead key =>
        refine Or.inr ⟨pool.shared.contents key, rfl, ?_⟩
        have performed : MapPerforms pool.shared.contents
            ⟨.get key, pool.shared.contents key⟩ pool.shared.contents := MapPerforms.get
        simp only [storageObject, StorageCall.step, NodeState.contents] at performed ⊢
        cases found : pool.shared.storage.lookup key with
        | none =>
            rw [found] at performed
            exact ⟨rfl, performed⟩
        | some entry =>
            rw [found] at performed
            exact ⟨rfl, performed⟩
    | getCheck entry =>
        have notExpired : entry.isExpired pool.shared.now = false := live
        refine Or.inl ?_
        simp only [storageObject, StorageCall.step, notExpired]
        exact ⟨rfl, rfl⟩
    | getRemove => cases removes
    | getCountExpired => cases removes
    | @putInsert key data ttl version createdAt =>
        have inserted := pool.shared.contents_insert key
          { data := data, version := version, createdAt := createdAt, ttl := ttl }
        exact Or.inr ⟨version, rfl, rfl, inserted ▸ MapPerforms.put createdAt⟩
    | versionRaise cur =>
        refine Or.inl ?_
        simp only [storageObject, StorageCall.step]
        split
        · split <;> exact ⟨rfl, rfl⟩
        · exact ⟨rfl, rfl⟩
    | @versionCheck key data version ttl =>
        simp only [storageObject, StorageCall.step]
        split
        · rename_i existing found
          split
          · rename_i notNewer
            exact Or.inr ⟨false, rfl, rfl, MapPerforms.refuse found notNewer⟩
          · exact Or.inl ⟨rfl, rfl⟩
        · exact Or.inl ⟨rfl, rfl⟩
    | @versionInsert key data version ttl createdAt =>
        have inserted := pool.shared.contents_insert key
          { data := data, version := version, createdAt := createdAt, ttl := ttl }
        exact Or.inr ⟨true, rfl, rfl, inserted ▸ MapPerforms.apply createdAt⟩
    | @deleteRemove key =>
        have removed := pool.shared.contents_remove key
        exact Or.inr ⟨_, rfl, rfl, removed ▸ MapPerforms.delete⟩
    | @scanIterate keyPrefix limit => exact Or.inr ⟨_, rfl, rfl, MapPerforms.scan⟩
    | lenRead => exact Or.inr ⟨_, rfl, rfl, MapPerforms.len⟩
    | purgeIterate =>
        have nothing : pool.shared.storage.expiredKeys pool.shared.now = [] := by
          simpa [StorageCall.findsExpired] using live
        refine Or.inr ⟨(0 : Nat), rfl, ?_⟩
        simp only [storageObject, StorageCall.step, nothing]
        exact ⟨rfl, MapPerforms.purgeExpired⟩
    | purgeRemove expiredKeys count =>
        cases expiredKeys with
        | nil => exact Or.inl ⟨rfl, rfl⟩
        | cons key rest => cases removes
    | _ => exact Or.inl ⟨rfl, rfl⟩

/-- However the threads are interleaved, as long as no `get` and no purge meets an
entry whose time is over: made one at a time, in an order that is that of real time,
on a map that is empty at first, the calls have the same results, `scan` and `len`
apart, and leave what the store holds. -/
theorem storage_linearizes {world : World StoragePool StorageLabel}
    (reachable : storageSystem.Reachable MeetsNoExpired world) :
    ∃ order,
      Linearizes MapPerforms (fun _ => none) world.state.shared.contents world.state
        order := by
  have withOutline := reachable.assuming nothingToRemove.Holds fun _ earlier =>
    nothingToRemove_sound.reachable (fun _ _ => trivial) earlier
  have emptyAtFirst : ∀ node : NodeState,
      node.storage = StorageEngine.new → node.contents = fun _ => none := by
    intro node new
    funext key
    rw [NodeState.contents, new, StorageEngine.lookup_new]
  obtain ⟨order, orders⟩ :=
    storage_takesEffectOnce.exists_order emptyAtFirst withOutline
  exact ⟨order, orders.linearizes⟩

/-- The put that has drawn version 1 is overtaken, and inserts it over version 2. -/
theorem storage_linearizes_overtaken :
    ∃ world : World StoragePool StorageLabel,
      (world.state.shared.contents "k").map ValueEntry.version = some 1 ∧
        world.state.returned.length = 3 ∧
        ∃ order,
          Linearizes MapPerforms (fun _ => none) world.state.shared.contents
            world.state order := by
  obtain ⟨world, reachable, checked⟩ :=
    System.exists_reachable_of_replay storageSystem MeetsNoExpired
      (Pool.idle { storage := StorageEngine.new, now := 0 })
      [.call 0 (.put "k" [1] none), .call 1 (.put "k" [2] (some 5)),
        .run 0, .run 0, .run 1, .run 1, .run 1, .run 1,
        .call 1 (.get "k"), .run 1, .run 1, .run 1, .run 1, .run 0, .run 0,
        .call 2 (.get "k"), .run 2, .run 2]
      (fun pool label => decide (MeetsNoExpired pool label))
      (fun world =>
        decide
          ((world.state.shared.contents "k").map ValueEntry.version = some 1 ∧
            world.state.returned.length = 3))
      ⟨_, rfl, rfl⟩
      (fun _ _ admitted => of_decide_eq_true admitted)
      (by decide +kernel)
  obtain ⟨stored, three⟩ := of_decide_eq_true checked
  exact ⟨world, stored, three, storage_linearizes reachable⟩

end HautePerformance.KvDistributed
