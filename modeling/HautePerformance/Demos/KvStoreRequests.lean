import Mathlib.Logic.Function.Basic
import HautePerformance.Demos.KvStoreService
import HautePerformance.Library.Linearization

/-!
# The requests of the gRPC service, one at a time

`put`, `get` and `delete` of `app-tokio-tonic/src/bin/server.rs` hold the lock once,
and their answers are settled when they release it: a put that has created its key
and a deletion that has found it send an event before they answer.
-/

namespace HautePerformance.Demos.KvStoreService

open Library

/-- A map that serves one request after the other. -/
inductive Serves : Sequential (String → Option String) KvCall.Result
  | put {map : String → Option String} {key value : String} :
      Serves map ⟨.put key value, { created := (map key).isNone }⟩
        (Function.update map key (some value))
  | get {map : String → Option String} {key : String} :
      Serves map ⟨.get key, { found := (map key).isSome, value := (map key).getD "" }⟩
        map
  | delete {map : String → Option String} {key : String} :
      Serves map ⟨.delete key, { deleted := (map key).isSome }⟩
        (Function.update map key none)

def contents (self : KvStoreService) : String → Option String :=
  fun key => self.store.lookup key

/-- The answer of a request that has released the lock. -/
def settled : (call : KvCall) → KvCall.Position call → Option (KvCall.Result call)
  | _, .putLock => none
  | _, .putSend created => some { created := created }
  | _, .getLock => none
  | _, .deleteLock => none
  | _, .deleteSend => some { deleted := true }

theorem contents_insert (self : KvStoreService) (key value : String) :
    contents { self with store := self.store.insert key value } =
      Function.update self.contents key (some value) := by
  funext other
  by_cases same : other = key
  · subst same
    rw [contents, Function.update_self]
    exact AList.lookup_insert self.store
  · rw [contents, Function.update_of_ne same]
    exact AList.lookup_insert_ne same

theorem contents_erase (self : KvStoreService) (key : String) :
    contents { self with store := self.store.erase key } =
      Function.update self.contents key none := by
  funext other
  by_cases same : other = key
  · subst same
    rw [contents, Function.update_self]
    exact AList.lookup_erase other self.store
  · rw [contents, Function.update_of_ne same]
    exact AList.lookup_erase_ne same

theorem contents_relay (self : KvStoreService) : self.relay.contents = self.contents := by
  unfold relay
  split <;> rfl

theorem takesEffectOnce
    {allowed : KvPool → KvLabel → Prop} :
    TakesEffectOnce object contents Serves settled allowed where
  enter := by
    intro call
    cases call <;> rfl
  environment := fun _ self => self.contents_relay
  step := by
    intro pool thread activity _ _
    obtain ⟨call, began, position⟩ := activity
    cases position with
    | @putLock key value =>
        refine Or.inr ⟨{ created := (pool.shared.store.lookup key).isNone }, rfl, rfl, ?_⟩
        have changed := pool.shared.contents_insert key value
        exact changed ▸ Serves.put
    | putSend created => exact Or.inl ⟨rfl, rfl⟩
    | @getLock key =>
        have served : Serves pool.shared.contents
            ⟨.get key,
              { found := (pool.shared.contents key).isSome
                value := (pool.shared.contents key).getD "" }⟩
            pool.shared.contents := Serves.get
        cases found : pool.shared.store.lookup key with
        | none =>
            rw [show pool.shared.contents key = none from found] at served
            refine Or.inr ⟨{ found := false, value := "" }, rfl, ?_⟩
            simp only [object, step, found]
            exact ⟨rfl, served⟩
        | some value =>
            rw [show pool.shared.contents key = some value from found] at served
            refine Or.inr ⟨{ found := true, value := value }, rfl, ?_⟩
            simp only [object, step, found]
            exact ⟨rfl, served⟩
    | @deleteLock key =>
        have served : Serves pool.shared.contents
            ⟨.delete key, { deleted := (pool.shared.contents key).isSome }⟩
            (Function.update pool.shared.contents key none) := Serves.delete
        rw [← contents_erase] at served
        refine Or.inr ⟨{ deleted := (pool.shared.store.lookup key).isSome }, rfl, ?_, served⟩
        cases found : (pool.shared.store.lookup key).isSome with
        | false => simp [object, step, found, Next.outcome]
        | true => simp [object, step, found, Next.outcome, settled]
    | deleteSend => exact Or.inl ⟨rfl, rfl⟩

theorem emptyAtFirst (service : KvStoreService) (new : service = KvStoreService.new) :
    service.contents = fun _ => none := by
  rw [new]
  rfl

/-- However the requests overlap, and wherever the watcher's task is: made one at a
time, in an order that is that of real time, on a map that is empty at first, they
get the same answers and leave what the store holds. -/
theorem requests_linearize {world : KvWorld}
    (reachable : system.Reachable (fun _ _ => True) world) :
    ∃ order,
      Linearizes Serves (fun _ => none) world.state.shared.contents world.state order := by
  obtain ⟨order, orders⟩ := takesEffectOnce.exists_order emptyAtFirst reachable
  exact ⟨order, orders.linearizes⟩

/-- Two puts of a key overlap; both answer after a `get` has. -/
theorem requests_linearize_overlapping :
    ∃ world : KvWorld,
      world.state.shared.contents "ville" = some "Brest" ∧
        world.state.running.entries.length = 1 ∧
        ∃ order,
          Linearizes Serves (fun _ => none) world.state.shared.contents world.state
            order := by
  obtain ⟨world, reachable, checked⟩ :=
    System.exists_reachable_of_replay system (fun _ _ => True) (Pool.idle new)
      [.call 0 (.put "ville" "Lille"), .call 1 (.put "ville" "Brest"), .run 0, .run 1,
        .call 2 (.get "ville"), .run 2, .run 1]
      (fun _ _ => true)
      (fun world =>
        decide (world.state.shared.contents "ville" = some "Brest" ∧
          world.state.running.entries.length = 1))
      ⟨_, rfl, rfl⟩ (fun _ _ _ => trivial) (by decide +kernel)
  obtain ⟨stored, oneLeft⟩ := of_decide_eq_true checked
  exact ⟨world, stored, oneLeft, requests_linearize reachable⟩

/-! ## Keys that come and go -/

/-- A put that has created the key. -/
def creates (key : String) : Operation KvCall.Result → Bool
  | ⟨.put other _, response⟩ => other = key && response.created
  | _ => false

/-- A deletion that has found the key. -/
def deletes (key : String) : Operation KvCall.Result → Bool
  | ⟨.delete other, response⟩ => other = key && response.deleted
  | _ => false

/-- One request, in what it creates and deletes. -/
theorem Serves.balance {first last : String → Option String}
    {operation : Operation KvCall.Result} (serves : Serves first operation last)
    (key : String) :
    (creates key operation).toNat + (first key).isSome.toNat =
      (deletes key operation).toNat + (last key).isSome.toNat := by
  cases serves with
  | @put _ other value =>
      by_cases same : other = key
      · subst same
        cases first other <;> simp [creates, deletes]
      · simp [creates, deletes, same, Function.update_of_ne (Ne.symm same)]
  | get => simp [creates, deletes]
  | @delete _ other =>
      by_cases same : other = key
      · subst same
        cases first other <;> simp [creates, deletes]
      · simp [creates, deletes, same, Function.update_of_ne (Ne.symm same)]

theorem countP_cons_toNat {α : Type} (test : α → Bool) (head : α) (tail : List α) :
    (head :: tail).countP test = (test head).toNat + tail.countP test := by
  rw [List.countP_cons]
  cases test head <;> simp [Nat.add_comm]

/-- Requests one after the other create a key once more than they delete it, or as
often. -/
theorem balance_of_legal {first last : String → Option String}
    {operations : List (Operation KvCall.Result)}
    (legal : Sequential.Legal Serves first operations last) (key : String) :
    operations.countP (creates key) + (first key).isSome.toNat =
      operations.countP (deletes key) + (last key).isSome.toNat := by
  induction legal with
  | nil => rfl
  | cons one _ inductionHypothesis =>
      have here := one.balance key
      rw [countP_cons_toNat, countP_cons_toNat]
      omega

/-- A returned request with its answer. -/
def answered (record : Returned KvCall.Result) : Operation KvCall.Result :=
  ⟨record.call, record.result⟩

/-- When all requests have returned, the key has been created once more than it has
been deleted if the store holds it, and as often if not. -/
theorem creations_match_deletions {world : KvWorld}
    (reachable : system.Reachable (fun _ _ => True) world)
    (atRest : world.state.AtRest) (key : String) :
    (world.state.returned.map answered).countP (creates key) =
      (world.state.returned.map answered).countP (deletes key) +
        (world.state.shared.contents key).isSome.toNat := by
  obtain ⟨order, orders⟩ := takesEffectOnce.exists_order emptyAtFirst reachable
  have calls := orders.calls
  rw [Pool.placed_of_atRest atRest] at calls
  have sameOperations :
      (order.map Placed.operation).Perm (world.state.returned.map answered) := by
    have mapped := (Multiset.coe_eq_coe.mp calls).map Placed.operation
    rwa [List.map_map] at mapped
  have balance := balance_of_legal orders.legal key
  rw [sameOperations.countP_eq, sameOperations.countP_eq] at balance
  simpa using balance

/-- A key that is put twice, deleted, and put again. -/
theorem creations_match_deletions_put_again :
    ∃ world : KvWorld,
      world.state.returned.length = 4 ∧
        (world.state.returned.map answered).countP (creates "ville") =
          (world.state.returned.map answered).countP (deletes "ville") +
            (world.state.shared.contents "ville").isSome.toNat := by
  obtain ⟨world, reachable, checked⟩ :=
    System.exists_reachable_of_replay system (fun _ _ => True) (Pool.idle new)
      [.call 0 (.put "ville" "Lille"), .call 1 (.put "ville" "Brest"), .run 0, .run 1,
        .call 2 (.delete "ville"), .run 2, .run 1, .call 3 (.put "ville" "Metz"),
        .run 3, .run 3, .run 2, .run 0]
      (fun _ _ => true)
      (fun world => decide (world.state.AtRest ∧ world.state.returned.length = 4))
      ⟨_, rfl, rfl⟩ (fun _ _ _ => trivial) (by decide +kernel)
  obtain ⟨atRest, four⟩ := of_decide_eq_true checked
  exact ⟨world, four, creations_match_deletions reachable atRest "ville"⟩

end HautePerformance.Demos.KvStoreService
