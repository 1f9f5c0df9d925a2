import Mathlib.Algebra.Order.Group.Multiset
import HautePerformance.Library.PoolTotals
import HautePerformance.Demos.KvStoreService

/-!
# What a watcher of the gRPC service receives

Each change of the map is followed by one event, sent by the request that has made
it.  Between the two the request holds no lock, so a later change of the same key
may be announced first.  The watcher receives every change once, and can tell the
value of each key whose last change is also announced last.
-/

namespace HautePerformance.Demos

open Library

/-- The event that a request has still to send for what it has changed. -/
def pendingEvent (activity : KvActivity) : Option WatchEvent :=
  match activity with
  | ⟨.put key value, _, .putSend _⟩ =>
      some { kind := .put, key := key, value := value }
  | ⟨.delete key, _, .deleteSend⟩ =>
      some { kind := .delete, key := key, value := "" }
  | _ => none

/-- The event for the change that the next step of a request makes. -/
def updateEvent (service : KvStoreService) (activity : KvActivity) :
    Option WatchEvent :=
  match activity with
  | ⟨.put key value, _, .putLock⟩ =>
      some { kind := .put, key := key, value := value }
  | ⟨.delete key, _, .deleteLock⟩ =>
      if (service.store.lookup key).isSome then
        some { kind := .delete, key := key, value := "" }
      else
        none
  | _ => none

/-- The changes of the map in a run, in the order of the critical sections. -/
def updates : List (KvPool × KvLabel) → List WatchEvent
  | [] => []
  | (pool, label) :: earlier =>
      updates earlier ++
        ((pool.mover? label).bind (updateEvent pool.shared)).toList

/-- The events that are still to be sent. -/
def unsent (pool : KvPool) : Multiset WatchEvent :=
  pool.total fun activity => ((pendingEvent activity).toList : Multiset WatchEvent)

def changes (events : List WatchEvent) : List (Change String String) :=
  events.map WatchEvent.change

namespace KvStoreService

open KvCall

/-- The steps of requests: a change of the map, the sending of its event, or
nothing of either. -/
inductive Moves (source : KvPool) : KvLabel → KvPool → Prop
  | begin {thread : Nat} {call : KvCall} :
      source.activity? thread = none →
      Moves source (.call thread call) (source.begin thread call call.enter)
  | update {thread : Nat} {activity : KvActivity}
      {position : Position activity.call} {event : WatchEvent} :
      source.activity? thread = some activity →
      updateEvent source.shared activity = some event →
      pendingEvent activity = none →
      pendingEvent { activity with position := position } = some event →
      Moves source (.run thread)
        (source.advance thread activity
          { source.shared with
            store := Change.apply source.shared.store event.change }
          position)
  | send {thread : Nat} {activity : KvActivity}
      {result : Result activity.call} {event : WatchEvent} :
      source.activity? thread = some activity →
      updateEvent source.shared activity = none →
      pendingEvent activity = some event →
      Moves source (.run thread)
        (source.finish thread activity (source.shared.send event) result)
  | answer {thread : Nat} {activity : KvActivity}
      {result : Result activity.call} :
      source.activity? thread = some activity →
      updateEvent source.shared activity = none →
      pendingEvent activity = none →
      Moves source (.run thread)
        (source.finish thread activity source.shared result)
  | relay {event : Unit} :
      Moves source (.environment event) (source.disturb source.shared.relay)

theorem moves_of_exec {source target : KvPool} {label : KvLabel}
    (executed : system.exec source label = some target) :
    Moves source label target := by
  have moves := ConcurrentObject.moves_of_exec executed
  cases moves with
  | call free => exact Moves.begin free
  | @advance thread activity shared position running stepped =>
      obtain ⟨call, began, here⟩ := activity
      cases here with
      | @putLock key value =>
          cases stepped
          exact Moves.update running rfl rfl rfl
      | putSend created => cases stepped
      | getLock =>
          simp only [object, step] at stepped
          split at stepped <;> cases stepped
      | @deleteLock key =>
          simp only [object, step] at stepped
          split at stepped
          · rename_i deleted
            cases stepped
            have changes :
                updateEvent source.shared
                    ⟨.delete key, began, .deleteLock⟩ =
                  some { kind := .delete, key := key, value := "" } := by
              rw [updateEvent, if_pos deleted]
            have sends :
                pendingEvent ⟨.delete key, began, .deleteSend⟩ =
                  some { kind := .delete, key := key, value := "" } :=
              rfl
            exact Moves.update running changes rfl sends
          · cases stepped
      | deleteSend => cases stepped
  | @finish thread activity shared result running stepped =>
      obtain ⟨call, began, here⟩ := activity
      cases here with
      | putLock => cases stepped
      | putSend created =>
          cases stepped
          exact Moves.send running rfl rfl
      | getLock =>
          simp only [object, step] at stepped
          split at stepped
          · cases stepped
            exact Moves.answer running rfl rfl
          · cases stepped
            exact Moves.answer running rfl rfl
      | @deleteLock key =>
          simp only [object, step] at stepped
          split at stepped
          · cases stepped
          · rename_i absent
            cases stepped
            have unchanged :
                source.shared.store.erase key = source.shared.store :=
              Entries.erase_of_lookup_none
                (by simpa using absent)
            rw [unchanged]
            exact Moves.answer running (by rw [updateEvent, if_neg absent]) rfl
      | deleteSend =>
          cases stepped
          exact Moves.send running rfl rfl
  | @environment event => exact Moves.relay

/-! ## Every change is announced once -/

/-- The map is what the changes have made of it, and the changes are announced,
once each, by the events sent and those to be sent. -/
structure Published (world : KvWorld) : Prop where
  store :
    world.state.shared.store =
      Change.replay (changes (updates world.trace))
  events :
    ((world.state.shared.stream ++ world.state.shared.eventsRx : List _) :
        Multiset WatchEvent) + unsent world.state =
      (updates world.trace : Multiset WatchEvent)

theorem updates_push_of_none {world : KvWorld} {label : KvLabel}
    {target : KvPool}
    (nothing : (world.state.mover? label).bind
      (updateEvent world.state.shared) = none) :
    updates (world.push label target).trace = updates world.trace := by
  simp [World.push, updates, nothing]

theorem updates_push_of_some {world : KvWorld} {label : KvLabel}
    {target : KvPool} {event : WatchEvent}
    (changed : (world.state.mover? label).bind
      (updateEvent world.state.shared) = some event) :
    updates (world.push label target).trace =
      updates world.trace ++ [event] := by
  simp [World.push, updates, changed]

theorem bind_mover {pool : KvPool} {thread : Nat} {activity : KvActivity}
    (running : pool.activity? thread = some activity) :
    (pool.mover? (.run thread : KvLabel)).bind (updateEvent pool.shared) =
      updateEvent pool.shared activity := by
  rw [Pool.mover?, running, Option.bind_some]

theorem relay_events (service : KvStoreService) :
    service.relay.stream ++ service.relay.eventsRx =
        service.stream ++ service.eventsRx ∧
      service.relay.store = service.store := by
  cases waiting : service.eventsRx with
  | nil => simp [relay, waiting]
  | cons event rest => simp [relay, waiting]

/-- A step that changes nothing in the map keeps what is sent and to be sent. -/
theorem Published.push_of_none {world : KvWorld} {label : KvLabel}
    {target : KvPool} (published : Published world)
    (nothing : (world.state.mover? label).bind
      (updateEvent world.state.shared) = none)
    (sameStore : target.shared.store = world.state.shared.store)
    (sameEvents :
      ((target.shared.stream ++ target.shared.eventsRx : List _) :
          Multiset WatchEvent) + unsent target =
        ((world.state.shared.stream ++ world.state.shared.eventsRx : List _) :
          Multiset WatchEvent) + unsent world.state) :
    Published (world.push label target) := by
  have sameUpdates :
      updates (world.push label target).trace = updates world.trace :=
    updates_push_of_none nothing
  refine ⟨?_, ?_⟩
  · rw [sameUpdates]
    exact sameStore.trans published.store
  · rw [sameUpdates]
    exact sameEvents.trans published.events

/-- A change of the map leaves its event to be sent. -/
theorem Published.push_of_some {world : KvWorld} {thread : Nat}
    {activity : KvActivity} {position : Position activity.call}
    {event : WatchEvent} (published : Published world)
    (running : world.state.activity? thread = some activity)
    (changed : updateEvent world.state.shared activity = some event)
    (quiet : pendingEvent activity = none)
    (sends : pendingEvent { activity with position := position } = some event) :
    Published (world.push (.run thread)
      (world.state.advance thread activity
        { world.state.shared with
          store := Change.apply world.state.shared.store event.change }
        position)) := by
  have extended :
      updates (world.push (.run thread)
        (world.state.advance thread activity
          { world.state.shared with
            store := Change.apply world.state.shared.store event.change }
          position)).trace =
        updates world.trace ++ [event] :=
    updates_push_of_some ((bind_mover running).trans changed)
  have events := published.events
  rw [unsent, Pool.total_of_running _ running, quiet, Option.toList_none,
    Multiset.coe_nil, zero_add] at events
  refine ⟨?_, ?_⟩
  · rw [extended, changes, List.map_append, List.map_singleton,
      Change.replay_append, ← changes, ← published.store]
    rfl
  · rw [extended, World.push_state, unsent, Pool.total_advance, sends,
      Option.toList_some, ← Multiset.coe_add (updates world.trace),
      ← events]
    exact add_left_comm _ _ _ |>.trans (add_comm _ _)

theorem Published.step {world : KvWorld} {label : KvLabel} {target : KvPool}
    (published : Published world) (moves : Moves world.state label target) :
    Published (world.push label target) := by
  cases moves with
  | @begin thread call free =>
      have quiet : pendingEvent ⟨call, world.state.steps, call.enter⟩ = none := by
        cases call <;> rfl
      refine published.push_of_none rfl rfl ?_
      rw [unsent, Pool.total_begin _ free, quiet]
      simp [unsent, Pool.begin]
  | update running changed quiet sends =>
      exact published.push_of_some running changed quiet sends
  | @send thread activity result event running unchanged sends =>
      refine published.push_of_none ((bind_mover running).trans unchanged) rfl ?_
      rw [unsent, unsent, Pool.total_finish,
        Pool.total_of_running _ running, sends]
      simp only [Pool.finish, KvStoreService.send, Option.toList_some]
      rw [← List.append_assoc, ← Multiset.coe_add, add_assoc]
  | @answer thread activity result running unchanged quiet =>
      refine published.push_of_none ((bind_mover running).trans unchanged) rfl ?_
      rw [unsent, unsent, Pool.total_finish,
        Pool.total_of_running _ running, quiet]
      simp [Pool.finish]
  | relay =>
      obtain ⟨sameEvents, sameStore⟩ := relay_events world.state.shared
      refine published.push_of_none rfl sameStore ?_
      exact congrArg (fun sent : List WatchEvent =>
        (sent : Multiset WatchEvent) + unsent world.state) sameEvents

theorem published_of_reachable {world : KvWorld}
    (reachable : system.Reachable (fun _ _ => True) world) :
    Published world := by
  refine reachable.invariant Published ?_ ?_
  · rintro pool ⟨service, rfl, rfl⟩
    refine ⟨rfl, ?_⟩
    rw [unsent, Pool.total_idle, add_zero]
    rfl
  · intro label source target _ published step
    rw [step.2.2]
    exact published.step (moves_of_exec step.2.1)

/-- Once all requests have returned and everything sent has been passed on, the
client has received the changes of the map, each of them once, and replaying them
gives the map at every key whose last change has been announced last. -/
theorem watch_announces_updates {world : KvWorld}
    (reachable : system.Reachable (fun _ _ => True) world)
    (atRest : world.state.AtRest)
    (relayed : world.state.shared.eventsRx = []) :
    world.state.shared.stream.Perm (updates world.trace) ∧
      ∀ key,
        Change.lastOf key (changes world.state.shared.stream) =
          Change.lastOf key (changes (updates world.trace)) →
        (Change.replay (changes world.state.shared.stream)).lookup key =
          world.state.shared.store.lookup key := by
  have published := published_of_reachable reachable
  have nothingUnsent : unsent world.state = 0 := by
    have nobody : world.state.running.entries = [] := atRest
    simp [unsent, Pool.total, Entries.sum, nobody]
  constructor
  · have events := published.events
    rw [nothingUnsent, relayed, List.append_nil, add_zero] at events
    exact Multiset.coe_eq_coe.mp events
  · intro key sameLast
    rw [published.store, Change.lookup_replay, Change.lookup_replay, sameLast]

/-- Two requests overlap on different keys, then one of the keys is deleted. -/
theorem watch_announces_updates_of_three_requests :
    ∃ world : KvWorld,
      world.state.shared.stream =
          [⟨.put, "langue", "fr"⟩, ⟨.put, "ville", "Lille"⟩,
            ⟨.delete, "ville", ""⟩] ∧
        ∀ key, key ∈ ["ville", "langue"] →
          (Change.replay (changes world.state.shared.stream)).lookup key =
            world.state.shared.store.lookup key := by
  obtain ⟨world, reachable, checked⟩ :=
    System.exists_reachable_of_replay system (fun _ _ => True) (Pool.idle new)
      [.call 0 (.put "ville" "Lille"), .run 0, .call 1 (.put "langue" "fr"),
        .run 1, .run 1, .run 0, .environment (), .environment (),
        .call 2 (.delete "ville"), .run 2, .run 2, .environment ()]
      (fun _ _ => true)
      (fun world =>
        decide (world.state.AtRest ∧
          world.state.shared.eventsRx = [] ∧
          world.state.shared.stream =
            [⟨.put, "langue", "fr"⟩, ⟨.put, "ville", "Lille"⟩,
              ⟨.delete, "ville", ""⟩] ∧
          ∀ key, key ∈ ["ville", "langue"] →
            Change.lastOf key (changes world.state.shared.stream) =
              Change.lastOf key (changes (updates world.trace))))
      ⟨_, rfl, rfl⟩ (fun _ _ _ => trivial) (by decide +kernel)
  obtain ⟨atRest, relayed, stream, sameLast⟩ := of_decide_eq_true checked
  refine ⟨world, stream, ?_⟩
  intro key listed
  exact (watch_announces_updates reachable atRest relayed).2 key
    (sameLast key listed)

/-- Two requests change the same key and send their events the other way round. -/
theorem watch_announces_older_value_last :
    ¬ ∀ world : KvWorld,
      system.Reachable (fun _ _ => True) world →
      world.state.AtRest →
      world.state.shared.eventsRx = [] →
      ∀ key,
        (Change.replay (changes world.state.shared.stream)).lookup key =
          world.state.shared.store.lookup key := by
  intro follows
  obtain ⟨world, reachable, checked⟩ :=
    System.exists_reachable_of_replay system (fun _ _ => True) (Pool.idle new)
      [.call 0 (.put "ville" "Lille"), .run 0, .call 1 (.put "ville" "Brest"),
        .run 1, .run 1, .run 0, .environment (), .environment ()]
      (fun _ _ => true)
      (fun world =>
        decide (world.state.AtRest ∧
          world.state.shared.eventsRx = [] ∧
          (Change.replay (changes world.state.shared.stream)).lookup "ville" =
            some "Lille" ∧
          world.state.shared.store.lookup "ville" = some "Brest"))
      ⟨_, rfl, rfl⟩ (fun _ _ _ => trivial) (by decide +kernel)
  obtain ⟨atRest, relayed, replayed, stored⟩ := of_decide_eq_true checked
  have equal := follows world reachable atRest relayed "ville"
  rw [replayed, stored] at equal
  revert equal
  decide

end KvStoreService

end HautePerformance.Demos
