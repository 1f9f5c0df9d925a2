import HautePerformance.Library.EventReplay
import HautePerformance.Library.ThreadPool

/-!
# The gRPC key-value service

`KvStoreService` of `app-tokio-tonic/src/bin/server.rs`: requests change a map under
a lock and, once they have released it, send an event to the watchers.  There is one
watcher, which has subscribed before the first request and does not lag: its task
takes the events off the broadcast channel and puts them into the client's stream.
-/

namespace HautePerformance.Demos

open Library

inductive WatchEvent.Kind where
  | put
  | delete
  deriving DecidableEq, Repr

structure WatchEvent where
  kind : WatchEvent.Kind
  key : String
  value : String
  deriving DecidableEq, Repr

/-- What a client that follows the map makes of an event. -/
def WatchEvent.change (event : WatchEvent) : Change String String :=
  match event.kind with
  | .put => { key := event.key, image := some event.value }
  | .delete => { key := event.key, image := none }

/-- The service and its watcher: the map, the events sent and not yet received,
and those passed on to the client, the oldest first. -/
structure KvStoreService where
  store : AList fun _ : String => String
  eventsRx : List WatchEvent
  stream : List WatchEvent

namespace KvStoreService

def new : KvStoreService :=
  { store := ∅, eventsRx := [], stream := [] }

/-- `self.events_tx.send(event)`. -/
def send (self : KvStoreService) (event : WatchEvent) : KvStoreService :=
  { self with eventsRx := self.eventsRx ++ [event] }

/-- One turn of the task that `watch` spawns, if there is an event. -/
def relay (self : KvStoreService) : KvStoreService :=
  match self.eventsRx with
  | [] => self
  | event :: rest =>
      { self with eventsRx := rest, stream := self.stream ++ [event] }

end KvStoreService

structure PutResponse where
  created : Bool
  deriving DecidableEq, Repr

structure GetResponse where
  found : Bool
  value : String
  deriving DecidableEq, Repr

structure DeleteResponse where
  deleted : Bool
  deriving DecidableEq, Repr

inductive KvCall where
  | put (key value : String)
  | get (key : String)
  | delete (key : String)
  deriving DecidableEq, Repr

namespace KvCall

/-- A request stands before its critical section, or after it, about to send. -/
inductive Position : KvCall → Type where
  | putLock {key value} : Position (.put key value)
  | putSend {key value} (created : Bool) : Position (.put key value)
  | getLock {key} : Position (.get key)
  | deleteLock {key} : Position (.delete key)
  | deleteSend {key} : Position (.delete key)

abbrev Result : KvCall → Type
  | .put _ _ => PutResponse
  | .get _ => GetResponse
  | .delete _ => DeleteResponse

def enter : (call : KvCall) → Position call
  | .put _ _ => .putLock
  | .get _ => .getLock
  | .delete _ => .deleteLock

end KvCall

namespace KvStoreService

open KvCall

/-- One atomic step of a request. -/
def step : {call : KvCall} → KvStoreService → Position call →
    KvStoreService × Next (Position call) (Result call)
  | .put key value, self, .putLock =>
      let created := (self.store.lookup key).isNone
      ({ self with store := self.store.insert key value },
        .goOn (.putSend created))
  | .put key value, self, .putSend created =>
      (self.send { kind := .put, key := key, value := value },
        .finish { created := created })
  | .get key, self, .getLock =>
      match self.store.lookup key with
      | some value => (self, .finish { found := true, value := value })
      | none => (self, .finish { found := false, value := "" })
  | .delete key, self, .deleteLock =>
      let deleted := (self.store.lookup key).isSome
      ({ self with store := self.store.erase key },
        if deleted then .goOn .deleteSend
        else .finish { deleted := false })
  | .delete key, self, .deleteSend =>
      (self.send { kind := .delete, key := key, value := "" },
        .finish { deleted := true })

/-- The service as an object that requests share; the environment is the task of the
watcher. -/
def object : ConcurrentObject KvStoreService Unit Position Result where
  enter := enter
  step := step
  environment _ self := self.relay

def system :
    System (Pool KvStoreService Position Result) (PoolLabel KvCall Unit) :=
  object.system (· = new)

end KvStoreService

abbrev KvPool := Pool KvStoreService KvCall.Position KvCall.Result

abbrev KvActivity := Activity KvCall.Position

abbrev KvLabel := PoolLabel KvCall Unit

abbrev KvWorld := World KvPool KvLabel

end HautePerformance.Demos
