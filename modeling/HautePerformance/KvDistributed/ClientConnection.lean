import Mathlib.Data.List.Basic
import HautePerformance.Library.RpcEval
import HautePerformance.KvDistributed.Server

/-!
# A connection shared by the clones of a client

A `KvClient` is one TCP stream behind a mutex.  A call takes the mutex, writes
one request frame and reads one response frame; the server handles the frames one
after the other and answers in the order in which they arrive.  A call can be cut
by its own timeout or by that of its caller, and the mutex is then free again.

Each frame is tagged with the call whose request it stems from.  The tags are
not part of the wire format: they say which request a response answers.  As long
as no request is written while a response is owed to an earlier call, each
response that is read answers the request of the call that reads it.
-/

namespace HautePerformance.KvDistributed

open Library
open Library.Rpc

/-- Where a call of a client stands. -/
inductive CallPhase where
  /-- It waits for the mutex. -/
  | locking
  /-- It holds the mutex and has written nothing yet. -/
  | writing
  /-- It has written its request and waits for the response. -/
  | reading
  /-- It has read a response, to the request of the call `origin`. -/
  | returned (origin : Nat) (response : Response)
  /-- It was cut while it was waiting for the response. -/
  | cut (cause : CallError)
  /-- It ended in another error. -/
  | failed (cause : CallError)
  deriving DecidableEq, Repr

namespace CallPhase

/-- The call holds the mutex. -/
def holds : CallPhase → Bool
  | .writing => true
  | .reading => true
  | _ => false

def isCut : CallPhase → Bool
  | .cut _ => true
  | _ => false

end CallPhase

structure ClientCall where
  request : Request
  phase : CallPhase
  deriving DecidableEq, Repr

/-- The stream, its mutex, the calls of all clones, and `handle_connection` on
the node at the other end. -/
structure Connection where
  calls : List ClientCall
  /-- The call that holds the mutex. -/
  inner : Option Nat
  requests : List (Nat × Request)
  /-- The request in hand: what remains of its handler. -/
  handling : Option (Nat × NodeProg Response)
  responses : List (Nat × Response)
  /-- The server has left `handle_connection`. -/
  closed : Bool
  node : NodeState

inductive ConnectionLabel where
  | call (request : Request)
  | lock (index : Nat)
  | writeMessage (index : Nat)
  | writeFails (index : Nat) (message : String)
  | readMessage (index : Nat)
  | readFails (index : Nat)
  | rpcTimeout (index : Nat)
  | opTimeout (index : Nat)
  | serverRead
  /-- One move of `handle_request`, with the outcomes of its calls to peers. -/
  | serverMove (outcomes : List (Except CallError Response))
  | serverWrite
  | serverClose
  /-- What else happens on the node: other connections, time, purges. -/
  | nodeChange (node : NodeState)

namespace Connection

def phase? (connection : Connection) (index : Nat) : Option CallPhase :=
  connection.calls[index]?.map ClientCall.phase

/-- The calls when one of them has moved on. -/
def moved (connection : Connection) (index : Nat) (phase : CallPhase) :
    List ClientCall :=
  connection.calls.modify index fun call => { call with phase := phase }

/-- The call ends in an error and lets go of the mutex if it holds it.  When its
request is already written, the response is still to come. -/
def abandon (connection : Connection) (index : Nat) (cause : CallError) :
    Option Connection :=
  match connection.phase? index with
  | some .locking =>
      some
        { connection with calls := connection.moved index (.failed cause) }
  | some .writing =>
      some
        { connection with
          calls := connection.moved index (.failed cause)
          inner := none }
  | some .reading =>
      some
        { connection with
          calls := connection.moved index (.cut cause)
          inner := none }
  | _ => none

/-- The calls to which a response is owed: it is unread, or a server that is
still there has yet to write it. -/
def owed (connection : Connection) : List Nat :=
  connection.responses.map Prod.fst ++
    if connection.closed then []
    else
      connection.handling.toList.map Prod.fst ++
        connection.requests.map Prod.fst

variable (hash : String → UInt64) (server : KvServer)

/-- One step of `KvClient::call`, of `handle_connection` or of the rest of the
node. -/
def exec (connection : Connection) : ConnectionLabel → Option Connection
  | .call request =>
      some
        { connection with
          calls :=
            connection.calls ++ [{ request := request, phase := .locking }] }
  | .lock index =>
      match connection.phase? index, connection.inner with
      | some .locking, none =>
          some
            { connection with
              calls := connection.moved index .writing
              inner := some index }
      | _, _ => none
  | .writeMessage index =>
      match connection.calls[index]? with
      | some ⟨request, .writing⟩ =>
          some
            { connection with
              calls := connection.moved index .reading
              requests := connection.requests ++ [(index, request)] }
      | _ => none
  | .writeFails index message =>
      match connection.phase? index with
      | some .writing =>
          some
            { connection with
              calls := connection.moved index (.failed (.io message))
              inner := none }
      | _ => none
  | .readMessage index =>
      match connection.phase? index, connection.responses with
      | some .reading, (origin, response) :: rest =>
          some
            { connection with
              calls := connection.moved index (.returned origin response)
              inner := none
              responses := rest }
      | _, _ => none
  | .readFails index =>
      match connection.phase? index, connection.responses,
          connection.closed with
      | some .reading, [], true =>
          some
            { connection with
              calls := connection.moved index (.failed (.io "early eof"))
              inner := none }
      | _, _, _ => none
  | .rpcTimeout index =>
      -- The timeout of `call` runs once the mutex is taken.
      if connection.phase? index = some .locking then none
      else connection.abandon index (.io "rpc timeout")
  | .opTimeout index => connection.abandon index .elapsed
  | .serverRead =>
      match connection.closed, connection.handling, connection.requests with
      | false, none, (origin, request) :: rest =>
          some
            { connection with
              handling := some (origin, server.handleRequest hash request)
              requests := rest }
      | _, _, _ => none
  | .serverMove outcomes =>
      match connection.handling with
      | some (origin, prog) =>
          match prog.move outcomes connection.node with
          | some (rest, node) =>
              some
                { connection with
                  handling := some (origin, rest)
                  node := node }
          | none => none
      | none => none
  | .serverWrite =>
      match connection.handling with
      | some (origin, .done response) =>
          some
            { connection with
              handling := none
              responses := connection.responses ++ [(origin, response)] }
      | _ => none
  | .serverClose =>
      some
        { connection with
          handling := none
          closed := true }
  | .nodeChange node => some { connection with node := node }

/-- A connection that has just been established. -/
def established (node : NodeState) : Connection :=
  { calls := []
    inner := none
    requests := []
    handling := none
    responses := []
    closed := false
    node := node }

/-- The connection as a system. -/
def system : System Connection ConnectionLabel where
  init connection := ∃ node, connection = established node
  exec := exec hash server

end Connection

abbrev ConnectionWorld := World Connection ConnectionLabel

/-- The method that sends the request returns `Ok` when it is given the
response. -/
def KvClient.isOk (request : Request) (response : Response) : Bool :=
  match request with
  | .get _ => (get (.ok response)).isOk
  | .put _ _ _ => (putWithTtl (.ok response)).isOk
  | .delete _ => (delete (.ok response)).isOk
  | .scan _ _ => (scan (.ok response)).isOk
  | .replicate _ _ _ _ _ => (replicate (.ok response)).isOk
  | .heartbeat _ _ => (heartbeat (.ok response)).isOk

namespace Connection

/-- Whoever returns `Ok` has read the response to its own request, as computed
by the handler of that request. -/
def Correlated (hash : String → UInt64) (server : KvServer)
    (connection : Connection) : Prop :=
  ∀ (index : Nat) (call : ClientCall) (origin : Nat) (response : Response),
    connection.calls[index]? = some call →
    call.phase = .returned origin response →
    KvClient.isOk call.request response = true →
    origin = index ∧ (server.handleRequest hash call.request).Yields response

/-- A request is written only when no response is owed. -/
def writesWhenNoneOwed (connection : Connection) : ConnectionLabel → Bool
  | .writeMessage _ => connection.owed.isEmpty
  | _ => true

/-! ## Calls that move on -/

variable {hash : String → UInt64} {server : KvServer}
variable {connection : Connection}

theorem exists_of_phase? {index : Nat} {phase : CallPhase}
    (isIn : connection.phase? index = some phase) :
    ∃ call : ClientCall,
      connection.calls[index]? = some call ∧ call.phase = phase :=
  Option.map_eq_some_iff.mp isIn

theorem moved_cases {index other : Nat} {phase : CallPhase}
    {call : ClientCall}
    (found : (connection.moved index phase)[other]? = some call) :
    (other ≠ index ∧ connection.calls[other]? = some call) ∨
      ∃ old,
        other = index ∧ connection.calls[index]? = some old ∧
          call = { old with phase := phase } := by
  rw [moved, List.getElem?_modify] at found
  obtain ⟨old, foundOld, changed⟩ := Option.map_eq_some_iff.mp found
  by_cases same : index = other
  · subst same
    rw [if_pos rfl] at changed
    exact Or.inr ⟨old, rfl, foundOld, changed.symm⟩
  · rw [if_neg same] at changed
    exact Or.inl ⟨Ne.symm same, changed ▸ foundOld⟩

theorem moved_self {index : Nat} {phase : CallPhase} {call : ClientCall}
    (found : connection.calls[index]? = some call) :
    (connection.moved index phase)[index]? =
      some { call with phase := phase } := by
  simp [moved, found]

theorem moved_ne {index other : Nat} (different : other ≠ index)
    (phase : CallPhase) :
    (connection.moved index phase)[other]? = connection.calls[other]? := by
  simp [moved, Ne.symm different]

/-- The request of a call. -/
def request? (calls : List ClientCall) (index : Nat) : Option Request :=
  calls[index]?.map ClientCall.request

theorem request?_of_found {calls : List ClientCall} {index : Nat}
    {call : ClientCall} (found : calls[index]? = some call) :
    request? calls index = some call.request := by
  rw [request?, found]
  rfl

/-- The request of a call never changes. -/
@[simp]
theorem request?_moved (index other : Nat) (phase : CallPhase) :
    request? (connection.moved index phase) other =
      request? connection.calls other := by
  by_cases same : other = index
  · subst same
    cases found : connection.calls[other]? with
    | none => simp [request?, moved, found]
    | some call => simp [request?, moved_self found, found]
  · rw [request?, request?, moved_ne same]

/-- The calls with a new one at the end. -/
theorem appended_cases {calls : List ClientCall} {index : Nat}
    {new call : ClientCall} (found : (calls ++ [new])[index]? = some call) :
    calls[index]? = some call ∨ call = new := by
  by_cases within : index < calls.length
  · rw [List.getElem?_append_left within] at found
    exact Or.inl found
  · rw [List.getElem?_append_right (Nat.le_of_not_lt within)] at found
    have member := List.mem_of_getElem? found
    exact Or.inr (List.mem_singleton.mp member)

theorem appended_of_found {calls : List ClientCall} {index : Nat}
    {call : ClientCall} (new : ClientCall)
    (found : calls[index]? = some call) :
    (calls ++ [new])[index]? = some call := by
  obtain ⟨within, _⟩ := List.getElem?_eq_some_iff.mp found
  rw [List.getElem?_append_left within]
  exact found

theorem request?_appended {calls : List ClientCall} {index : Nat}
    {request : Request} (new : ClientCall)
    (asked : request? calls index = some request) :
    request? (calls ++ [new]) index = some request := by
  obtain ⟨call, found, isRequest⟩ := Option.map_eq_some_iff.mp asked
  rw [request?_of_found (appended_of_found new found), isRequest]

/-! ## Owed responses -/

/-- When no response is owed, a request that is written makes its own response
the only one. -/
theorem owed_of_written (noneOwed : connection.owed = []) (index : Nat)
    (request : Request) (calls : List ClientCall) :
    (owed
        { connection with
          calls := calls
          requests := connection.requests ++ [(index, request)] }).Sublist
      [index] := by
  obtain ⟨noResponse, noRequest⟩ := List.append_eq_nil_iff.mp noneOwed
  cases closed : connection.closed with
  | true => simp [owed, noResponse]
  | false =>
      simp only [closed, Bool.false_eq_true, if_false] at noRequest
      obtain ⟨notHandling, noRequest⟩ := List.append_eq_nil_iff.mp noRequest
      simp [owed, noResponse, notHandling, noRequest]

/-! ## The invariant -/

/-- What holds while requests are written only when no response is owed. -/
structure Orderly (hash : String → UInt64) (server : KvServer)
    (connection : Connection) : Prop where
  /-- The mutex excludes. -/
  exclusive : ∀ (index : Nat) (call : ClientCall),
    connection.calls[index]? = some call →
    call.phase.holds = true →
    connection.inner = some index
  /-- A response is owed to a call that waits for it or was cut. -/
  awaited : ∀ index, index ∈ connection.owed →
    ∃ call : ClientCall,
      connection.calls[index]? = some call ∧
        (call.phase = .reading ∨ call.phase.isCut = true)
  /-- While a call waits for its response, no other one is owed. -/
  alone : ∀ (index : Nat) (call : ClientCall),
    connection.calls[index]? = some call →
    call.phase = .reading →
    ∀ other, other ∈ connection.owed → other = index
  atMostOne : connection.owed.length ≤ 1
  /-- A server that has left has no request in hand. -/
  leftIdle : connection.closed = true → connection.handling = none
  /-- A request frame carries the request of its call. -/
  requested : ∀ frame, frame ∈ connection.requests →
    request? connection.calls frame.1 = some frame.2
  /-- What is left of a handler ends in a response to the request. -/
  inHand : ∀ origin rest, connection.handling = some (origin, rest) →
    ∃ request,
      request? connection.calls origin = some request ∧
        ∀ response, rest.Yields response →
          (server.handleRequest hash request).Yields response
  /-- A response frame carries a response to the request of its call. -/
  responded : ∀ frame, frame ∈ connection.responses →
    ∃ request,
      request? connection.calls frame.1 = some request ∧
        (server.handleRequest hash request).Yields frame.2
  /-- A call has read the response to its own request. -/
  returned : ∀ (index : Nat) (call : ClientCall) (origin : Nat)
      (response : Response),
    connection.calls[index]? = some call →
    call.phase = .returned origin response →
    origin = index ∧ (server.handleRequest hash call.request).Yields response

namespace Orderly

theorem established (node : NodeState) :
    Orderly hash server (established node) where
  exclusive := by simp [Connection.established]
  awaited := by simp [Connection.established, owed]
  alone := by simp [Connection.established]
  atMostOne := by simp [Connection.established, owed]
  leftIdle := by simp [Connection.established]
  requested := by simp [Connection.established]
  inHand := by simp [Connection.established]
  responded := by simp [Connection.established]
  returned := by simp [Connection.established]

/-- At most one call holds the mutex. -/
theorem holder_unique (orderly : Orderly hash server connection)
    {index other : Nat} {call otherCall : ClientCall}
    (found : connection.calls[index]? = some call)
    (holds : call.phase.holds = true)
    (otherFound : connection.calls[other]? = some otherCall)
    (otherHolds : otherCall.phase.holds = true) : other = index := by
  have first := orderly.exclusive index call found holds
  have second := orderly.exclusive other otherCall otherFound otherHolds
  rw [first] at second
  exact (Option.some.inj second).symm

/-- A call moves on to a phase in which it waits for no response and has read
none; the frames stay as they are. -/
theorem moved (orderly : Orderly hash server connection) {index : Nat}
    {phase : CallPhase} {inner : Option Nat}
    (found : ∃ call, connection.calls[index]? = some call)
    (holder : phase.holds = true → inner = some index)
    (others : ∀ other,
      connection.inner = some other → other ≠ index → inner = some other)
    (owedCut : index ∈ connection.owed → phase.isCut = true)
    (notReading : phase ≠ .reading)
    (notReturned : ∀ origin response, phase ≠ .returned origin response) :
    Orderly hash server
      { connection with
        calls := connection.moved index phase
        inner := inner } where
  exclusive := by
    intro other call foundNow holds
    rcases moved_cases foundNow with ⟨different, before⟩ | ⟨_, rfl, _, rfl⟩
    · have held := orderly.exclusive other call before holds
      exact others other held different
    · exact holder holds
  awaited := by
    intro other isOwed
    by_cases same : other = index
    · subst same
      obtain ⟨call, before⟩ := found
      exact ⟨_, moved_self before, Or.inr (owedCut isOwed)⟩
    · obtain ⟨call, before, waits⟩ := orderly.awaited other isOwed
      exact ⟨call, (moved_ne same phase).trans before, waits⟩
  alone := by
    intro reader call foundNow reads
    rcases moved_cases foundNow with ⟨_, before⟩ | ⟨_, _, _, rfl⟩
    · exact orderly.alone reader call before reads
    · exact absurd reads notReading
  atMostOne := orderly.atMostOne
  leftIdle := orderly.leftIdle
  requested := by
    simp only [request?_moved]
    exact orderly.requested
  inHand := by
    simp only [request?_moved]
    exact orderly.inHand
  responded := by
    simp only [request?_moved]
    exact orderly.responded
  returned := by
    intro other call origin response foundNow returns
    rcases moved_cases foundNow with ⟨_, before⟩ | ⟨_, _, _, rfl⟩
    · exact orderly.returned other call origin response before returns
    · exact absurd returns (notReturned origin response)

/-- The server does something with the frames; the calls stay as they are. -/
theorem frames (orderly : Orderly hash server connection)
    {target : Connection} (sameCalls : target.calls = connection.calls)
    (sameInner : target.inner = connection.inner)
    (fewer : target.owed.Sublist connection.owed)
    (leftIdle : target.closed = true → target.handling = none)
    (requested : target.requests ⊆ connection.requests)
    (inHand : ∀ origin rest, target.handling = some (origin, rest) →
      ∃ request,
        request? connection.calls origin = some request ∧
          ∀ response, rest.Yields response →
            (server.handleRequest hash request).Yields response)
    (responded : ∀ frame, frame ∈ target.responses →
      ∃ request,
        request? connection.calls frame.1 = some request ∧
          (server.handleRequest hash request).Yields frame.2) :
    Orderly hash server target where
  exclusive := by
    rw [sameCalls, sameInner]
    exact orderly.exclusive
  awaited := by
    intro index isOwed
    rw [sameCalls]
    exact orderly.awaited index (fewer.subset isOwed)
  alone := by
    intro index call found reads other isOwed
    rw [sameCalls] at found
    exact orderly.alone index call found reads other (fewer.subset isOwed)
  atMostOne := by
    have before := orderly.atMostOne
    have less := fewer.length_le
    omega
  leftIdle := leftIdle
  requested := by
    intro frame member
    rw [sameCalls]
    exact orderly.requested frame (requested member)
  inHand := by
    rw [sameCalls]
    exact inHand
  responded := by
    rw [sameCalls]
    exact responded
  returned := by
    rw [sameCalls]
    exact orderly.returned

/-- A new call waits for the mutex. -/
theorem call (orderly : Orderly hash server connection) (request : Request) :
    Orderly hash server
      { connection with
        calls :=
          connection.calls ++
            [{ request := request, phase := .locking }] } where
  exclusive := by
    intro index call found holds
    rcases appended_cases found with before | rfl
    · exact orderly.exclusive index call before holds
    · cases holds
  awaited := by
    intro index isOwed
    obtain ⟨call, found, waits⟩ := orderly.awaited index isOwed
    exact ⟨call, appended_of_found _ found, waits⟩
  alone := by
    intro index call found reads
    rcases appended_cases found with before | rfl
    · exact orderly.alone index call before reads
    · cases reads
  atMostOne := orderly.atMostOne
  leftIdle := orderly.leftIdle
  requested := by
    intro frame member
    exact request?_appended _ (orderly.requested frame member)
  inHand := by
    intro origin rest isInHand
    obtain ⟨asked, isAsked, yields⟩ := orderly.inHand origin rest isInHand
    exact ⟨asked, request?_appended _ isAsked, yields⟩
  responded := by
    intro frame member
    obtain ⟨asked, isAsked, yields⟩ := orderly.responded frame member
    exact ⟨asked, request?_appended _ isAsked, yields⟩
  returned := by
    intro index call origin response found returns
    rcases appended_cases found with before | rfl
    · exact orderly.returned index call origin response before returns
    · cases returns

/-- A call writes its request when no response is owed. -/
theorem writeMessage (orderly : Orderly hash server connection)
    {index : Nat} {request : Request}
    (found : connection.calls[index]? = some ⟨request, .writing⟩)
    (noneOwed : connection.owed = []) :
    Orderly hash server
      { connection with
        calls := connection.moved index .reading
        requests := connection.requests ++ [(index, request)] } where
  exclusive := by
    intro other call foundNow holds
    rcases moved_cases foundNow with ⟨_, before⟩ | ⟨_, rfl, _, _⟩
    · exact orderly.exclusive other call before holds
    · exact orderly.exclusive other _ found rfl
  awaited := by
    intro other isOwed
    have onlyOne := owed_of_written noneOwed index request
      (connection.moved index .reading)
    have isIndex := List.mem_singleton.mp (onlyOne.subset isOwed)
    subst isIndex
    exact ⟨_, moved_self found, Or.inl rfl⟩
  alone := by
    intro reader call foundNow reads other isOwed
    have onlyOne := owed_of_written noneOwed index request
      (connection.moved index .reading)
    have isIndex := List.mem_singleton.mp (onlyOne.subset isOwed)
    rcases moved_cases foundNow with ⟨different, before⟩ | ⟨_, isReader, _, _⟩
    · -- Another call cannot be waiting: `index` holds the mutex.
      have readerHolds : call.phase.holds = true := by
        rw [reads]
        rfl
      have same := orderly.holder_unique found rfl before readerHolds
      exact absurd same different
    · exact isIndex.trans isReader.symm
  atMostOne :=
    (owed_of_written noneOwed index request _).length_le
  leftIdle := orderly.leftIdle
  requested := by
    intro frame member
    rw [request?_moved]
    rcases List.mem_append.mp member with before | new
    · exact orderly.requested frame before
    · rw [List.mem_singleton.mp new]
      exact request?_of_found found
  inHand := by
    simp only [request?_moved]
    exact orderly.inHand
  responded := by
    simp only [request?_moved]
    exact orderly.responded
  returned := by
    intro other call origin response foundNow returns
    rcases moved_cases foundNow with ⟨_, before⟩ | ⟨_, _, _, rfl⟩
    · exact orderly.returned other call origin response before returns
    · cases returns

/-- A call reads the response to its own request, and none is owed any more. -/
theorem readMessage (orderly : Orderly hash server connection)
    {index origin : Nat} {call : ClientCall} {response : Response}
    {rest : List (Nat × Response)}
    (found : connection.calls[index]? = some call)
    (reads : call.phase = .reading)
    (responses : connection.responses = (origin, response) :: rest) :
    Orderly hash server
      { connection with
        calls := connection.moved index (.returned origin response)
        inner := none
        responses := rest } := by
  have owedBefore :
      connection.owed =
        origin :: owed
          { connection with
            calls := connection.moved index (.returned origin response)
            inner := none
            responses := rest } := by
    simp [owed, responses]
  have isIndex : origin = index := by
    apply orderly.alone index call found reads
    rw [owedBefore]
    exact List.mem_cons_self
  have noneOwed :
      owed
          { connection with
            calls := connection.moved index (.returned origin response)
            inner := none
            responses := rest } = [] := by
    have atMostOne := orderly.atMostOne
    rw [owedBefore, List.length_cons] at atMostOne
    apply List.length_eq_zero_iff.mp
    omega
  constructor
  case exclusive =>
    intro other otherCall foundNow holds
    rcases moved_cases foundNow with ⟨different, before⟩ | ⟨_, _, _, rfl⟩
    · have readerHolds : call.phase.holds = true := by
        rw [reads]
        rfl
      have same := orderly.holder_unique found readerHolds before holds
      exact absurd same different
    · cases holds
  case awaited =>
    intro other isOwed
    rw [noneOwed] at isOwed
    cases isOwed
  case alone =>
    intro _ _ _ _ other isOwed
    rw [noneOwed] at isOwed
    cases isOwed
  case atMostOne =>
    rw [noneOwed]
    exact Nat.zero_le 1
  case leftIdle => exact orderly.leftIdle
  case requested =>
    simp only [request?_moved]
    exact orderly.requested
  case inHand =>
    simp only [request?_moved]
    exact orderly.inHand
  case responded =>
    intro frame member
    rw [request?_moved]
    apply orderly.responded
    rw [responses]
    exact List.mem_cons_of_mem _ member
  case returned =>
    intro other otherCall given received foundNow returns
    rcases moved_cases foundNow with ⟨_, before⟩ | ⟨old, rfl, wasThere, rfl⟩
    · exact orderly.returned other otherCall given received before returns
    · cases returns
      refine ⟨isIndex, ?_⟩
      obtain ⟨request, asked, yields⟩ :=
        orderly.responded (origin, response)
          (by rw [responses]; exact List.mem_cons_self)
      rw [isIndex, request?_of_found wasThere] at asked
      cases asked
      exact yields

/-- No response is owed to a call that has not written its request. -/
theorem not_owed (orderly : Orderly hash server connection) {index : Nat}
    {phase : CallPhase} (isIn : connection.phase? index = some phase)
    (notReading : phase ≠ .reading) (notCut : phase.isCut = false) :
    index ∉ connection.owed := by
  intro isOwed
  obtain ⟨call, found, same⟩ := exists_of_phase? isIn
  obtain ⟨other, otherFound, waits⟩ := orderly.awaited index isOwed
  rw [found] at otherFound
  cases otherFound
  rcases waits with reads | cut
  · exact notReading (same.symm.trans reads)
  · rw [same, notCut] at cut
    cases cut

/-- The call that holds the mutex ends without a response. -/
theorem release (orderly : Orderly hash server connection) {index : Nat}
    {old phase : CallPhase} (isIn : connection.phase? index = some old)
    (holds : old.holds = true) (letsGo : phase.holds = false)
    (owedCut : index ∈ connection.owed → phase.isCut = true)
    (notReturned : ∀ origin response, phase ≠ .returned origin response) :
    Orderly hash server
      { connection with
        calls := connection.moved index phase
        inner := none } := by
  obtain ⟨call, found, same⟩ := exists_of_phase? isIn
  have holder : connection.inner = some index := by
    apply orderly.exclusive index call found
    rw [same]
    exact holds
  apply orderly.moved ⟨call, found⟩
  · intro stillHolds
    rw [letsGo] at stillHolds
    cases stillHolds
  · intro other otherHolder different
    rw [holder] at otherHolder
    exact absurd (Option.some.inj otherHolder).symm different
  · exact owedCut
  · intro reads
    rw [reads] at letsGo
    cases letsGo
  · exact notReturned

/-- The call that holds the mutex ends before it has written its request. -/
theorem writeFails (orderly : Orderly hash server connection) {index : Nat}
    (isWriting : connection.phase? index = some .writing)
    (cause : CallError) :
    Orderly hash server
      { connection with
        calls := connection.moved index (.failed cause)
        inner := none } := by
  have notOwed := orderly.not_owed isWriting nofun rfl
  apply orderly.release isWriting rfl rfl
  · intro isOwed
    exact absurd isOwed notOwed
  · nofun

/-- A call takes the free mutex. -/
theorem lock (orderly : Orderly hash server connection) {index : Nat}
    (isLocking : connection.phase? index = some .locking)
    (free : connection.inner = none) :
    Orderly hash server
      { connection with
        calls := connection.moved index .writing
        inner := some index } := by
  have notOwed := orderly.not_owed isLocking nofun rfl
  obtain ⟨call, found, _⟩ := exists_of_phase? isLocking
  apply orderly.moved ⟨call, found⟩
  · intro _
    rfl
  · intro other holder
    rw [free] at holder
    cases holder
  · intro isOwed
    exact absurd isOwed notOwed
  · nofun
  · nofun

/-- A call is given up: cut, if it was waiting for its response. -/
theorem abandon (orderly : Orderly hash server connection) {index : Nat}
    {cause : CallError} {target : Connection}
    (abandoned : connection.abandon index cause = some target) :
    Orderly hash server target := by
  simp only [Connection.abandon] at abandoned
  split at abandoned
  case h_1 isLocking =>
    cases abandoned
    have notOwed := orderly.not_owed isLocking nofun rfl
    obtain ⟨call, found, _⟩ := exists_of_phase? isLocking
    apply orderly.moved ⟨call, found⟩
    · nofun
    · intro other holder _
      exact holder
    · intro isOwed
      exact absurd isOwed notOwed
    · nofun
    · nofun
  case h_2 isWriting =>
    cases abandoned
    exact orderly.writeFails isWriting cause
  case h_3 isReading =>
    cases abandoned
    apply orderly.release isReading rfl rfl
    · intro _
      rfl
    · nofun
  case h_4 => cases abandoned

/-- The stream ends when nothing is owed any more. -/
theorem readFails (orderly : Orderly hash server connection) {index : Nat}
    (isReading : connection.phase? index = some .reading)
    (noResponse : connection.responses = [])
    (closed : connection.closed = true) (cause : CallError) :
    Orderly hash server
      { connection with
        calls := connection.moved index (.failed cause)
        inner := none } := by
  have noneOwed : connection.owed = [] := by
    simp [owed, noResponse, closed]
  apply orderly.release isReading rfl rfl
  · intro isOwed
    rw [noneOwed] at isOwed
    cases isOwed
  · nofun

/-- The server takes up the next request. -/
theorem serverRead (orderly : Orderly hash server connection) {origin : Nat}
    {request : Request} {rest : List (Nat × Request)}
    (isOpen : connection.closed = false) (idle : connection.handling = none)
    (requests : connection.requests = (origin, request) :: rest) :
    Orderly hash server
      { connection with
        handling := some (origin, server.handleRequest hash request)
        requests := rest } := by
  refine orderly.frames rfl rfl ?_ ?_ ?_ ?_ orderly.responded
  · simp [owed, isOpen, idle, requests]
  · intro closed
    rw [isOpen] at closed
    cases closed
  · rw [requests]
    exact List.subset_cons_self _ _
  · intro _ _ isInHand
    cases isInHand
    have asked : request? connection.calls origin = some request := by
      apply orderly.requested (origin, request)
      rw [requests]
      exact List.mem_cons_self
    exact ⟨request, asked, fun _ yields => yields⟩

/-- The server is still there while it has a request in hand. -/
theorem open_of_handling (orderly : Orderly hash server connection)
    {inHand : Nat × NodeProg Response}
    (isInHand : connection.handling = some inHand) :
    connection.closed = false := by
  cases closed : connection.closed with
  | false => rfl
  | true =>
      have idle := orderly.leftIdle closed
      rw [isInHand] at idle
      cases idle

/-- The handler of the request in hand makes a move. -/
theorem serverMove (orderly : Orderly hash server connection) {origin : Nat}
    {prog rest : NodeProg Response} {node : NodeState}
    {outcomes : List (Except CallError Response)}
    (isInHand : connection.handling = some (origin, prog))
    (moved : prog.move outcomes connection.node = some (rest, node)) :
    Orderly hash server
      { connection with
        handling := some (origin, rest)
        node := node } := by
  refine orderly.frames rfl rfl ?_ ?_ (List.Subset.refl _) ?_ orderly.responded
  · simp [owed, isInHand]
  · intro closed
    rw [orderly.open_of_handling isInHand] at closed
    cases closed
  · intro _ _ remains
    cases remains
    obtain ⟨request, asked, yields⟩ := orderly.inHand _ _ isInHand
    refine ⟨request, asked, ?_⟩
    intro response restYields
    exact yields response (restYields.of_move moved)

/-- The server writes the response that the handler has ended in. -/
theorem serverWrite (orderly : Orderly hash server connection) {origin : Nat}
    {response : Response}
    (isInHand : connection.handling = some (origin, .done response)) :
    Orderly hash server
      { connection with
        handling := none
        responses := connection.responses ++ [(origin, response)] } := by
  have isOpen := orderly.open_of_handling isInHand
  refine orderly.frames rfl rfl ?_ ?_ (List.Subset.refl _) nofun ?_
  · simp [owed, isOpen, isInHand]
  · intro _
    rfl
  · intro frame member
    rcases List.mem_append.mp member with before | new
    · exact orderly.responded frame before
    · rw [List.mem_singleton.mp new]
      obtain ⟨request, asked, yields⟩ := orderly.inHand _ _ isInHand
      exact ⟨request, asked, yields response rfl⟩

/-- The server leaves: what it has not answered is lost. -/
theorem serverClose (orderly : Orderly hash server connection) :
    Orderly hash server
      { connection with
        handling := none
        closed := true } := by
  refine orderly.frames rfl rfl ?_ ?_ (List.Subset.refl _) nofun
    orderly.responded
  · simp [owed]
  · intro _
    rfl

theorem nodeChange (orderly : Orderly hash server connection)
    (node : NodeState) :
    Orderly hash server { connection with node := node } := by
  refine orderly.frames rfl rfl ?_ orderly.leftIdle (List.Subset.refl _)
    orderly.inHand orderly.responded
  exact List.Sublist.refl _

/-- Every step out of an orderly connection keeps it orderly, if no request is
written while a response is owed. -/
theorem exec {label : ConnectionLabel} {target : Connection}
    (orderly : Orderly hash server connection)
    (admitted : connection.writesWhenNoneOwed label = true)
    (stepped : connection.exec hash server label = some target) :
    Orderly hash server target := by
  cases label with
  | call request =>
      cases stepped
      exact orderly.call request
  | lock index =>
      simp only [Connection.exec] at stepped
      split at stepped
      · rename_i isLocking free
        cases stepped
        exact orderly.lock isLocking free
      · cases stepped
  | writeMessage index =>
      simp only [Connection.exec] at stepped
      split at stepped
      · rename_i request found
        cases stepped
        exact orderly.writeMessage found (List.isEmpty_iff.mp admitted)
      · cases stepped
  | writeFails index message =>
      simp only [Connection.exec] at stepped
      split at stepped
      · rename_i isWriting
        cases stepped
        exact orderly.writeFails isWriting (.io message)
      · cases stepped
  | readMessage index =>
      simp only [Connection.exec] at stepped
      split at stepped
      · rename_i origin response rest isReading responses
        cases stepped
        obtain ⟨call, found, reads⟩ := exists_of_phase? isReading
        exact orderly.readMessage found reads responses
      · cases stepped
  | readFails index =>
      simp only [Connection.exec] at stepped
      split at stepped
      · rename_i isReading noResponse closed
        cases stepped
        exact orderly.readFails isReading noResponse closed _
      · cases stepped
  | rpcTimeout index =>
      simp only [Connection.exec] at stepped
      split at stepped
      · cases stepped
      · exact orderly.abandon stepped
  | opTimeout index => exact orderly.abandon stepped
  | serverRead =>
      simp only [Connection.exec] at stepped
      split at stepped
      · rename_i origin request rest isOpen idle requests
        cases stepped
        exact orderly.serverRead isOpen idle requests
      · cases stepped
  | serverMove outcomes =>
      simp only [Connection.exec] at stepped
      split at stepped
      · rename_i origin prog isInHand
        split at stepped
        · rename_i rest node moved
          cases stepped
          exact orderly.serverMove isInHand moved
        · cases stepped
      · cases stepped
  | serverWrite =>
      simp only [Connection.exec] at stepped
      split at stepped
      · rename_i origin response isInHand
        cases stepped
        exact orderly.serverWrite isInHand
      · cases stepped
  | serverClose =>
      cases stepped
      exact orderly.serverClose
  | nodeChange node =>
      cases stepped
      exact orderly.nodeChange node

/-- When no call has been cut, the one that holds the mutex and is about to write
finds no response owed. -/
theorem owed_eq_nil (orderly : Orderly hash server connection) {index : Nat}
    {call : ClientCall} (found : connection.calls[index]? = some call)
    (writes : call.phase = .writing)
    (noneCut : ∀ other : ClientCall,
      other ∈ connection.calls → other.phase.isCut = false) :
    connection.owed = [] := by
  apply List.eq_nil_iff_forall_not_mem.mpr
  intro other isOwed
  obtain ⟨otherCall, otherFound, waits⟩ := orderly.awaited other isOwed
  rcases waits with reads | cut
  · have holds : call.phase.holds = true := by
      rw [writes]
      rfl
    have otherHolds : otherCall.phase.holds = true := by
      rw [reads]
      rfl
    have same := orderly.holder_unique found holds otherFound otherHolds
    rw [same, found] at otherFound
    cases otherFound
    rw [writes] at reads
    cases reads
  · rw [noneCut otherCall (List.mem_of_getElem? otherFound)] at cut
    cases cut

end Orderly

/-- Every connection of a run stays orderly. -/
theorem orderly_of_reachable {world : ConnectionWorld}
    (reachable :
      (system hash server).Reachable
        (fun connection label => connection.writesWhenNoneOwed label = true)
        world) :
    Orderly hash server world.state := by
  apply reachable.state_invariant
  · intro connection isNew
    obtain ⟨node, rfl⟩ := isNew
    exact Orderly.established node
  · intro label source target orderly admitted stepped
    exact orderly.exec admitted stepped

/-- While requests are written only when no response is owed, every call that
returns `Ok` returns what the server computed from its own request, whatever the
order of the calls and whichever of them are cut. -/
theorem responses_correlated {hash : String → UInt64} {server : KvServer}
    {world : ConnectionWorld}
    (reachable :
      (system hash server).Reachable
        (fun connection label => connection.writesWhenNoneOwed label = true)
        world) :
    world.state.Correlated hash server := by
  intro index call origin response found returns _
  have orderly := orderly_of_reachable reachable
  exact orderly.returned index call origin response found returns

/-- A node alone in its ring that stores a value under `a` only. -/
def storesOnlyA : NodeState :=
  { storage := (StorageEngine.new.put "a" [1] none 0).2, now := 0 }

/-- A call is cut while it waits for the mutex, two calls get their responses, and
a last one is cut when it has written its request. -/
theorem responses_correlated_four_calls :
    ∃ world : ConnectionWorld,
      world.state.calls =
          [{ request := .get "a", phase := .returned 0 (.value (some [1]) 0) },
            { request := .get "a", phase := .failed .elapsed },
            { request := .get "b", phase := .returned 2 (.value none 0) },
            { request := .get "a", phase := .cut (.io "rpc timeout") }] ∧
        world.state.Correlated Cluster.smallHash
          ((Cluster.small ["node-1"]).server "node-1") := by
  obtain ⟨world, reachable, checked⟩ :=
    System.exists_reachable_of_replay
      (system Cluster.smallHash ((Cluster.small ["node-1"]).server "node-1"))
      (fun connection label => connection.writesWhenNoneOwed label = true)
      (Connection.established storesOnlyA)
      [.call (.get "a"), .call (.get "a"), .lock 0, .writeMessage 0,
        .opTimeout 1, .serverRead, .serverMove [], .serverWrite,
        .readMessage 0,
        .call (.get "b"), .lock 2, .writeMessage 2, .serverRead,
        .serverMove [], .serverWrite, .readMessage 2,
        .call (.get "a"), .lock 3, .writeMessage 3, .rpcTimeout 3]
      (fun connection label => connection.writesWhenNoneOwed label)
      (fun world =>
        decide
          (world.state.calls =
            [{ request := .get "a"
               phase := .returned 0 (.value (some [1]) 0) },
              { request := .get "a", phase := .failed .elapsed },
              { request := .get "b", phase := .returned 2 (.value none 0) },
              { request := .get "a", phase := .cut (.io "rpc timeout") }]))
      ⟨_, rfl⟩ (fun _ _ admitted => admitted) (by decide +kernel)
  exact ⟨world, of_decide_eq_true checked, responses_correlated reachable⟩

/-- A `get` of `a` is cut when its request is written; the `get` of `b` that comes
next reads the response to it. -/
theorem not_responses_correlated :
    ¬ ∀ (hash : String → UInt64) (server : KvServer)
        (world : ConnectionWorld),
      (system hash server).Reachable (fun _ _ => True) world →
      world.state.Correlated hash server := by
  intro correlated
  obtain ⟨world, reachable, checked⟩ :=
    System.exists_reachable_of_replay
      (system Cluster.smallHash ((Cluster.small ["node-1"]).server "node-1"))
      (fun _ _ => True)
      (Connection.established storesOnlyA)
      [.call (.get "a"), .lock 0, .writeMessage 0, .opTimeout 0,
        .call (.get "b"), .lock 1, .writeMessage 1, .serverRead,
        .serverMove [], .serverWrite, .readMessage 1]
      (fun _ _ => true)
      (fun world =>
        decide
          (world.state.calls[1]? =
            some
              (ClientCall.mk (.get "b")
                (.returned 0 (.value (some [1]) 0)))))
      ⟨_, rfl⟩ (fun _ _ _ => trivial) (by decide +kernel)
  have found := of_decide_eq_true checked
  obtain ⟨wasOwn, _⟩ :=
    correlated Cluster.smallHash ((Cluster.small ["node-1"]).server "node-1")
      world reachable 1 _ 0 _ found rfl rfl
  cases wasOwn

end Connection

end HautePerformance.KvDistributed
