import HautePerformance.KvDistributed.Storage

/-!
# Requests and responses

The two enumerations of `protocol.rs`, for clients and between nodes alike.
-/

namespace HautePerformance.KvDistributed

inductive Request where
  | get (key : String)
  | put (key : String) (value : Bytes) (ttlMs : Option UInt64)
  | delete (key : String)
  | scan (keyPrefix : String) (limit : UInt32)
  | replicate (key : String) (value : Bytes) (version : UInt64)
      (ttlMs : Option UInt64) (sourceNodeId : UInt32)
  | heartbeat (nodeId : UInt32) (timestampMs : UInt64)
  deriving DecidableEq, Repr

inductive Response where
  | value (data : Option Bytes) (version : UInt64)
  | ack (version : UInt64) (nodeId : UInt32)
  | deleted (existed : Bool)
  | scanResult (items : List (String × Bytes))
  | pong (nodeId : UInt32) (keysCount : UInt64) (uptimeS : UInt64)
  | error (message : String)
  deriving DecidableEq, Repr

/-- Why a call gave no response: an I/O error, with its text, or the timeout
that the caller puts around the whole call. -/
inductive CallError where
  | io (message : String)
  | elapsed
  deriving DecidableEq, Repr

namespace CallError

/-- `to_string` of the error. -/
def text : CallError → String
  | .io message => message
  | .elapsed => "deadline has elapsed"

end CallError

/-! ## The `Debug` texts -/

/-- A character of a string under `{:?}`.  Characters beyond ASCII, some of which
Rust escapes too, are left as they are. -/
def debugChar (c : Char) : String :=
  if c = '\x22' then "\x5c\x22"
  else if c = '\x5c' then "\x5c\x5c"
  else if c = '\t' then "\x5ct"
  else if c = '\n' then "\x5cn"
  else if c = '\r' then "\x5cr"
  else if c.toNat = 0 then "\x5c0"
  else if c.toNat < 32 ∨ c.toNat = 127 then
    "\x5cu\x7b" ++ String.ofList (Nat.toDigits 16 c.toNat) ++ "\x7d"
  else String.singleton c

def debugString (text : String) : String :=
  "\x22" ++ String.join (text.toList.map debugChar) ++ "\x22"

def debugList (items : List String) : String :=
  "[" ++ ", ".intercalate items ++ "]"

def debugBytes (data : Bytes) : String :=
  debugList (data.map fun byte => toString byte.toNat)

/-- The derived `Debug` of `Response`. -/
def Response.debug : Response → String
  | .value data version =>
      "Value \x7b data: " ++
        (match data with
        | some bytes => "Some(" ++ debugBytes bytes ++ ")"
        | none => "None") ++
        ", version: " ++ toString version.toNat ++ " \x7d"
  | .ack version nodeId =>
      "Ack \x7b version: " ++ toString version.toNat ++ ", node_id: " ++
        toString nodeId.toNat ++ " \x7d"
  | .deleted existed => "Deleted(" ++ toString existed ++ ")"
  | .scanResult items =>
      "ScanResult(" ++
        debugList (items.map fun item =>
          "(" ++ debugString item.1 ++ ", " ++ debugBytes item.2 ++ ")") ++
        ")"
  | .pong nodeId keysCount uptimeS =>
      "Pong \x7b node_id: " ++ toString nodeId.toNat ++ ", keys_count: " ++
        toString keysCount.toNat ++ ", uptime_s: " ++ toString uptimeS.toNat ++
        " \x7d"
  | .error message => "Error(" ++ debugString message ++ ")"

example :
    (Response.value (some [1, 2]) 0).debug =
      "Value \x7b data: Some([1, 2]), version: 0 \x7d" := by
  decide

/-- `format!("réponse inattendue : {other:?}")`. -/
def unexpectedResponse (other : Response) : CallError :=
  .io ("réponse inattendue : " ++ other.debug)

/-! ## What the methods of `KvClient` make of the outcome of a call -/

namespace KvClient

/-- `KvClient::get`. -/
def get : Except CallError Response → Except CallError (Option Bytes)
  | .ok (.value data _) => .ok data
  | .ok (.error message) => .error (.io message)
  | .ok other => .error (unexpectedResponse other)
  | .error cause => .error cause

/-- `KvClient::put_with_ttl`. -/
def putWithTtl : Except CallError Response → Except CallError UInt64
  | .ok (.ack version _) => .ok version
  | .ok (.error message) => .error (.io message)
  | .ok other => .error (unexpectedResponse other)
  | .error cause => .error cause

/-- `KvClient::delete`. -/
def delete : Except CallError Response → Except CallError Bool
  | .ok (.deleted existed) => .ok existed
  | .ok (.error message) => .error (.io message)
  | .ok other => .error (unexpectedResponse other)
  | .error cause => .error cause

/-- `KvClient::scan`. -/
def scan : Except CallError Response → Except CallError (List (String × Bytes))
  | .ok (.scanResult items) => .ok items
  | .ok (.error message) => .error (.io message)
  | .ok other => .error (unexpectedResponse other)
  | .error cause => .error cause

/-- `KvClient::replicate`: any acknowledgement will do. -/
def replicate : Except CallError Response → Except CallError Unit
  | .ok (.ack _ _) => .ok ()
  | .ok (.error message) => .error (.io message)
  | .ok other => .error (unexpectedResponse other)
  | .error cause => .error cause

/-- `KvClient::heartbeat`: any response will do. -/
def heartbeat : Except CallError Response → Except CallError Response
  | outcome => outcome

theorem get_eq_ok {outcome : Except CallError Response} {data : Option Bytes}
    (succeeded : get outcome = .ok data) :
    ∃ version, outcome = .ok (.value data version) := by
  unfold get at succeeded
  split at succeeded
  · cases succeeded
    exact ⟨_, rfl⟩
  · cases succeeded
  · cases succeeded
  · cases succeeded

theorem putWithTtl_eq_ok {outcome : Except CallError Response}
    {version : UInt64} (succeeded : putWithTtl outcome = .ok version) :
    ∃ nodeId, outcome = .ok (.ack version nodeId) := by
  unfold putWithTtl at succeeded
  split at succeeded
  · cases succeeded
    exact ⟨_, rfl⟩
  · cases succeeded
  · cases succeeded
  · cases succeeded

theorem replicate_eq_ok {outcome : Except CallError Response}
    (succeeded : replicate outcome = .ok ()) :
    ∃ version nodeId, outcome = .ok (.ack version nodeId) := by
  unfold replicate at succeeded
  split at succeeded
  · exact ⟨_, _, rfl⟩
  · cases succeeded
  · cases succeeded
  · cases succeeded

end KvClient

end HautePerformance.KvDistributed
