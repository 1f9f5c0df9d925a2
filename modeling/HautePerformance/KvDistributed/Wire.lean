import HautePerformance.Library.Codec
import HautePerformance.KvDistributed.Protocol

/-!
# Messages on the wire

The framing of `protocol.rs`: the length of the payload in four bytes, the highest
first, then the payload in the default format of bincode.  A stream is what its
reader can still receive before the end.
-/

namespace HautePerformance.KvDistributed

open Library

/-! ## Payloads -/

/-- The variants of `Request`, in declaration order. -/
inductive RequestVariant where
  | get
  | put
  | delete
  | scan
  | replicate
  | heartbeat
  deriving DecidableEq, Repr

/-- The variants of `Response`, in declaration order. -/
inductive ResponseVariant where
  | value
  | ack
  | deleted
  | scanResult
  | pong
  | error
  deriving DecidableEq, Repr

namespace RequestVariant

def codec : Codec RequestVariant :=
  Codec.enumeration [get, put, delete, scan, replicate, heartbeat]
    (by intro variant; cases variant <;> decide) (by decide) (by decide)

/-- The fields of a variant. -/
abbrev Fields : RequestVariant → Type
  | get => String
  | put => String × Bytes × Option UInt64
  | delete => String
  | scan => String × UInt32
  | replicate => String × Bytes × UInt64 × Option UInt64 × UInt32
  | heartbeat => UInt32 × UInt64

def fields : ∀ variant, Codec (Fields variant)
  | get => .string
  | put => .pair .string (.pair .bytes (.option .u64))
  | delete => .string
  | scan => .pair .string .u32
  | replicate =>
      .pair .string (.pair .bytes (.pair .u64 (.pair (.option .u64) .u32)))
  | heartbeat => .pair .u32 .u64

end RequestVariant

namespace Request

open RequestVariant in
/-- A request as its variant and its fields. -/
def toFields : Request → Sigma Fields
  | .get key => ⟨RequestVariant.get, key⟩
  | .put key value ttlMs => ⟨RequestVariant.put, key, value, ttlMs⟩
  | .delete key => ⟨RequestVariant.delete, key⟩
  | .scan keyPrefix limit => ⟨RequestVariant.scan, keyPrefix, limit⟩
  | .replicate key value version ttlMs sourceNodeId =>
      ⟨RequestVariant.replicate, key, value, version, ttlMs, sourceNodeId⟩
  | .heartbeat nodeId timestampMs =>
      ⟨RequestVariant.heartbeat, nodeId, timestampMs⟩

open RequestVariant in
def ofFields : Sigma Fields → Request
  | ⟨RequestVariant.get, key⟩ => .get key
  | ⟨RequestVariant.put, key, value, ttlMs⟩ => .put key value ttlMs
  | ⟨RequestVariant.delete, key⟩ => .delete key
  | ⟨RequestVariant.scan, keyPrefix, limit⟩ => .scan keyPrefix limit
  | ⟨RequestVariant.replicate, key, value, version, ttlMs, sourceNodeId⟩ =>
      .replicate key value version ttlMs sourceNodeId
  | ⟨RequestVariant.heartbeat, nodeId, timestampMs⟩ =>
      .heartbeat nodeId timestampMs

/-- `bincode` on requests. -/
def codec : Codec Request :=
  (RequestVariant.codec.sigma RequestVariant.fields).through toFields
    (fun raw => some (ofFields raw))
    (by intro request; cases request <;> rfl)
    (by
      intro raw request same
      cases same
      obtain ⟨variant, content⟩ := raw
      cases variant <;> rfl)

end Request

namespace ResponseVariant

def codec : Codec ResponseVariant :=
  Codec.enumeration [value, ack, deleted, scanResult, pong, error]
    (by intro variant; cases variant <;> decide) (by decide) (by decide)

/-- A key and a value of a scan. -/
def item : Codec (String × Bytes) :=
  .pair .string .bytes

theorem item_nonempty (entry : String × Bytes) : 0 < item.size entry := by
  rw [item, Codec.size_pair, Codec.size_string]
  omega

/-- The fields of a variant. -/
abbrev Fields : ResponseVariant → Type
  | value => Option Bytes × UInt64
  | ack => UInt64 × UInt32
  | deleted => Bool
  | scanResult => List (String × Bytes)
  | pong => UInt32 × UInt64 × UInt64
  | error => String

def fields : ∀ variant, Codec (Fields variant)
  | value => .pair (.option .bytes) .u64
  | ack => .pair .u64 .u32
  | deleted => .bool
  | scanResult => .list item item_nonempty
  | pong => .pair .u32 (.pair .u64 .u64)
  | error => .string

end ResponseVariant

namespace Response

open ResponseVariant in
/-- A response as its variant and its fields. -/
def toFields : Response → Sigma Fields
  | .value data version => ⟨ResponseVariant.value, data, version⟩
  | .ack version nodeId => ⟨ResponseVariant.ack, version, nodeId⟩
  | .deleted existed => ⟨ResponseVariant.deleted, existed⟩
  | .scanResult items => ⟨ResponseVariant.scanResult, items⟩
  | .pong nodeId keysCount uptimeS =>
      ⟨ResponseVariant.pong, nodeId, keysCount, uptimeS⟩
  | .error message => ⟨ResponseVariant.error, message⟩

open ResponseVariant in
def ofFields : Sigma Fields → Response
  | ⟨ResponseVariant.value, data, version⟩ => .value data version
  | ⟨ResponseVariant.ack, version, nodeId⟩ => .ack version nodeId
  | ⟨ResponseVariant.deleted, existed⟩ => .deleted existed
  | ⟨ResponseVariant.scanResult, items⟩ => .scanResult items
  | ⟨ResponseVariant.pong, nodeId, keysCount, uptimeS⟩ =>
      .pong nodeId keysCount uptimeS
  | ⟨ResponseVariant.error, message⟩ => .error message

/-- `bincode` on responses. -/
def codec : Codec Response :=
  (ResponseVariant.codec.sigma ResponseVariant.fields).through toFields
    (fun raw => some (ofFields raw))
    (by intro response; cases response <;> rfl)
    (by
      intro raw response same
      cases same
      obtain ⟨variant, content⟩ := raw
      cases variant <;> rfl)

end Response

example : Request.codec.encode (.scan "k" 3) =
    [3, 0, 0, 0, 1, 0, 0, 0, 0, 0, 0, 0, 107, 3, 0, 0, 0] := by
  decide

example : Response.codec.decode [2, 0, 0, 0, 1, 9] =
    some (.deleted true, [9]) := by
  decide

/-! ## Frames -/

inductive IoError where
  | unexpectedEof
  /-- `ErrorKind::InvalidData` with a text of `protocol.rs`. -/
  | invalidData (message : String)
  /-- `ErrorKind::InvalidData` with an error of bincode. -/
  | malformed
  deriving DecidableEq, Repr

/-- `MAX_FRAME_SIZE`. -/
def maxFrameSize : Nat :=
  16 * 1024 * 1024

variable {Message : Type}

/-- `write_message`: what it appends to the stream. -/
def writeMessage (codec : Codec Message) (message : Message) :
    Except IoError Bytes :=
  let payload := codec.encode message
  if maxFrameSize < payload.length then
    .error
      (.invalidData
        ("message trop volumineux : " ++ toString payload.length ++ " octets"))
  else
    let header := UInt32.ofNat payload.length
    .ok ((Codec.u32.encode header).reverse ++ payload)

/-- `read_message`: the message and what remains of the stream.  Bytes that follow
the message in its frame are dropped. -/
def readMessage (codec : Codec Message) (stream : Bytes) :
    Except IoError (Message × Bytes) :=
  match Codec.readExact 4 stream with
  | none => .error .unexpectedEof
  | some (header, rest) =>
      let length := Codec.ofLittleEndian header.reverse
      if maxFrameSize < length then
        .error
          (.invalidData
            ("frame trop grosse : " ++ toString length ++ " octets"))
      else
        match Codec.readExact length rest with
        | none => .error .unexpectedEof
        | some (payload, left) =>
            match codec.decode payload with
            | some (message, _) => .ok (message, left)
            | none => .error .malformed

/-- Messages written one after the other. -/
def writeMessages (codec : Codec Message) :
    List Message → Except IoError Bytes
  | [] => .ok []
  | message :: rest => do
      let frame ← writeMessage codec message
      let frames ← writeMessages codec rest
      .ok (frame ++ frames)

/-- That many messages read one after the other. -/
def readMessages (codec : Codec Message) :
    Nat → Bytes → Except IoError (List Message × Bytes)
  | 0, stream => .ok ([], stream)
  | count + 1, stream => do
      let (message, left) ← readMessage codec stream
      let (messages, rest) ← readMessages codec count left
      .ok (message :: messages, rest)

/-! ## Round trips -/

/-- The four bytes that announce a length. -/
def frameHeader (length : Nat) : Bytes :=
  (Codec.u32.encode (UInt32.ofNat length)).reverse

@[simp]
theorem length_frameHeader (length : Nat) :
    (frameHeader length).length = 4 := by
  rw [frameHeader, List.length_reverse]
  exact Codec.length_littleEndian _ _

/-- The header of a frame is read as the length that it announces. -/
theorem ofLittleEndian_frameHeader {length : Nat}
    (small : length ≤ maxFrameSize) :
    Codec.ofLittleEndian (frameHeader length).reverse = length := by
  have fits : (UInt32.ofNat length).toNat = length := by
    rw [UInt32.toNat_ofNat']
    unfold maxFrameSize at small
    omega
  have encoded : Codec.u32.encode (UInt32.ofNat length) =
      Codec.littleEndian 4 length := by
    rw [← congrArg (Codec.littleEndian 4) fits]
    rfl
  rw [frameHeader, List.reverse_reverse, encoded]
  apply Codec.ofLittleEndian_littleEndian
  unfold maxFrameSize at small
  omega

/-- `write_message` succeeds exactly on payloads within the limit. -/
theorem writeMessage_eq_ok_iff {codec : Codec Message} {message : Message}
    {frame : Bytes} :
    writeMessage codec message = .ok frame ↔
      codec.size message ≤ maxFrameSize ∧
        frame = frameHeader (codec.size message) ++ codec.encode message := by
  simp only [writeMessage]
  split
  · rename_i tooLarge
    constructor
    · intro impossible
      cases impossible
    · intro given
      exact absurd tooLarge (Nat.not_lt.mpr given.1)
  · rename_i small
    constructor
    · intro same
      cases same
      exact ⟨Nat.not_lt.mp small, rfl⟩
    · intro given
      rw [given.2]
      rfl

theorem readMessage_frame {codec : Codec Message} {message : Message}
    (small : codec.size message ≤ maxFrameSize) (further : Bytes) :
    readMessage codec
        (frameHeader (codec.size message) ++ codec.encode message ++
          further) =
      .ok (message, further) := by
  have header :=
    Codec.readExact_append (length_frameHeader (codec.size message))
      (codec.encode message ++ further)
  have announced := ofLittleEndian_frameHeader small
  have payload :
      Codec.readExact (codec.size message) (codec.encode message ++ further) =
        some (codec.encode message, further) :=
    Codec.readExact_append rfl further
  have bounded : (codec.encode message).length < 2 ^ 64 := by
    have sameSize : (codec.encode message).length = codec.size message := rfl
    unfold maxFrameSize at small
    omega
  have decoded := codec.decode_encode message [] bounded
  rw [List.append_nil] at decoded
  simp only [readMessage, List.append_assoc, header, announced,
    Nat.not_lt.mpr small, if_false, payload, decoded]

/-- A frame cut short is never a message. -/
theorem readMessage_cut {codec : Codec Message} {message : Message}
    (small : codec.size message ≤ maxFrameSize) {cut : Bytes}
    (isPrefix :
      cut <+: frameHeader (codec.size message) ++ codec.encode message)
    (strict :
      cut ≠ frameHeader (codec.size message) ++ codec.encode message) :
    readMessage codec cut = .error .unexpectedEof := by
  have header := length_frameHeader (codec.size message)
  have size : (codec.encode message).length = codec.size message := rfl
  have shorter : cut.length < 4 + codec.size message := by
    have whole :
        (frameHeader (codec.size message) ++ codec.encode message).length =
          4 + codec.size message := by
      rw [List.length_append, header, size]
    have notLonger := isPrefix.length_le
    have different : cut.length ≠
        (frameHeader (codec.size message) ++ codec.encode message).length := by
      intro same
      exact strict (isPrefix.eq_of_length same)
    omega
  unfold readMessage
  by_cases noHeader : cut.length < 4
  · rw [Codec.readExact_of_short noHeader]
  · have isHeader : frameHeader (codec.size message) <+: cut :=
      List.prefix_of_prefix_length_le (List.prefix_append _ _) isPrefix
        (by omega)
    obtain ⟨rest, isCut⟩ := isHeader
    have restShort : rest.length < codec.size message := by
      rw [← isCut, List.length_append, header] at shorter
      omega
    have isRead := Codec.readExact_append header rest
    simp only [← isCut, isRead, ofLittleEndian_frameHeader small,
      Nat.not_lt.mpr small, if_false, Codec.readExact_of_short restShort]

/-- What is written message by message is read message by message. -/
theorem readMessages_writeMessages (codec : Codec Message) :
    ∀ messages : List Message,
      (∀ message, message ∈ messages → codec.size message ≤ maxFrameSize) →
      ∃ stream,
        writeMessages codec messages = .ok stream ∧
          ∀ further,
            readMessages codec messages.length (stream ++ further) =
              .ok (messages, further)
  | [], _ => ⟨[], rfl, fun _ => rfl⟩
  | message :: rest, small => by
      have headSmall := small message List.mem_cons_self
      obtain ⟨frames, written, isRead⟩ :=
        readMessages_writeMessages codec rest
          (fun other member => small other (List.mem_cons_of_mem _ member))
      have frameWritten :=
        writeMessage_eq_ok_iff.mpr ⟨headSmall, Eq.refl
          (frameHeader (codec.size message) ++ codec.encode message)⟩
      refine ⟨frameHeader (codec.size message) ++ codec.encode message ++
        frames, ?_, ?_⟩
      · simp only [writeMessages, frameWritten, written]
        rfl
      · intro further
        have first := readMessage_frame headSmall (frames ++ further)
        rw [← List.append_assoc] at first
        simp only [List.length_cons, readMessages, first]
        simp only [isRead further, bind, Except.bind]

/-- The wire protocol round trip.  Messages within the limit, written one after the
other, are read back in order, and what follows them is left unread; a frame cut
short is reported as the end of the stream. -/
theorem wire_round_trip :
    (∀ requests : List Request,
      (∀ request, request ∈ requests →
        Request.codec.size request ≤ maxFrameSize) →
      ∃ stream,
        writeMessages Request.codec requests = .ok stream ∧
          ∀ further,
            readMessages Request.codec requests.length (stream ++ further) =
              .ok (requests, further)) ∧
    (∀ responses : List Response,
      (∀ response, response ∈ responses →
        Response.codec.size response ≤ maxFrameSize) →
      ∃ stream,
        writeMessages Response.codec responses = .ok stream ∧
          ∀ further,
            readMessages Response.codec responses.length (stream ++ further) =
              .ok (responses, further)) ∧
    (∀ (request : Request) (frame cut : Bytes),
      writeMessage Request.codec request = .ok frame →
      cut <+: frame → cut ≠ frame →
      readMessage Request.codec cut = .error .unexpectedEof) ∧
    (∀ (response : Response) (frame cut : Bytes),
      writeMessage Response.codec response = .ok frame →
      cut <+: frame → cut ≠ frame →
      readMessage Response.codec cut = .error .unexpectedEof) := by
  refine ⟨readMessages_writeMessages Request.codec,
    readMessages_writeMessages Response.codec, ?_, ?_⟩
  · intro request frame cut written isPrefix strict
    obtain ⟨small, rfl⟩ := writeMessage_eq_ok_iff.mp written
    exact readMessage_cut small isPrefix strict
  · intro response frame cut written isPrefix strict
    obtain ⟨small, rfl⟩ := writeMessage_eq_ok_iff.mp written
    exact readMessage_cut small isPrefix strict

/-- Two requests of different shapes, and the first byte of the frame of an
acknowledgement. -/
theorem wire_round_trip_two_requests :
    (∃ stream,
      writeMessages Request.codec [.get "k", .heartbeat 1 2] = .ok stream ∧
        ∀ further,
          readMessages Request.codec 2 (stream ++ further) =
            .ok ([.get "k", .heartbeat 1 2], further)) ∧
      readMessage Response.codec [0] = .error .unexpectedEof := by
  have small (request : Request) (member : request ∈
      [Request.get "k", Request.heartbeat 1 2]) :
      Request.codec.size request ≤ maxFrameSize := by
    revert request
    decide
  have cutShort :=
    wire_round_trip.2.2.2 (.ack 1 1)
      [0, 0, 0, 16, 1, 0, 0, 0, 1, 0, 0, 0, 0, 0, 0, 0, 1, 0, 0, 0] [0]
      (by decide) (by decide) (by decide)
  exact ⟨wire_round_trip.1 [.get "k", .heartbeat 1 2] small, cutShort⟩

end HautePerformance.KvDistributed
