import HautePerformance.KvDistributed.Wire

/-!
# A connection and what comes in on it

`handle_connection` of `server.rs` on a stream of any bytes.  `read_message` takes a
frame for a message when its payload begins with the encoding of one, so every stream
is, in one way only, frames followed by bytes at which reading stops.
-/

namespace HautePerformance.KvDistributed

open Library

variable {Message : Type}

/-! ## Frames -/

/-- A frame that is accepted: a message, and bytes that are dropped. -/
structure Frame (codec : Codec Message) where
  message : Message
  dropped : Bytes
  small : (codec.encode message ++ dropped).length ≤ maxFrameSize

namespace Frame

variable {codec : Codec Message}

def payload (frame : Frame codec) : Bytes :=
  codec.encode frame.message ++ frame.dropped

def bytes (frame : Frame codec) : Bytes :=
  frameHeader frame.payload.length ++ frame.payload

end Frame

/-- The bytes at which `read_message` returns an error. -/
inductive Stops (codec : Codec Message) : Bytes → IoError → Prop where
  | noHeader {rest : Bytes} (short : rest.length < 4) : Stops codec rest .unexpectedEof
  | cut {announced : Nat} {body : Bytes} (small : announced ≤ maxFrameSize)
      (short : body.length < announced) :
      Stops codec (frameHeader announced ++ body) .unexpectedEof
  | oversized {announced : Nat} {body : Bytes} (large : maxFrameSize < announced)
      (isWord : announced < 2 ^ 32) :
      Stops codec (frameHeader announced ++ body)
        (.invalidData ("frame trop grosse : " ++ toString announced ++ " octets"))
  | malformed {payload left : Bytes} (small : payload.length ≤ maxFrameSize)
      (noMessage : ∀ message dropped, payload ≠ codec.encode message ++ dropped) :
      Stops codec (frameHeader payload.length ++ (payload ++ left)) .malformed

/-! ## Reading a frame -/

theorem encode_ofNat {announced : Nat} (isWord : announced < 2 ^ 32) :
    Codec.u32.encode (UInt32.ofNat announced) = Codec.littleEndian 4 announced := by
  have fits : (UInt32.ofNat announced).toNat = announced := by
    rw [UInt32.toNat_ofNat']
    omega
  exact congrArg (Codec.littleEndian 4) fits

theorem ofLittleEndian_header {announced : Nat} (isWord : announced < 2 ^ 32) :
    Codec.ofLittleEndian (frameHeader announced).reverse = announced := by
  rw [frameHeader, List.reverse_reverse, encode_ofNat isWord]
  exact Codec.ofLittleEndian_littleEndian isWord

/-- Any four bytes announce a length. -/
theorem exists_announced {header : Bytes} (length : header.length = 4) :
    ∃ announced, announced < 2 ^ 32 ∧ header = frameHeader announced := by
  have reversed : header.reverse.length = 4 := by
    rw [List.length_reverse, length]
  have isWord := Codec.ofLittleEndian_lt header.reverse
  have sameBytes := Codec.littleEndian_ofLittleEndian header.reverse
  rw [reversed] at isWord sameBytes
  refine ⟨Codec.ofLittleEndian header.reverse, isWord, ?_⟩
  rw [frameHeader, encode_ofNat isWord, sameBytes, List.reverse_reverse]

theorem readMessage_bytes {codec : Codec Message} (frame : Frame codec)
    (further : Bytes) :
    readMessage codec (frame.bytes ++ further) = .ok (frame.message, further) := by
  have header :=
    Codec.readExact_append (length_frameHeader frame.payload.length)
      (frame.payload ++ further)
  have small : frame.payload.length ≤ maxFrameSize := frame.small
  have payload :
      Codec.readExact frame.payload.length (frame.payload ++ further) =
        some (frame.payload, further) :=
    Codec.readExact_append rfl further
  have bounded : (codec.encode frame.message).length < 2 ^ 64 := by
    rw [Frame.payload, List.length_append] at small
    unfold maxFrameSize at small
    omega
  have decoded : codec.decode frame.payload = some (frame.message, frame.dropped) :=
    codec.decode_encode frame.message frame.dropped bounded
  simp only [readMessage, Frame.bytes, List.append_assoc, header,
    ofLittleEndian_frameHeader small, Nat.not_lt.mpr small, if_false, payload, decoded]

/-- The last byte is dropped. -/
example : readMessage Request.codec
    [0, 0, 0, 14, 0, 0, 0, 0, 1, 0, 0, 0, 0, 0, 0, 0, 107, 9] = .ok (.get "k", []) := by
  decide

theorem readMessage_of_stops {codec : Codec Message} {rest : Bytes} {error : IoError}
    (stops : Stops codec rest error) : readMessage codec rest = .error error := by
  unfold readMessage
  cases stops with
  | noHeader short => rw [Codec.readExact_of_short short]
  | @cut announced body small short =>
      have header := Codec.readExact_append (length_frameHeader announced) body
      simp only [header, ofLittleEndian_frameHeader small, Nat.not_lt.mpr small,
        if_false, Codec.readExact_of_short short]
  | @oversized announced body large isWord =>
      have header := Codec.readExact_append (length_frameHeader announced) body
      simp only [header, ofLittleEndian_header isWord, large, if_true]
  | @malformed payload left small noMessage =>
      have header := Codec.readExact_append (length_frameHeader payload.length)
        (payload ++ left)
      have taken : Codec.readExact payload.length (payload ++ left) =
          some (payload, left) :=
        Codec.readExact_append rfl left
      have undecoded : codec.decode payload = none := by
        cases decoded : codec.decode payload with
        | none => rfl
        | some found =>
            exact absurd (codec.encode_of_decode payload found.1 found.2 decoded)
              (noMessage found.1 found.2)
      simp only [header, ofLittleEndian_frameHeader small, Nat.not_lt.mpr small,
        if_false, taken, undecoded]

/-- Any bytes begin with a frame, or reading stops at them. -/
theorem frame_or_stops (codec : Codec Message) (stream : Bytes) :
    (∃ (frame : Frame codec) (left : Bytes), stream = frame.bytes ++ left) ∨
      ∃ error, Stops codec stream error := by
  by_cases noHeader : stream.length < 4
  · exact Or.inr ⟨_, .noHeader noHeader⟩
  · have isHeader : (stream.take 4).length = 4 := by
      rw [List.length_take]
      omega
    obtain ⟨announced, isWord, header⟩ := exists_announced isHeader
    have split : stream = frameHeader announced ++ stream.drop 4 := by
      rw [← header, List.take_append_drop]
    generalize stream.drop 4 = body at split
    subst split
    by_cases large : maxFrameSize < announced
    · exact Or.inr ⟨_, .oversized large isWord⟩
    · have small : announced ≤ maxFrameSize := Nat.not_lt.mp large
      by_cases short : body.length < announced
      · exact Or.inr ⟨_, .cut small short⟩
      · obtain ⟨payload, left, rfl, rfl⟩ :
            ∃ payload left, body = payload ++ left ∧ announced = payload.length :=
          ⟨body.take announced, body.drop announced, (List.take_append_drop _ _).symm,
            (List.length_take_of_le (Nat.not_lt.mp short)).symm⟩
        by_cases isMessage : ∃ message dropped, payload = codec.encode message ++ dropped
        · obtain ⟨message, dropped, rfl⟩ := isMessage
          exact Or.inl
            ⟨⟨message, dropped, small⟩, left, (List.append_assoc _ _ _).symm⟩
        · refine Or.inr ⟨_, .malformed small fun message dropped same => ?_⟩
          exact isMessage ⟨message, dropped, same⟩

/-! ## Cutting a stream -/

/-- The frames of a stream, and the bytes at which reading stops. -/
structure Cut (codec : Codec Message) (stream : Bytes) (frames : List (Frame codec))
    (rest : Bytes) (error : IoError) : Prop where
  whole : stream = frames.flatMap Frame.bytes ++ rest
  stops : Stops codec rest error

namespace Cut

variable {codec : Codec Message} {stream rest : Bytes} {error : IoError}
variable {frames : List (Frame codec)}

theorem cons (cut : Cut codec stream frames rest error) (frame : Frame codec) :
    Cut codec (frame.bytes ++ stream) (frame :: frames) rest error where
  whole := by rw [List.flatMap_cons, List.append_assoc, ← cut.whole]
  stops := cut.stops

theorem readMessage_nil (cut : Cut codec stream [] rest error) :
    readMessage codec stream = .error error := by
  rw [cut.whole]
  exact readMessage_of_stops cut.stops

theorem readMessage_cons {frame : Frame codec}
    (cut : Cut codec stream (frame :: frames) rest error) :
    readMessage codec stream =
      .ok (frame.message, frames.flatMap Frame.bytes ++ rest) := by
  rw [cut.whole, List.flatMap_cons, List.append_assoc]
  exact readMessage_bytes frame _

end Cut

/-- A message and what is dropped after it are told apart. -/
theorem Frame.eq_of_bytes {codec : Codec Message} {first second : Frame codec}
    (sameMessage : first.message = second.message)
    (sameBytes : first.bytes = second.bytes) : first = second := by
  have lengths :
      (frameHeader first.payload.length).length =
        (frameHeader second.payload.length).length := by
    rw [length_frameHeader, length_frameHeader]
  have payloads : first.payload = second.payload :=
    (List.append_inj sameBytes lengths).2
  obtain ⟨message, dropped, small⟩ := first
  obtain ⟨_, otherDropped, otherSmall⟩ := second
  cases sameMessage
  have sameDropped : dropped = otherDropped := List.append_cancel_left payloads
  cases sameDropped
  rfl

theorem exists_cut (codec : Codec Message) :
    ∀ stream : Bytes, ∃ frames rest error, Cut codec stream frames rest error := by
  intro stream
  induction length : stream.length using Nat.strongRecOn generalizing stream with
  | ind size inductionHypothesis =>
      rcases frame_or_stops codec stream with ⟨frame, left, rfl⟩ | ⟨error, stops⟩
      · have shorter : left.length < size := by
          rw [← length, List.length_append, Frame.bytes, List.length_append,
            length_frameHeader]
          omega
        obtain ⟨frames, rest, error, cut⟩ := inductionHypothesis _ shorter left rfl
        exact ⟨frame :: frames, rest, error, cut.cons frame⟩
      · exact ⟨[], stream, error, rfl, stops⟩

/-- No stream is cut in two ways. -/
theorem Cut.unique {codec : Codec Message} {stream rest otherRest : Bytes}
    {frames otherFrames : List (Frame codec)} {error otherError : IoError}
    (cut : Cut codec stream frames rest error)
    (other : Cut codec stream otherFrames otherRest otherError) :
    frames = otherFrames ∧ rest = otherRest ∧ error = otherError := by
  induction frames generalizing stream otherFrames with
  | nil =>
      have stopped := cut.readMessage_nil
      cases otherFrames with
      | nil =>
          have otherStopped := other.readMessage_nil
          rw [stopped] at otherStopped
          have same := cut.whole.symm.trans other.whole
          exact ⟨rfl, same, by cases otherStopped; rfl⟩
      | cons frame later =>
          have isRead := other.readMessage_cons
          rw [stopped] at isRead
          cases isRead
  | cons frame later inductionHypothesis =>
      have isRead := cut.readMessage_cons
      cases otherFrames with
      | nil =>
          have stopped := other.readMessage_nil
          rw [isRead] at stopped
          cases stopped
      | cons otherFrame otherLater =>
          have otherRead := other.readMessage_cons
          rw [isRead, Except.ok.injEq, Prod.mk.injEq] at otherRead
          obtain ⟨sameMessage, sameLeft⟩ := otherRead
          have sameStream := cut.whole.symm.trans other.whole
          rw [List.flatMap_cons, List.flatMap_cons, List.append_assoc, List.append_assoc,
            sameLeft] at sameStream
          have sameFrame :=
            Frame.eq_of_bytes sameMessage (List.append_cancel_right sameStream)
          have earlier : Cut codec (later.flatMap Frame.bytes ++ rest) later rest error :=
            ⟨rfl, cut.stops⟩
          obtain ⟨sameFrames, sameRest, sameError⟩ :=
            inductionHypothesis earlier ⟨sameLeft, other.stops⟩
          exact ⟨by rw [sameFrame, sameFrames], sameRest, sameError⟩

/-! ## The loop of a connection -/

inductive ConnectionError where
  | io (error : IoError)
  /-- The peer does not take the response. -/
  | notTaken
  /-- The handler of the request panics: the task ends there and returns nothing. -/
  | panicked
  deriving DecidableEq, Repr

/-- What has happened on a connection when its task ends: the requests that have been
given to `handle_request`, what has been written, and how the task ends. -/
structure ConnectionEnd where
  requests : List Request
  written : Bytes
  result : Except ConnectionError Unit

/-- The end of the stream is a clean end, in the middle of a frame too. -/
def ended : IoError → Except ConnectionError Unit
  | .unexpectedEof => .ok ()
  | error => .error (.io error)

theorem length_lt_of_readMessage {codec : Codec Message} {stream left : Bytes}
    {message : Message} (isRead : readMessage codec stream = .ok (message, left)) :
    left.length < stream.length := by
  rcases frame_or_stops codec stream with ⟨frame, further, rfl⟩ | ⟨error, stops⟩
  · rw [readMessage_bytes] at isRead
    cases isRead
    rw [List.length_append, Frame.bytes, List.length_append, length_frameHeader]
    omega
  · rw [readMessage_of_stops stops] at isRead
    cases isRead

section Connection

-- What `handle_request` answers to the last of the requests, whatever the node has
-- done meanwhile, if it does not panic, and whether the peer takes it.
variable (respond : List Request → Option Response) (takes : List Request → Bool)

/-- The last request is answered, and the response is written. -/
def send (handled : List Request) : Except ConnectionError Bytes :=
  match respond handled with
  | none => .error .panicked
  | some response =>
      match writeMessage Response.codec response with
      | .error error => .error (.io error)
      | .ok frame => if takes handled then .ok frame else .error .notTaken

/-- `handle_connection` after it has handled some requests. -/
def handleConnection (handled : List Request) (stream : Bytes) : ConnectionEnd :=
  match isRead : readMessage Request.codec stream with
  | .error error => ⟨[], [], ended error⟩
  | .ok (request, left) =>
      match send respond takes (handled ++ [request]) with
      | .error error => ⟨[request], [], .error error⟩
      | .ok frame =>
          have := length_lt_of_readMessage isRead
          let later := handleConnection (handled ++ [request]) left
          ⟨request :: later.requests, frame ++ later.written, later.result⟩
termination_by stream.length

/-- The responses to the further requests, if all of them are written. -/
def sendAll (handled : List Request) : List Request → Except ConnectionError Bytes
  | [] => .ok []
  | request :: rest => do
      let frame ← send respond takes (handled ++ [request])
      let frames ← sendAll (handled ++ [request]) rest
      .ok (frame ++ frames)

variable {respond takes} {handled : List Request} {stream : Bytes}

theorem handleConnection_eq :
    handleConnection respond takes handled stream =
      match readMessage Request.codec stream with
      | .error error => ⟨[], [], ended error⟩
      | .ok (request, left) =>
          match send respond takes (handled ++ [request]) with
          | .error error => ⟨[request], [], .error error⟩
          | .ok frame =>
              let later := handleConnection respond takes (handled ++ [request]) left
              ⟨request :: later.requests, frame ++ later.written, later.result⟩ := by
  rw [handleConnection]
  split
  · rename_i error stops
    simp only [stops]
  · rename_i request left isRead
    simp only [isRead]

theorem handleConnection_of_stops {error : IoError}
    (stops : readMessage Request.codec stream = .error error) :
    handleConnection respond takes handled stream = ⟨[], [], ended error⟩ := by
  rw [handleConnection_eq, stops]

theorem handleConnection_of_not_sent {request : Request} {left : Bytes}
    {error : ConnectionError}
    (isRead : readMessage Request.codec stream = .ok (request, left))
    (fails : send respond takes (handled ++ [request]) = .error error) :
    handleConnection respond takes handled stream =
      ⟨[request], [], .error error⟩ := by
  rw [handleConnection_eq, isRead]
  simp only [fails]

theorem handleConnection_of_sent {request : Request} {left frame : Bytes}
    (isRead : readMessage Request.codec stream = .ok (request, left))
    (sent : send respond takes (handled ++ [request]) = .ok frame) :
    handleConnection respond takes handled stream =
      let later := handleConnection respond takes (handled ++ [request]) left
      ⟨request :: later.requests, frame ++ later.written, later.result⟩ := by
  rw [handleConnection_eq, isRead]
  simp only [sent]

/-- A connection handles the messages of its frames up to the first one of which the
response is not written. -/
theorem handles_frames {frames : List (Frame Request.codec)} {rest : Bytes}
    {error : IoError} (cut : Cut Request.codec stream frames rest error) :
    let connection := handleConnection respond takes handled stream
    let messages := frames.map Frame.message
    (connection.requests = messages ∧
        sendAll respond takes handled messages = .ok connection.written ∧
        connection.result = ended error) ∨
      ∃ earlier request later failure,
        messages = earlier ++ request :: later ∧
          connection.requests = earlier ++ [request] ∧
          sendAll respond takes handled earlier = .ok connection.written ∧
          send respond takes (handled ++ earlier ++ [request]) = .error failure ∧
          connection.result = .error failure := by
  induction frames generalizing handled stream with
  | nil =>
      rw [handleConnection_of_stops cut.readMessage_nil]
      exact Or.inl ⟨rfl, rfl, rfl⟩
  | cons frame frames inductionHypothesis =>
      have isRead := cut.readMessage_cons
      cases sent : send respond takes (handled ++ [frame.message]) with
      | error failure =>
          rw [handleConnection_of_not_sent isRead sent]
          refine Or.inr ⟨[], frame.message, frames.map Frame.message, failure, rfl, rfl,
            rfl, ?_, rfl⟩
          rw [List.append_nil]
          exact sent
      | ok first =>
          rw [handleConnection_of_sent isRead sent]
          have further : Cut Request.codec (frames.flatMap Frame.bytes ++ rest) frames
              rest error := ⟨rfl, cut.stops⟩
          rcases inductionHypothesis further with
            ⟨requests, written, result⟩ |
            ⟨earlier, request, later, failure, messages, requests, written, fails, result⟩
          · refine Or.inl ⟨?_, ?_, result⟩
            · rw [List.map_cons, ← requests]
            · simp only [List.map_cons, sendAll, sent, written]
              rfl
          · refine Or.inr
              ⟨frame.message :: earlier, request, later, failure, ?_, ?_, ?_, ?_, result⟩
            · rw [List.map_cons, messages, List.cons_append]
            · exact congrArg (List.cons frame.message) requests
            · simp only [sendAll, sent, written]
              rfl
            · rw [← fails, List.append_assoc handled [frame.message]]
              rfl

end Connection

/-- On a stream of any bytes, `handle_connection` handles the messages of the frames
that the stream begins with, which are the same however it is cut: all of them, and
what follows the last one decides what is returned; or those up to the first one whose
handler panics, or of which the response is too large or not taken. -/
theorem any_stream_handled (respond : List Request → Option Response)
    (takes : List Request → Bool) (stream : Bytes) :
    ∃ frames rest error,
      (∀ otherFrames otherRest otherError,
        Cut Request.codec stream otherFrames otherRest otherError ↔
          otherFrames = frames ∧ otherRest = rest ∧ otherError = error) ∧
        let connection := handleConnection respond takes [] stream
        let messages := frames.map Frame.message
        (connection.requests = messages ∧
            sendAll respond takes [] messages = .ok connection.written ∧
            connection.result = ended error) ∨
          ∃ earlier request later failure,
            messages = earlier ++ request :: later ∧
              connection.requests = earlier ++ [request] ∧
              sendAll respond takes [] earlier = .ok connection.written ∧
              send respond takes (earlier ++ [request]) = .error failure ∧
              connection.result = .error failure := by
  obtain ⟨frames, rest, error, cut⟩ := exists_cut Request.codec stream
  refine ⟨frames, rest, error, ?_, handles_frames cut⟩
  intro otherFrames otherRest otherError
  constructor
  · exact fun other => other.unique cut
  · rintro ⟨rfl, rfl, rfl⟩
    exact cut

end HautePerformance.KvDistributed
