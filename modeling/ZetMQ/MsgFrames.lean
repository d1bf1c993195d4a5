import ZetMQ.FrameReceiver
import ZetMQ.HeaderCodec

/-! What the server writes to a connection and what the client makes of it. Messages
are encoded straight into the write buffer, lengths first; the client decodes frames
and takes messages apart again. -/
namespace ZetMQ.MsgFrames
open Utf8Text Utf8Codec ByteBuffer Frames KeyedTable SubjectGrammar Delivery Commands FrameCodec
open FrameReceiver HeaderCodec

inductive OutboundFrame where
  | raw (frame : Frame)
  | msg (message : DeliveryMessage)

def replySection : Option Subject → Bytes
  | some reply => toBe 2 (encode reply.raw).length ++ encode reply.raw
  | none => toBe 2 0

def msgHeader (order : HeaderOrder) (msg : DeliveryMessage) : FrameHeader :=
  let subjBytes := encode msg.subject.raw
  let replyLen := (msg.replyTo.map fun reply => utf8Len reply.raw).getD 0
  let payloadLen := 2 + subjBytes.length + 2 + replyLen + 8 + msg.payload.length
  let headersLen := (msg.headers.map (encodedHeadersLen order)).getD 0
  (FrameHeader.new FrameType.msg.asU8 msg.subscriptionId).withPayloadSize
    (headersLen % 2 ^ 32) (payloadLen % 2 ^ 32)

def encodeMsgInto (order : HeaderOrder) (msg : DeliveryMessage) (buf : Bytes) : Bytes :=
  let subjBytes := encode msg.subject.raw
  buf ++ (msgHeader order msg).encode ++ headersSection order msg.headers ++
    toBe 2 subjBytes.length ++ subjBytes ++ replySection msg.replyTo ++
    toBe 8 msg.subscriptionId ++ msg.payload

def encodeOutbound (order : HeaderOrder) (outbound : OutboundFrame) (buf : Bytes) : Bytes :=
  match outbound with
  | .raw frame => buf ++ frame.encode
  | .msg msg => encodeMsgInto order msg buf

/-- A message as the subscriber gets it. -/
structure ClientMessage where
  subject : Bytes
  replyTo : Option Bytes
  headers : Option HeaderMap
  payload : Bytes

inductive MsgFailure where
  | protocol (e : ProtocolError)
  | sliceOutOfBounds

def parseMsg (frame : Frame) : Except MsgFailure (ℕ × ClientMessage) :=
  let payload := frame.payload
  if payload.length < 2 then .error (.protocol (.decodingError "MSG too short".toList))
  else
    let subjLen := beAt payload 0 2
    if payload.length < 2 + subjLen + 2 then
      .error (.protocol (.decodingError "MSG subject truncated".toList))
    else
      let subject := slice payload 2 (2 + subjLen)
      let replyLen := beAt payload (2 + subjLen) 2
      let offset := 2 + subjLen + 2
      if 0 < replyLen ∧ payload.length < offset + replyLen then .error .sliceOutOfBounds
      else
        let replyTo :=
          if 0 < replyLen then some (slice payload offset (offset + replyLen)) else none
        let dataOffset := offset + replyLen
        if payload.length < dataOffset + 8 then
          .error (.protocol (.decodingError "MSG sub_id truncated".toList))
        else
          match headersFromFrame frame.headers with
          | .error e => .error (.protocol e)
          | .ok headers =>
            .ok (beAt payload dataOffset 8,
              ⟨subject, replyTo, headers, payload.drop (dataOffset + 8)⟩)

def msgPayload (msg : DeliveryMessage) : Bytes :=
  toBe 2 (encode msg.subject.raw).length ++ encode msg.subject.raw ++ replySection msg.replyTo ++
    toBe 8 msg.subscriptionId ++ msg.payload

def msgFrame (order : HeaderOrder) (msg : DeliveryMessage) : Frame :=
  ⟨msgHeader order msg, headersSection order msg.headers, msgPayload msg⟩

theorem encodeMsgInto_eq (order : HeaderOrder) (msg : DeliveryMessage) (buf : Bytes) :
    encodeMsgInto order msg buf = buf ++ (msgFrame order msg).encode := by
  simp only [encodeMsgInto, Frame.encode, msgFrame, msgPayload, List.append_assoc]

theorem replySection_length (reply : Option Subject) : (replySection reply).length =
    2 + (reply.map fun reply => utf8Len reply.raw).getD 0 := by
  cases reply with
  | none => rfl
  | some reply =>
    rw [replySection, List.length_append, toBe_length, encode_length]
    rfl

theorem msgHeader_lens (order : HeaderOrder) (msg : DeliveryMessage) :
    (msgHeader order msg).headerLen = (headersSection order msg.headers).length % 2 ^ 32 ∧
      (msgHeader order msg).payloadLen = (msgPayload msg).length % 2 ^ 32 := by
  constructor
  · change (msg.headers.map (encodedHeadersLen order)).getD 0 % 2 ^ 32 = _
    cases msg.headers with
    | none => rfl
    | some headers =>
      rw [Option.map_some, Option.getD_some, encodedHeadersLen_eq]
      rfl
  · change (2 + (encode msg.subject.raw).length + 2 +
      (msg.replyTo.map fun reply => utf8Len reply.raw).getD 0 + 8 + msg.payload.length) % 2 ^ 32 = _
    simp only [msgPayload, List.length_append, toBe_length, replySection_length, Nat.add_assoc]

theorem wellFormed_msg {order : HeaderOrder} {msg : DeliveryMessage} {maxFrameSize : ℕ}
    (id : msg.subscriptionId < 2 ^ 64) (limit : maxFrameSize < 2 ^ 32)
    (fits : (msgFrame order msg).encode.length ≤ maxFrameSize) :
    WellFormed maxFrameSize (msgFrame order msg) := by
  rw [frame_encode_length] at fits
  obtain ⟨headerLen, payloadLen⟩ := msgHeader_lens order msg
  have headers : (headersSection order msg.headers).length =
      (msgFrame order msg).headers.length := rfl
  have payload : (msgPayload msg).length = (msgFrame order msg).payload.length := rfl
  rw [Nat.mod_eq_of_lt (by omega)] at headerLen payloadLen
  exact
    { magic := rfl
      version := rfl
      sized := ⟨show zetmqMagic < 2 ^ 16 by decide, show 0 < 2 ^ 16 by decide, id,
        show (msgHeader order msg).headerLen < _ by omega,
        show (msgHeader order msg).payloadLen < _ by omega⟩
      headerLen := headerLen
      payloadLen := payloadLen
      fits := fits }

theorem subject_ne_nil (subject : Subject) : subject.raw ≠ [] := by
  intro empty
  have split := subject.split
  rw [empty] at split
  exact subject.filled [] (split ▸ List.mem_singleton.mpr rfl) rfl

theorem subject_length (subject : Subject) :
    0 < (encode subject.raw).length ∧ (encode subject.raw).length ≤ 512 := by
  have positive := List.length_pos_iff.mpr (subject_ne_nil subject)
  refine ⟨positive.trans_le (length_le_encode _), ?_⟩
  rw [encode_length]
  exact subject.short

def addressed (subject reply rest : Bytes) : Bytes :=
  toBe 2 subject.length ++ subject ++ toBe 2 reply.length ++ reply ++ rest

section
variable {subject reply rest : Bytes}

theorem addressed_length (subject reply rest : Bytes) :
    (addressed subject reply rest).length =
      2 + subject.length + 2 + reply.length + rest.length := by
  simp only [addressed, List.length_append, toBe_length]

theorem addressed_subject (short : subject.length ≤ 65535) :
    beAt (addressed subject reply rest) 0 2 = subject.length ∧
      slice (addressed subject reply rest) 2 (2 + subject.length) = subject := by
  constructor
  · refine @beAt_written _ [] (subject ++ toBe 2 reply.length ++ reply ++ rest) 0 2 _ ?_ rfl
      (by omega)
    simp only [addressed, List.append_assoc, List.nil_append]
  · refine @slice_written _ (toBe 2 subject.length) subject
      (toBe 2 reply.length ++ reply ++ rest) _ _ ?_ (toBe_length _ _) rfl
    simp only [addressed, List.append_assoc]

theorem addressed_reply (short : reply.length ≤ 65535) :
    beAt (addressed subject reply rest) (2 + subject.length) 2 = reply.length ∧
      slice (addressed subject reply rest) (2 + subject.length + 2)
        (2 + subject.length + 2 + reply.length) = reply := by
  constructor
  · refine @beAt_written _ (toBe 2 subject.length ++ subject) (reply ++ rest) _ 2 _ ?_ ?_ (by omega)
    · simp only [addressed, List.append_assoc]
    · rw [List.length_append, toBe_length]
  · refine @slice_written _ (toBe 2 subject.length ++ subject ++ toBe 2 reply.length) reply rest
      _ _ rfl ?_ rfl
    simp only [List.length_append, toBe_length]

theorem addressed_drop (subject reply rest : Bytes) (n : ℕ) :
    (addressed subject reply rest).drop (2 + subject.length + 2 + reply.length + n) =
      rest.drop n := by
  have front : (toBe 2 subject.length ++ subject ++ toBe 2 reply.length ++ reply).length =
      2 + subject.length + 2 + reply.length := by
    simp only [List.length_append, toBe_length]
  rw [addressed, ← front, ← List.drop_drop, List.drop_left]

end

def replyBytes (reply : Option Subject) : Bytes := (reply.map fun reply => encode reply.raw).getD []

theorem replySection_eq (reply : Option Subject) :
    replySection reply = toBe 2 (replyBytes reply).length ++ replyBytes reply := by
  cases reply <;> rfl

theorem replyBytes_length (reply : Option Subject) : (replyBytes reply).length ≤ 512 := by
  cases reply with
  | none => decide
  | some reply => exact (subject_length reply).2

theorem replyBytes_some (reply : Option Subject) :
    (if 0 < (replyBytes reply).length then some (replyBytes reply) else none) =
      reply.map fun reply => encode reply.raw := by
  cases reply with
  | none => rfl
  | some reply => exact if_pos (subject_length reply).1

theorem msgPayload_eq (msg : DeliveryMessage) :
    msgPayload msg = addressed (encode msg.subject.raw) (replyBytes msg.replyTo)
      (toBe 8 msg.subscriptionId ++ msg.payload) := by
  simp only [msgPayload, addressed, replySection_eq, List.append_assoc]

theorem parseMsg_msgFrame {order : HeaderOrder} {msg : DeliveryMessage}
    (id : msg.subscriptionId < 2 ^ 64) {decoded : Option HeaderMap}
    (headers : headersFromFrame (headersSection order msg.headers) = .ok decoded) :
    parseMsg (msgFrame order msg) = .ok (msg.subscriptionId,
      ⟨encode msg.subject.raw, msg.replyTo.map fun reply => encode reply.raw, decoded,
        msg.payload⟩) := by
  have subjectShort := (subject_length msg.subject).2
  have replyShort := replyBytes_length msg.replyTo
  let tail := toBe 8 msg.subscriptionId ++ msg.payload
  obtain ⟨subjLen, subject⟩ := @addressed_subject (encode msg.subject.raw)
    (replyBytes msg.replyTo) tail (by omega)
  obtain ⟨replyLen, reply⟩ := @addressed_reply (encode msg.subject.raw)
    (replyBytes msg.replyTo) tail (by omega)
  have length := addressed_length (encode msg.subject.raw) (replyBytes msg.replyTo) tail
  have tailLength : tail.length = 8 + msg.payload.length := by
    rw [List.length_append, toBe_length]
  have idField : beAt (addressed (encode msg.subject.raw) (replyBytes msg.replyTo) tail)
      (2 + (encode msg.subject.raw).length + 2 + (replyBytes msg.replyTo).length) 8 =
      msg.subscriptionId := by
    have dropped := addressed_drop (encode msg.subject.raw) (replyBytes msg.replyTo) tail 0
    rw [List.drop_zero, Nat.add_zero] at dropped
    have field := beAt_drop (addressed (encode msg.subject.raw) (replyBytes msg.replyTo) tail)
      (2 + (encode msg.subject.raw).length + 2 + (replyBytes msg.replyTo).length) 0 8
    rw [dropped, Nat.add_zero] at field
    rw [← field]
    exact @beAt_written _ [] msg.payload 0 8 _ rfl rfl id
  have data := addressed_drop (encode msg.subject.raw) (replyBytes msg.replyTo) tail 8
  rw [List.drop_left' (toBe_length _ _)] at data
  unfold parseMsg
  simp only [msgFrame, msgPayload_eq]
  rw [subjLen, replyLen, subject, reply, length, if_neg (by omega), if_neg (by omega),
    if_neg (by omega), replyBytes_some, if_neg (by omega), headers, idField, data]

/-- The limit in the client's read task. -/
def clientMaxFrameSize : ℕ := 2 * 1024 * 1024

def encodeAll (outbound : List (HeaderOrder × OutboundFrame)) : Bytes :=
  outbound.foldl (fun buf entry => encodeOutbound entry.1 entry.2 buf) []

/-- What the server gives to the write task: frames of its constructors, and messages
whose header map fits its length fields. -/
def Sendable : OutboundFrame → Prop
  | .raw frame => ∃ frameType correlationId payload, correlationId < 2 ^ 64 ∧
      frame = (Frame.new frameType correlationId).withPayload payload
  | .msg msg => msg.subscriptionId < 2 ^ 64 ∧ ∀ headers ∈ msg.headers, Fits headers

/-- The frame that the client decodes stands for the outbound frame. -/
def Carries : OutboundFrame → Frame → Prop
  | .raw sent, frame => frame = sent
  | .msg msg, frame => FrameType.fromU8 frame.header.frameType = .ok .msg ∧
      ∃ headers, Option.Rel SameMap msg.headers headers ∧
        parseMsg frame = .ok (msg.subscriptionId, ⟨encode msg.subject.raw,
          msg.replyTo.map fun reply => encode reply.raw, headers, msg.payload⟩)

def frameOf : HeaderOrder × OutboundFrame → Frame
  | (_, .raw frame) => frame
  | (order, .msg msg) => msgFrame order msg

theorem encodeOutbound_eq (entry : HeaderOrder × OutboundFrame) (buf : Bytes) :
    encodeOutbound entry.1 entry.2 buf = buf ++ (frameOf entry).encode := by
  obtain ⟨order, outbound⟩ := entry
  cases outbound with
  | raw frame => rfl
  | msg msg => exact encodeMsgInto_eq order msg buf

theorem encodeAll_eq (outbound : List (HeaderOrder × OutboundFrame)) :
    encodeAll outbound = ((outbound.map frameOf).map Frame.encode).flatten := by
  have append : ∀ (outbound : List (HeaderOrder × OutboundFrame)) (buf : Bytes),
      outbound.foldl (fun buf entry => encodeOutbound entry.1 entry.2 buf) buf =
        buf ++ ((outbound.map frameOf).map Frame.encode).flatten := by
    intro outbound
    induction outbound with
    | nil => exact fun buf => (List.append_nil buf).symm
    | cons entry outbound ih =>
      intro buf
      rw [List.foldl_cons, ih, encodeOutbound_eq, List.map_cons, List.map_cons, List.flatten_cons,
        List.append_assoc]
  exact append outbound []

theorem wellFormed_frameOf {entry : HeaderOrder × OutboundFrame} (sendable : Sendable entry.2)
    (fits : (frameOf entry).encode.length ≤ clientMaxFrameSize) :
    WellFormed clientMaxFrameSize (frameOf entry) := by
  obtain ⟨order, outbound⟩ := entry
  cases outbound with
  | raw frame =>
    obtain ⟨frameType, correlationId, payload, id, rfl⟩ := sendable
    have size : frameHeaderSize + payload.length ≤ clientMaxFrameSize := by
      rw [frameOf, frame_encode_length] at fits
      exact fits
    refine wellFormed_raw frameType id ?_ size
    rw [clientMaxFrameSize] at size
    omega
  | msg msg => exact wellFormed_msg sendable.1 (by decide) fits

theorem carries_frameOf {entry : HeaderOrder × OutboundFrame} (sendable : Sendable entry.2) :
    Carries entry.2 (frameOf entry) := by
  obtain ⟨order, outbound⟩ := entry
  cases outbound with
  | raw frame => rfl
  | msg msg =>
    obtain ⟨headers, decoded, same⟩ := headersFromFrame_section sendable.2 order
    exact ⟨rfl, headers, same, parseMsg_msgFrame sendable.1 decoded⟩

/-- Whatever is written is read, in order and however it is cut on the way. -/
theorem client_reads_what_the_server_writes (outbound : List (HeaderOrder × OutboundFrame))
    (sendable : ∀ entry ∈ outbound, Sendable entry.2)
    (fits : ∀ entry ∈ outbound,
      (encodeOutbound entry.1 entry.2 []).length ≤ clientMaxFrameSize)
    (chunks : List Bytes) (arrived : chunks.flatten = encodeAll outbound) :
    ∃ frames, receiveAll clientMaxFrameSize [] chunks = (frames, .waiting, []) ∧
      List.Forall₂ (fun entry frame => Carries entry.2 frame) outbound frames := by
  refine ⟨outbound.map frameOf, ?_, ?_⟩
  · refine receiveAll_due (fun frame member => ?_) (awaits_encodings _)
      (arrived.trans (encodeAll_eq outbound))
    obtain ⟨entry, present, rfl⟩ := List.mem_map.mp member
    have short := fits entry present
    rw [encodeOutbound_eq, List.nil_append] at short
    exact wellFormed_frameOf (sendable entry present) short
  · rw [List.forall₂_map_right_iff, List.forall₂_same]
    exact fun entry present => carries_frameOf (sendable entry present)

private def subjectA : Subject :=
  ⟨['a'], [['a']], by decide, by decide, by decide, by decide, by decide, by decide⟩

private def oneHeader : HeaderMap := (∅ : HeaderMap).insert ['k'] ['v']

private def pongAndMessage : List (HeaderOrder × OutboundFrame) :=
  [(.stored _ _, .raw ((Frame.new .pong 3).withPayload [])),
    (.stored _ _, .msg ⟨5, 1, subjectA, [1, 2], none, some oneHeader⟩)]

private theorem oneHeader_fits : Fits oneHeader := by
  refine ⟨by decide, fun key value found => ?_⟩
  rw [oneHeader, lookup_insert_eq_some] at found
  obtain ⟨rfl, rfl⟩ | ⟨-, none⟩ := found
  · decide
  · cases none

theorem pong_and_message_arrive :
    ∃ frames, receiveAll clientMaxFrameSize []
        [(encodeAll pongAndMessage).take 30, (encodeAll pongAndMessage).drop 30] =
          (frames, .waiting, []) ∧
      List.Forall₂ (fun entry frame => Carries entry.2 frame) pongAndMessage frames := by
  refine client_reads_what_the_server_writes pongAndMessage ?_ ?_ _ (by simp)
  · simp only [pongAndMessage, List.forall_mem_cons, List.not_mem_nil, false_imp_iff, implies_true,
      and_true]
    refine ⟨⟨.pong, 3, [], by decide, rfl⟩, by decide, fun headers found => ?_⟩
    rw [← Option.some.inj found]
    exact oneHeader_fits
  · simp only [pongAndMessage, List.forall_mem_cons, List.not_mem_nil, false_imp_iff, implies_true,
      and_true]
    decide

end ZetMQ.MsgFrames
