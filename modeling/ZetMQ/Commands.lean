import ZetMQ.Delivery
import ZetMQ.Frames

/-! From frames to commands. Every decoder checks a length before it reads the
bytes behind it; text fields are decoded with replacement, subjects of `PUB` stay
bytes. -/
namespace ZetMQ.Commands
open Utf8Text ByteBuffer Frames KeyedTable Delivery

/-- The loop of `decode_headers` over the announced number of entries. -/
def decodeHeaderEntries : ℕ → Bytes → HeaderMap → Except ProtocolError HeaderMap
  | 0, _, headers => .ok headers
  | n + 1, buf, headers =>
    if buf.length < 2 then .error (.decodingError "header key length truncated".toList)
    else
      let keyLen := beAt buf 0 2
      let buf := buf.drop 2
      if buf.length < keyLen then .error (.decodingError "header key data truncated".toList)
      else
        let key := fromUtf8Lossy (buf.take keyLen)
        let buf := buf.drop keyLen
        if buf.length < 2 then .error (.decodingError "header value length truncated".toList)
        else
          let valLen := beAt buf 0 2
          let buf := buf.drop 2
          if buf.length < valLen then .error (.decodingError "header value data truncated".toList)
          else
            let val := fromUtf8Lossy (buf.take valLen)
            decodeHeaderEntries n (buf.drop valLen) (headers.insert key val)

def decodeHeaders (data : Bytes) : Except ProtocolError HeaderMap :=
  if data.length < 2 then .ok ∅
  else decodeHeaderEntries (beAt data 0 2) (data.drop 2) ∅

inductive AuthInfo where
  | none
  | token (token : Str)
  | userPass (username password : Str)
deriving DecidableEq

def AuthInfo.typeByte : AuthInfo → UInt8
  | .none => 0
  | .token _ => 1
  | .userPass _ _ => 2

def AuthInfo.encodeFields : AuthInfo → Bytes
  | .none => []
  | .token text => toBe 2 (encode text).length ++ encode text
  | .userPass username password =>
    toBe 2 (encode username).length ++ encode username ++
      (toBe 2 (encode password).length ++ encode password)

def AuthInfo.decode (authType : UInt8) (data : Bytes) : Except Str AuthInfo :=
  if authType = 0 then .ok .none
  else if authType = 1 then
    if data.length < 2 then .error "token auth: payload too short".toList
    else
      let len := beAt data 0 2
      if data.length < 2 + len then .error "token auth: token truncated".toList
      else .ok (.token (fromUtf8Lossy (slice data 2 (2 + len))))
  else if authType = 2 then
    if data.length < 2 then .error "userpass auth: payload too short".toList
    else
      let uLen := beAt data 0 2
      if data.length < 2 + uLen + 2 then .error "userpass auth: username truncated".toList
      else
        let username := fromUtf8Lossy (slice data 2 (2 + uLen))
        let pLen := beAt data (2 + uLen) 2
        if data.length < 4 + uLen + pLen then .error "userpass auth: password truncated".toList
        else .ok (.userPass username (fromUtf8Lossy (slice data (4 + uLen) (4 + uLen + pLen))))
  else .error ("unknown auth type: ".toList ++ decimal authType.toNat)

structure ConnectCommand where
  clientName : Option Str
  protocolVersion : UInt8
  auth : AuthInfo
deriving DecidableEq

def ConnectCommand.new (protocolVersion : UInt8) : ConnectCommand := ⟨none, protocolVersion, .none⟩

def ConnectCommand.encodePayload (cmd : ConnectCommand) : Option Bytes :=
  match cmd.auth with
  | .none => none
  | auth => some (auth.typeByte :: auth.encodeFields)

structure PublishCommand where
  subject : Bytes
  payload : Bytes
  replyTo : Option Bytes
  headers : Option HeaderMap
deriving DecidableEq

structure SubscribeCommand where
  subjectPattern : Str
  queueGroup : Option Str
deriving DecidableEq

structure UnsubscribeCommand where
  subscriptionId : ℕ
deriving DecidableEq

structure CreateStreamCommand where
  name : Str
  maxMsgs : ℕ
  maxBytes : ℕ
  maxAgeSecs : ℕ
deriving DecidableEq

structure DeleteStreamCommand where
  name : Str
deriving DecidableEq

structure AckCommand where
  stream : Str
  sequence : ℕ
deriving DecidableEq

structure NackCommand where
  stream : Str
  sequence : ℕ
deriving DecidableEq

structure StreamInfoResponse where
  name : Str
  messages : ℕ
  bytes : ℕ
  firstSeq : ℕ
  lastSeq : ℕ
  maxMsgs : ℕ
  maxBytes : ℕ
  maxAgeSecs : ℕ
deriving DecidableEq

/-- A name with its length cut to a `u8`. -/
def encodeName (name : Str) : Bytes := UInt8.ofNat (encode name).length :: encode name

def CreateStreamCommand.encodePayload (cmd : CreateStreamCommand) : Bytes :=
  encodeName cmd.name ++ toBe 8 cmd.maxMsgs ++ toBe 8 cmd.maxBytes ++ toBe 8 cmd.maxAgeSecs

def DeleteStreamCommand.encodePayload (cmd : DeleteStreamCommand) : Bytes := encodeName cmd.name

def AckCommand.encodePayload (cmd : AckCommand) : Bytes :=
  encodeName cmd.stream ++ toBe 8 cmd.sequence

def NackCommand.encodePayload (cmd : NackCommand) : Bytes :=
  encodeName cmd.stream ++ toBe 8 cmd.sequence

def StreamInfoResponse.encodePayload (info : StreamInfoResponse) : Bytes :=
  encodeName info.name ++ toBe 8 info.messages ++ toBe 8 info.bytes ++ toBe 8 info.firstSeq ++
    toBe 8 info.lastSeq ++ toBe 8 info.maxMsgs ++ toBe 8 info.maxBytes ++ toBe 8 info.maxAgeSecs

/-- A name with a length byte, followed by `extra` more bytes: the start of every
stream command. The rest begins right after the name. -/
def decodeNamed (payload : Bytes) (extra : ℕ) : Except Str (Str × Bytes) :=
  if payload.isEmpty then .error "empty payload".toList
  else
    let nameLen := (byteAt payload 0).toNat
    if payload.length < 1 + nameLen + extra then .error "payload too short".toList
    else .ok (fromUtf8Lossy (slice payload 1 (1 + nameLen)), payload.drop (1 + nameLen))

def CreateStreamCommand.decode (payload : Bytes) : Except Str CreateStreamCommand :=
  (decodeNamed payload 24).map fun (name, rest) =>
    ⟨name, beAt rest 0 8, beAt rest 8 8, beAt rest 16 8⟩

def DeleteStreamCommand.decode (payload : Bytes) : Except Str DeleteStreamCommand :=
  (decodeNamed payload 0).map fun (name, _) => ⟨name⟩

def AckCommand.decode (payload : Bytes) : Except Str AckCommand :=
  (decodeNamed payload 8).map fun (stream, rest) => ⟨stream, beAt rest 0 8⟩

def NackCommand.decode (payload : Bytes) : Except Str NackCommand :=
  (decodeNamed payload 8).map fun (stream, rest) => ⟨stream, beAt rest 0 8⟩

def StreamInfoResponse.decode (payload : Bytes) : Except Str StreamInfoResponse :=
  (decodeNamed payload 56).map fun (name, rest) =>
    ⟨name, beAt rest 0 8, beAt rest 8 8, beAt rest 16 8, beAt rest 24 8, beAt rest 32 8,
      beAt rest 40 8, beAt rest 48 8⟩

inductive BrokerCommand where
  | connect (cmd : ConnectCommand)
  | publish (cmd : PublishCommand)
  | subscribe (cmd : SubscribeCommand)
  | unsubscribe (cmd : UnsubscribeCommand)
  | ping
  | createStream (cmd : CreateStreamCommand)
  | deleteStream (cmd : DeleteStreamCommand)
  | ack (cmd : AckCommand)
  | nack (cmd : NackCommand)
deriving DecidableEq

def connectFromFrame (frame : Frame) : Except ProtocolError ConnectCommand :=
  let cmd := ConnectCommand.new frame.header.version
  if frame.payload.isEmpty then .ok cmd
  else match AuthInfo.decode (byteAt frame.payload 0) (frame.payload.drop 1) with
    | .ok auth => .ok { cmd with auth := auth }
    | .error e => .error (.decodingError ("invalid auth: ".toList ++ e))

def headersFromFrame (headers : Bytes) : Except ProtocolError (Option HeaderMap) :=
  if headers.isEmpty then .ok none else (decodeHeaders headers).map some

/-- A reply length that runs past the payload is read as no reply, unlike in the
fast path of the session. -/
def publishFromFrame (frame : Frame) : Except ProtocolError PublishCommand :=
  let payload := frame.payload
  if payload.length < 2 then .error (.decodingError "PUB frame too short".toList)
  else
    let subjLen := beAt payload 0 2
    if payload.length < 2 + subjLen then .error (.decodingError "PUB subject truncated".toList)
    else
      let rest := payload.drop (2 + subjLen)
      let (replyTo, dataStart) : Option Bytes × ℕ :=
        if 2 ≤ rest.length then
          let replyLen := beAt rest 0 2
          if 2 + replyLen ≤ rest.length ∧ 0 < replyLen then
            let replyOffset := 2 + subjLen + 2
            (some (slice payload replyOffset (replyOffset + replyLen)), 2 + replyLen)
          else (none, 2)
        else (none, 0)
      (headersFromFrame frame.headers).map fun headers =>
        ⟨slice payload 2 (2 + subjLen), payload.drop (2 + subjLen + dataStart), replyTo, headers⟩

def subscribeFromFrame (frame : Frame) : Except ProtocolError SubscribeCommand :=
  let payload := frame.payload
  if payload.isEmpty then .error (.decodingError "SUB frame empty".toList)
  else
    let patternLen := (byteAt payload 0).toNat
    if payload.length < 1 + patternLen then
      .error (.decodingError "SUB pattern truncated".toList)
    else
      let queueGroup : Option Str :=
        if 1 + patternLen + 1 < payload.length then
          let qgLen := (byteAt payload (1 + patternLen)).toNat
          if 2 + patternLen + qgLen ≤ payload.length ∧ 0 < qgLen then
            some (fromUtf8Lossy (slice payload (2 + patternLen) (2 + patternLen + qgLen)))
          else none
        else none
      .ok ⟨fromUtf8Lossy (slice payload 1 (1 + patternLen)), queueGroup⟩

def unsubscribeFromFrame (frame : Frame) : Except ProtocolError UnsubscribeCommand :=
  if frame.payload.length < 8 then .error (.decodingError "UNSUB frame too short".toList)
  else .ok ⟨beAt frame.payload 0 8⟩

def BrokerCommand.fromFrame (frame : Frame) : Except ProtocolError BrokerCommand :=
  match FrameType.fromU8 frame.header.frameType with
  | .error e => .error e
  | .ok .connect => (connectFromFrame frame).map .connect
  | .ok .pub => (publishFromFrame frame).map .publish
  | .ok .sub => (subscribeFromFrame frame).map .subscribe
  | .ok .unsub => (unsubscribeFromFrame frame).map .unsubscribe
  | .ok .ping => .ok .ping
  | .ok .createStream =>
    ((CreateStreamCommand.decode frame.payload).mapError .decodingError).map .createStream
  | .ok .deleteStream =>
    ((DeleteStreamCommand.decode frame.payload).mapError .decodingError).map .deleteStream
  | .ok .ack => ((AckCommand.decode frame.payload).mapError .decodingError).map .ack
  | .ok .nack => ((NackCommand.decode frame.payload).mapError .decodingError).map .nack
  | .ok other =>
    .error (.decodingError ("unexpected frame type for command: ".toList ++ other.debugName))

end ZetMQ.Commands
