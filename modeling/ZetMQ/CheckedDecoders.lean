import ZetMQ.CheckedReads
import ZetMQ.PubDecoders

/-! The decoders of the server with every index and slice checked against its buffer,
as the code takes them: `none` stands for a panic. The sum of the two lengths of a frame
is taken in a word of 64 bits; the other sums are of lengths of one or two bytes. -/
namespace ZetMQ.CheckedDecoders
open Utf8Text ByteBuffer CheckedReads Frames KeyedTable Delivery Broker Commands Permissions
open PubFastPath

def headerDecode (buf : Bytes) : Option (Except ProtocolError FrameHeader) :=
  if buf.length < frameHeaderSize then
    some (.error (.incompleteFrame frameHeaderSize buf.length))
  else do
    let (magic, buf) ← getBe buf 2
    if magic ≠ zetmqMagic then some (.error (.invalidMagic zetmqMagic magic))
    else do
      let (version, buf) ← getByte buf
      if version ≠ currentVersion then some (.error (.unsupportedVersion version))
      else do
        let (frameType, buf) ← getByte buf
        let (flags, buf) ← getBe buf 2
        let (correlationId, buf) ← getBe buf 8
        let (headerLen, buf) ← getBe buf 4
        let (payloadLen, _) ← getBe buf 4
        some (.ok ⟨magic, version, frameType, flags, correlationId, headerLen, payloadLen⟩)

def readSection (buf : Bytes) (len start stop : ℕ) : Option Bytes :=
  if 0 < len then readRange buf start stop else some []

/-- What is left of a payload, nothing past its end. -/
def readTail (payload : Bytes) (offset : ℕ) : Option Bytes :=
  if offset < payload.length then readFrom payload offset else some []

def decodeFrom (buf : Bytes) (maxFrameSize : ℕ) :
    Option (Except ProtocolError (Option Frame) × Bytes) :=
  if buf.length < frameHeaderSize then some (.ok none, buf)
  else do
    let headerLen ← readBe buf 14 4
    let payloadLen ← readBe buf 18 4
    let total := word (frameHeaderSize + headerLen + payloadLen)
    if maxFrameSize < total then some (.error (.frameTooLarge total maxFrameSize), buf)
    else if buf.length < total then some (.ok none, buf)
    else do
      let (frameBytes, rest) ← splitTo buf total
      let headerBuf ← readRange frameBytes 0 frameHeaderSize
      match ← headerDecode headerBuf with
      | .error e => some (.error e, rest)
      | .ok header => do
        let headers ← readSection frameBytes headerLen frameHeaderSize
          (frameHeaderSize + headerLen)
        let payload ← readSection frameBytes payloadLen (frameHeaderSize + headerLen) total
        some (.ok (some ⟨header, headers, payload⟩), rest)

def decodeHeaderEntries : ℕ → Bytes → HeaderMap → Option (Except ProtocolError HeaderMap)
  | 0, _, headers => some (.ok headers)
  | n + 1, buf, headers =>
    if buf.length < 2 then some (.error (.decodingError "header key length truncated".toList))
    else do
      let (keyLen, buf) ← getBe buf 2
      if buf.length < keyLen then
        some (.error (.decodingError "header key data truncated".toList))
      else do
        let key ← readRange buf 0 keyLen
        let buf ← advance buf keyLen
        if buf.length < 2 then
          some (.error (.decodingError "header value length truncated".toList))
        else do
          let (valLen, buf) ← getBe buf 2
          if buf.length < valLen then
            some (.error (.decodingError "header value data truncated".toList))
          else do
            let val ← readRange buf 0 valLen
            let buf ← advance buf valLen
            decodeHeaderEntries n buf (headers.insert (fromUtf8Lossy key) (fromUtf8Lossy val))

def decodeHeaders (data : Bytes) : Option (Except ProtocolError HeaderMap) :=
  if data.length < 2 then some (.ok ∅)
  else do
    let (numHeaders, buf) ← getBe data 2
    decodeHeaderEntries numHeaders buf ∅

def headersFromFrame (headers : Bytes) : Option (Except ProtocolError (Option HeaderMap)) :=
  if headers.isEmpty then some (.ok none)
  else (decodeHeaders headers).map (·.map some)

def authDecode (authType : UInt8) (data : Bytes) : Option (Except Str AuthInfo) :=
  if authType = 0 then some (.ok .none)
  else if authType = 1 then
    if data.length < 2 then some (.error "token auth: payload too short".toList)
    else do
      let len ← readBe data 0 2
      if data.length < 2 + len then some (.error "token auth: token truncated".toList)
      else do
        let token ← readRange data 2 (2 + len)
        some (.ok (.token (fromUtf8Lossy token)))
  else if authType = 2 then
    if data.length < 2 then some (.error "userpass auth: payload too short".toList)
    else do
      let uLen ← readBe data 0 2
      if data.length < 2 + uLen + 2 then
        some (.error "userpass auth: username truncated".toList)
      else do
        let username ← readRange data 2 (2 + uLen)
        let pLen ← readBe data (2 + uLen) 2
        if data.length < 4 + uLen + pLen then
          some (.error "userpass auth: password truncated".toList)
        else do
          let password ← readRange data (4 + uLen) (4 + uLen + pLen)
          some (.ok (.userPass (fromUtf8Lossy username) (fromUtf8Lossy password)))
  else some (.error ("unknown auth type: ".toList ++ decimal authType.toNat))

/-- The name of a stream command and where it ends, with `extra` bytes behind it. -/
def decodeName (payload : Bytes) (extra : ℕ) : Option (Except Str (Str × ℕ)) :=
  if payload.isEmpty then some (.error "empty payload".toList)
  else do
    let nameLen ← readAt payload 0
    if payload.length < 1 + nameLen.toNat + extra then
      some (.error "payload too short".toList)
    else do
      let name ← readRange payload 1 (1 + nameLen.toNat)
      some (.ok (fromUtf8Lossy name, 1 + nameLen.toNat))

def createStreamDecode (payload : Bytes) : Option (Except Str CreateStreamCommand) := do
  match ← decodeName payload 24 with
  | .error e => some (.error e)
  | .ok (name, stop) => do
    let rest ← readFrom payload stop
    let maxMsgs ← rangeBe rest 0 8 8
    let maxBytes ← rangeBe rest 8 16 8
    let maxAgeSecs ← rangeBe rest 16 24 8
    some (.ok ⟨name, maxMsgs, maxBytes, maxAgeSecs⟩)

def deleteStreamDecode (payload : Bytes) : Option (Except Str DeleteStreamCommand) :=
  (decodeName payload 0).map (·.map fun named => ⟨named.1⟩)

def sequenceDecode {α : Type} (build : Str → ℕ → α) (payload : Bytes) : Option (Except Str α) := do
  match ← decodeName payload 8 with
  | .error e => some (.error e)
  | .ok (stream, stop) => do
    let sequence ← rangeBe payload stop (stop + 8) 8
    some (.ok (build stream sequence))

def ackDecode : Bytes → Option (Except Str AckCommand) := sequenceDecode .mk

def nackDecode : Bytes → Option (Except Str NackCommand) := sequenceDecode .mk

def connectFromFrame (frame : Frame) : Option (Except ProtocolError ConnectCommand) :=
  let cmd := ConnectCommand.new frame.header.version
  if frame.payload.isEmpty then some (.ok cmd)
  else do
    let authType ← readAt frame.payload 0
    let authData ← readFrom frame.payload 1
    match ← authDecode authType authData with
    | .ok auth => some (.ok { cmd with auth := auth })
    | .error e => some (.error (.decodingError ("invalid auth: ".toList ++ e)))

def publishReply (payload : Bytes) (stop : ℕ) : Option (Option Bytes × ℕ) := do
  let rest ← readFrom payload stop
  if 2 ≤ rest.length then do
    let replyLen ← readBe rest 0 2
    if 2 + replyLen ≤ rest.length ∧ 0 < replyLen then do
      let reply ← readRange payload (stop + 2) (stop + 2 + replyLen)
      some (some reply, 2 + replyLen)
    else some (none, 2)
  else some (none, 0)

def publishFromFrame (frame : Frame) : Option (Except ProtocolError PublishCommand) :=
  let payload := frame.payload
  if payload.length < 2 then some (.error (.decodingError "PUB frame too short".toList))
  else do
    let subjLen ← readBe payload 0 2
    if payload.length < 2 + subjLen then
      some (.error (.decodingError "PUB subject truncated".toList))
    else do
      let subject ← readRange payload 2 (2 + subjLen)
      let (replyTo, dataStart) ← publishReply payload (2 + subjLen)
      let msgPayload ← readTail payload (2 + subjLen + dataStart)
      match ← headersFromFrame frame.headers with
      | .error e => some (.error e)
      | .ok headers => some (.ok ⟨subject, msgPayload, replyTo, headers⟩)

def subscribeGroup (payload : Bytes) (patternLen : ℕ) : Option (Option Str) :=
  if 1 + patternLen + 1 < payload.length then do
    let qgLen ← readAt payload (1 + patternLen)
    if 2 + patternLen + qgLen.toNat ≤ payload.length ∧ 0 < qgLen.toNat then do
      let group ← readRange payload (2 + patternLen) (2 + patternLen + qgLen.toNat)
      some (some (fromUtf8Lossy group))
    else some none
  else some none

def subscribeFromFrame (frame : Frame) : Option (Except ProtocolError SubscribeCommand) :=
  let payload := frame.payload
  if payload.isEmpty then some (.error (.decodingError "SUB frame empty".toList))
  else do
    let patternLen ← readAt payload 0
    if payload.length < 1 + patternLen.toNat then
      some (.error (.decodingError "SUB pattern truncated".toList))
    else do
      let pattern ← readRange payload 1 (1 + patternLen.toNat)
      let queueGroup ← subscribeGroup payload patternLen.toNat
      some (.ok ⟨fromUtf8Lossy pattern, queueGroup⟩)

def unsubscribeFromFrame (frame : Frame) : Option (Except ProtocolError UnsubscribeCommand) :=
  if frame.payload.length < 8 then
    some (.error (.decodingError "UNSUB frame too short".toList))
  else (readBe frame.payload 0 8).map fun id => .ok ⟨id⟩

def streamCommand {α : Type} (build : α → BrokerCommand) (decoded : Option (Except Str α)) :
    Option (Except ProtocolError BrokerCommand) :=
  decoded.map fun result => (result.mapError .decodingError).map build

def fromFrame (frame : Frame) : Option (Except ProtocolError BrokerCommand) :=
  match FrameType.fromU8 frame.header.frameType with
  | .error e => some (.error e)
  | .ok .connect => (connectFromFrame frame).map (·.map .connect)
  | .ok .pub => (publishFromFrame frame).map (·.map .publish)
  | .ok .sub => (subscribeFromFrame frame).map (·.map .subscribe)
  | .ok .unsub => (unsubscribeFromFrame frame).map (·.map .unsubscribe)
  | .ok .ping => some (.ok .ping)
  | .ok .createStream => streamCommand .createStream (createStreamDecode frame.payload)
  | .ok .deleteStream => streamCommand .deleteStream (deleteStreamDecode frame.payload)
  | .ok .ack => streamCommand .ack (ackDecode frame.payload)
  | .ok .nack => streamCommand .nack (nackDecode frame.payload)
  | .ok other =>
    some (.error (.decodingError
      ("unexpected frame type for command: ".toList ++ other.debugName)))

def nextFrameIsPub (buf : Bytes) : Option Bool :=
  if frameHeaderSize ≤ buf.length then (readAt buf 3).map fun b => b = FrameType.pub.asU8
  else some false

/-- What `peek_pub_frame_layout` and `peek_pub_frame_total` check alike: the two lengths
and the total of a whole `PUB` frame. -/
def peekPubFrame (buf : Bytes) (maxFrameSize : ℕ) :
    Option (Except ProtocolError (Option (ℕ × ℕ × ℕ))) :=
  if buf.length < frameHeaderSize then some (.ok none)
  else do
    let headerLen ← readBe buf 14 4
    let payloadLen ← readBe buf 18 4
    let total := word (frameHeaderSize + headerLen + payloadLen)
    if maxFrameSize < total then some (.error (.frameTooLarge total maxFrameSize))
    else if buf.length < total then some (.ok none)
    else do
      let magic ← readBe buf 0 2
      if magic ≠ zetmqMagic then some (.error (.invalidMagic zetmqMagic magic))
      else do
        let version ← readAt buf 2
        if version ≠ currentVersion then some (.error (.unsupportedVersion version))
        else do
          let frameType ← readAt buf 3
          if frameType ≠ FrameType.pub.asU8 then some (.error (.unknownFrameType frameType))
          else some (.ok (some (headerLen, payloadLen, total)))

def peekPubFrameTotal (buf : Bytes) (maxFrameSize : ℕ) : Option (Except ProtocolError (Option ℕ)) :=
  (peekPubFrame buf maxFrameSize).map (·.map (·.map (·.2.2)))

def peekPubFrameLayout (buf : Bytes) (maxFrameSize : ℕ) :
    Option (Except ProtocolError (Option PubFrameLayout)) := do
  match ← peekPubFrame buf maxFrameSize with
  | .error e => some (.error e)
  | .ok none => some (.ok none)
  | .ok (some (headerLen, payloadLen, total)) => do
    let correlationId ← readBe buf 6 8
    let headerEnd := word (frameHeaderSize + headerLen)
    some (.ok (some ⟨correlationId, frameHeaderSize, headerEnd, headerEnd,
      word (headerEnd + payloadLen), total⟩))

def parsePublishPayload (payload : Bytes) : Option (Except ProtocolError PublishPayloadLayout) :=
  if payload.length < 2 then some (.error (.decodingError "PUB frame too short".toList))
  else do
    let subjectLen ← readBe payload 0 2
    let subjectStart := 2
    let subjectEnd := subjectStart + subjectLen
    if payload.length < subjectEnd then
      some (.error (.decodingError "PUB subject truncated".toList))
    else if payload.length < subjectEnd + 2 then
      some (.error (.decodingError "PUB reply length missing".toList))
    else do
      let replyLen ← readBe payload subjectEnd 2
      let replyStart := subjectEnd + 2
      let replyEnd := replyStart + replyLen
      if payload.length < replyEnd then
        some (.error (.decodingError "PUB reply truncated".toList))
      else some (.ok
        { subject := (subjectStart, subjectEnd)
          replyTo := if 0 < replyLen then some (replyStart, replyEnd) else none
          payload := (replyEnd, payload.length) })

def decodePublishCommandFromBuf (readBuf : Bytes) (layout : PubFrameLayout) :
    Option (Except ProtocolError (PublishCommand × ℕ) × Bytes) := do
  let (frameBytes, rest) ← splitTo readBuf layout.total
  let headerBytes ← readRange frameBytes layout.headerStart layout.headerEnd
  let payloadBytes ← readRange frameBytes layout.payloadStart layout.payloadEnd
  match ← parsePublishPayload payloadBytes with
  | .error e => some (.error e, rest)
  | .ok payloadLayout =>
    match ← headersFromFrame headerBytes with
    | .error e => some (.error e, rest)
    | .ok headers => do
      let subject ← readRange payloadBytes payloadLayout.subject.1 payloadLayout.subject.2
      let payload ← readRange payloadBytes payloadLayout.payload.1 payloadLayout.payload.2
      let replyTo ← payloadLayout.replyTo.mapM fun reply =>
        readRange payloadBytes reply.1 reply.2
      some (.ok (⟨subject, payload, replyTo, headers⟩, layout.correlationId), rest)

def skipFrame (maxFrameSize : ℕ) (loop : PubLoop) : Option (Turn × PubLoop) := do
  match ← peekPubFrameTotal loop.readBuf maxFrameSize with
  | .error e => some (.fail e, loop)
  | .ok none => some (.stop, loop)
  | .ok (some total) => do
    let readBuf ← advance loop.readBuf total
    some (.next, { loop with readBuf := readBuf, processed := loop.processed + 1 })

def checkFrame (ctx : AuthContext) (maxFrameSize : ℕ) (loop : PubLoop) :
    Option (Turn × PubLoop) := do
  match ← peekPubFrameLayout loop.readBuf maxFrameSize with
  | .error e => some (.fail e, loop)
  | .ok none => some (.stop, loop)
  | .ok (some layout) => do
    let payloadBytes ← readRange loop.readBuf layout.payloadStart layout.payloadEnd
    match ← parsePublishPayload payloadBytes with
    | .error e => some (.fail e, loop)
    | .ok payloadLayout => do
      let subject ← readRange payloadBytes payloadLayout.subject.1 payloadLayout.subject.2
      let (broker, allowed) := publishAllowed loop.broker ctx subject
      let readBuf ← advance loop.readBuf layout.total
      some (.next, { loop with
        broker := broker
        readBuf := readBuf
        processed := loop.processed + 1
        published := if allowed then loop.published + 1 else loop.published
        outbound := if allowed then loop.outbound
          else loop.outbound ++ [publishDenied layout.correlationId] })

def collectFrame (ctx : AuthContext) (maxFrameSize : ℕ) (loop : PubLoop) :
    Option (Turn × PubLoop) := do
  match ← peekPubFrameLayout loop.readBuf maxFrameSize with
  | .error e => some (.fail e, loop)
  | .ok none => some (.stop, loop)
  | .ok (some layout) => do
    match ← decodePublishCommandFromBuf loop.readBuf layout with
    | (.error e, rest) => some (.fail e, { loop with readBuf := rest })
    | (.ok (command, correlationId), rest) =>
      let (broker, allowed) := publishAllowed loop.broker ctx command.subject
      some (.next, { loop with
        broker := broker
        readBuf := rest
        processed := loop.processed + 1
        commands := if allowed then loop.commands ++ [command] else loop.commands
        outbound := if allowed then loop.outbound
          else loop.outbound ++ [publishDenied correlationId] })

def pubLoop (body : PubLoop → Option (Turn × PubLoop)) :
    ℕ → PubLoop → Option (Option ProtocolError × PubLoop)
  | 0, loop => some (none, loop)
  | limit + 1, loop => do
    if ← nextFrameIsPub loop.readBuf then
      match ← body loop with
      | (.next, loop) => pubLoop body limit loop
      | (.stop, loop) => some (none, loop)
      | (.fail e, loop) => some (some e, loop)
    else some (none, loop)

def drainPublishBatchWithoutSubscribers (ctx : AuthContext) (maxFrameSize : ℕ) (loop : PubLoop) :
    Option (Except ProtocolError (Bool × ℕ) × PubLoop) :=
  if ctx.isPublishUnrestricted then do
    match ← pubLoop (skipFrame maxFrameSize) noSubPubBatchLimit loop with
    | (some e, loop) => some (.error e, loop)
    | (none, loop) => some (.ok (0 < loop.processed, loop.processed), loop)
  else do
    match ← pubLoop (checkFrame ctx maxFrameSize) noSubPubBatchLimit loop with
    | (some e, loop) => some (.error e, loop)
    | (none, loop) => some (.ok (0 < loop.processed, loop.published), loop)

def dispatchPublishBatchFromReadBuf (env : DeliveryPolicy) (order : PendingOrder)
    (ctx : AuthContext) (maxFrameSize : ℕ) (loop : PubLoop) :
    Option (Except ProtocolError (Bool × ℕ) × PubLoop) :=
  if !loop.broker.hasActiveSubscriptions && !loop.broker.router.hasWildcards then
    drainPublishBatchWithoutSubscribers ctx maxFrameSize loop
  else do
    match ← pubLoop (collectFrame ctx maxFrameSize) pubBatchLimit loop with
    | (some e, loop) => some (.error e, loop)
    | (none, loop) =>
      let broker := if loop.commands.isEmpty then loop.broker
        else dispatchPublishBatch env order loop.broker loop.commands
      some (.ok (0 < loop.processed, 0), { loop with broker := broker })

end ZetMQ.CheckedDecoders
