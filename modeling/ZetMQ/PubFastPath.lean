import ZetMQ.Broker
import ZetMQ.Permissions

/-! The publish fast path of a session: `PUB` frames are taken off the read buffer
in batches, past the generic decoder. With nobody subscribed they are only
counted. -/
namespace ZetMQ.PubFastPath
open Utf8Text ByteBuffer Frames KeyedTable SubjectGrammar Delivery Broker Commands Permissions

def pubBatchLimit : ℕ := 128
def noSubPubBatchLimit : ℕ := 1024

structure PubFrameLayout where
  correlationId : ℕ
  headerStart : ℕ
  headerEnd : ℕ
  payloadStart : ℕ
  payloadEnd : ℕ
  total : ℕ

/-- Ranges are pairs of start and end. -/
structure PublishPayloadLayout where
  subject : ℕ × ℕ
  replyTo : Option (ℕ × ℕ)
  payload : ℕ × ℕ

def nextFrameIsPub (buf : Bytes) : Bool :=
  frameHeaderSize ≤ buf.length && byteAt buf 3 = FrameType.pub.asU8

def peekPubFrameTotal (buf : Bytes) (maxFrameSize : ℕ) : Except ProtocolError (Option ℕ) :=
  if buf.length < frameHeaderSize then .ok none
  else
    let total := Frame.announced buf
    if maxFrameSize < total then .error (.frameTooLarge total maxFrameSize)
    else if buf.length < total then .ok none
    else if beAt buf 0 2 ≠ zetmqMagic then .error (.invalidMagic zetmqMagic (beAt buf 0 2))
    else if byteAt buf 2 ≠ currentVersion then .error (.unsupportedVersion (byteAt buf 2))
    else if byteAt buf 3 ≠ FrameType.pub.asU8 then .error (.unknownFrameType (byteAt buf 3))
    else .ok (some total)

def layoutOf (buf : Bytes) (total : ℕ) : PubFrameLayout :=
  let headerEnd := frameHeaderSize + beAt buf 14 4
  { correlationId := beAt buf 6 8
    headerStart := frameHeaderSize
    headerEnd := headerEnd
    payloadStart := headerEnd
    payloadEnd := headerEnd + beAt buf 18 4
    total := total }

def peekPubFrameLayout (buf : Bytes) (maxFrameSize : ℕ) :
    Except ProtocolError (Option PubFrameLayout) :=
  (peekPubFrameTotal buf maxFrameSize).map (·.map (layoutOf buf))

def parsePublishPayload (payload : Bytes) : Except ProtocolError PublishPayloadLayout :=
  if payload.length < 2 then .error (.decodingError "PUB frame too short".toList)
  else
    let subjectStart := 2
    let subjectEnd := subjectStart + beAt payload 0 2
    if payload.length < subjectEnd then .error (.decodingError "PUB subject truncated".toList)
    else if payload.length < subjectEnd + 2 then
      .error (.decodingError "PUB reply length missing".toList)
    else
      let replyLen := beAt payload subjectEnd 2
      let replyStart := subjectEnd + 2
      let replyEnd := replyStart + replyLen
      if payload.length < replyEnd then .error (.decodingError "PUB reply truncated".toList)
      else .ok
        { subject := (subjectStart, subjectEnd)
          replyTo := if 0 < replyLen then some (replyStart, replyEnd) else none
          payload := (replyEnd, payload.length) }

def publishAllowed (b : BrokerCore) (ctx : AuthContext) (subjectBytes : Bytes) :
    BrokerCore × Bool :=
  if ctx.isPublishUnrestricted then (b, true)
  else match fromUtf8 subjectBytes with
    | none => (b, false)
    | some text =>
      match b.parseSubject text with
      | (b, .error _) => (b, false)
      | (b, .ok subject) => (b, ctx.canPublish subject)

def errorFrame (correlationId : ℕ) (text : Str) : Frame :=
  (Frame.new .error correlationId).withPayload (encode text)

def publishDenied (correlationId : ℕ) : Frame :=
  errorFrame correlationId "permission denied for publish".toList

def decodePublishCommandFromBuf (readBuf : Bytes) (layout : PubFrameLayout) :
    Except ProtocolError (PublishCommand × ℕ) × Bytes :=
  let frameBytes := readBuf.take layout.total
  let rest := readBuf.drop layout.total
  let headerBytes := slice frameBytes layout.headerStart layout.headerEnd
  let payloadBytes := slice frameBytes layout.payloadStart layout.payloadEnd
  match parsePublishPayload payloadBytes with
  | .error e => (.error e, rest)
  | .ok payloadLayout =>
    match headersFromFrame headerBytes with
    | .error e => (.error e, rest)
    | .ok headers =>
      (.ok (⟨slice payloadBytes payloadLayout.subject.1 payloadLayout.subject.2,
          slice payloadBytes payloadLayout.payload.1 payloadLayout.payload.2,
          payloadLayout.replyTo.map fun reply => slice payloadBytes reply.1 reply.2, headers⟩,
        layout.correlationId), rest)

/-- The accumulators of the two batch loops, with the frames they send. -/
structure PubLoop where
  readBuf : Bytes
  broker : BrokerCore
  outbound : List Frame
  processed : ℕ
  published : ℕ
  commands : List PublishCommand

def PubLoop.start (readBuf : Bytes) (b : BrokerCore) : PubLoop := ⟨readBuf, b, [], 0, 0, []⟩

inductive Turn where
  | next
  | stop
  | fail (e : ProtocolError)

def pubLoop (body : PubLoop → Turn × PubLoop) : ℕ → PubLoop → Option ProtocolError × PubLoop
  | 0, loop => (none, loop)
  | limit + 1, loop =>
    if nextFrameIsPub loop.readBuf then
      match body loop with
      | (.next, loop) => pubLoop body limit loop
      | (.stop, loop) => (none, loop)
      | (.fail e, loop) => (some e, loop)
    else (none, loop)

def skipFrame (maxFrameSize : ℕ) (loop : PubLoop) : Turn × PubLoop :=
  match peekPubFrameTotal loop.readBuf maxFrameSize with
  | .error e => (.fail e, loop)
  | .ok none => (.stop, loop)
  | .ok (some total) =>
    (.next, { loop with
      readBuf := loop.readBuf.drop total
      processed := loop.processed + 1 })

def checkFrame (ctx : AuthContext) (maxFrameSize : ℕ) (loop : PubLoop) : Turn × PubLoop :=
  match peekPubFrameLayout loop.readBuf maxFrameSize with
  | .error e => (.fail e, loop)
  | .ok none => (.stop, loop)
  | .ok (some layout) =>
    let payloadBytes := slice loop.readBuf layout.payloadStart layout.payloadEnd
    match parsePublishPayload payloadBytes with
    | .error e => (.fail e, loop)
    | .ok payloadLayout =>
      let (broker, allowed) := publishAllowed loop.broker ctx
        (slice payloadBytes payloadLayout.subject.1 payloadLayout.subject.2)
      (.next, { loop with
        broker := broker
        readBuf := loop.readBuf.drop layout.total
        processed := loop.processed + 1
        published := if allowed then loop.published + 1 else loop.published
        outbound := if allowed then loop.outbound
          else loop.outbound ++ [publishDenied layout.correlationId] })

def drainPublishBatchWithoutSubscribers (ctx : AuthContext) (maxFrameSize : ℕ) (loop : PubLoop) :
    Except ProtocolError (Bool × ℕ) × PubLoop :=
  if ctx.isPublishUnrestricted then
    match pubLoop (skipFrame maxFrameSize) noSubPubBatchLimit loop with
    | (some e, loop) => (.error e, loop)
    | (none, loop) => (.ok (0 < loop.processed, loop.processed), loop)
  else
    match pubLoop (checkFrame ctx maxFrameSize) noSubPubBatchLimit loop with
    | (some e, loop) => (.error e, loop)
    | (none, loop) => (.ok (0 < loop.processed, loop.published), loop)

def collectFrame (ctx : AuthContext) (maxFrameSize : ℕ) (loop : PubLoop) : Turn × PubLoop :=
  match peekPubFrameLayout loop.readBuf maxFrameSize with
  | .error e => (.fail e, loop)
  | .ok none => (.stop, loop)
  | .ok (some layout) =>
    match decodePublishCommandFromBuf loop.readBuf layout with
    | (.error e, rest) => (.fail e, { loop with readBuf := rest })
    | (.ok (command, correlationId), rest) =>
      let (broker, allowed) := publishAllowed loop.broker ctx command.subject
      (.next, { loop with
        broker := broker
        readBuf := rest
        processed := loop.processed + 1
        commands := if allowed then loop.commands ++ [command] else loop.commands
        outbound := if allowed then loop.outbound
          else loop.outbound ++ [publishDenied correlationId] })

def parseReply (b : BrokerCore) (replyTo : Option Bytes) : BrokerCore × Option Subject :=
  match replyTo.bind fromUtf8 with
  | none => (b, none)
  | some text =>
    match b.parseSubject text with
    | (b, .error _) => (b, none)
    | (b, .ok subject) => (b, some subject)

def pushItem (acc : BrokerCore × List PublishItem) (p : PublishCommand) :
    BrokerCore × List PublishItem :=
  match fromUtf8 p.subject with
  | none => acc
  | some text =>
    match acc.1.parseSubject text with
    | (b, .error _) => (b, acc.2)
    | (b, .ok subject) =>
      let (b, replyTo) := parseReply b p.replyTo
      (b, acc.2 ++ [⟨subject, p.payload, replyTo, p.headers⟩])

def dispatchPublishBatch (env : DeliveryPolicy) (order : PendingOrder) (b : BrokerCore)
    (publishes : List PublishCommand) : BrokerCore :=
  if publishes.isEmpty then b
  else
    let (b, items) := publishes.foldl pushItem (b, [])
    b.publishBatch env order items

def dispatchPublishBatchFromReadBuf (env : DeliveryPolicy) (order : PendingOrder)
    (ctx : AuthContext) (maxFrameSize : ℕ) (loop : PubLoop) :
    Except ProtocolError (Bool × ℕ) × PubLoop :=
  if !loop.broker.hasActiveSubscriptions && !loop.broker.router.hasWildcards then
    drainPublishBatchWithoutSubscribers ctx maxFrameSize loop
  else
    match pubLoop (collectFrame ctx maxFrameSize) pubBatchLimit loop with
    -- an error drops the commands collected so far
    | (some e, loop) => (.error e, loop)
    | (none, loop) =>
      let broker := if loop.commands.isEmpty then loop.broker
        else dispatchPublishBatch env order loop.broker loop.commands
      (.ok (0 < loop.processed, 0), { loop with broker := broker })

end ZetMQ.PubFastPath
