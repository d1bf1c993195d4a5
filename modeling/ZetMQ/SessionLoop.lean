import ZetMQ.PubFastPath
import ZetMQ.SubscriptionLedger

/-! One connection's session as a state machine. A host is the shared broker
together with one session and the place where its read loop stands; the events are
what the loop waits for, the turns of its inner loop over the frames, and the calls
of other sessions in between. Frames given to the outbound channel and operations
given to the stream store are recorded in order; whether the channel has room is
not modelled, since the loop ignores it. -/
namespace ZetMQ.SessionLoop
open Utf8Text ByteBuffer Frames KeyedTable SubjectGrammar WildcardTrie Delivery Registry Broker
open SubscriptionLedger Commands Permissions PubFastPath

def localPublishedFlushThreshold : ℕ := 4096

inductive SessionState where
  | new
  | connected
  | draining
  | closed
deriving DecidableEq

inductive StoreOp where
  | createStream (name : Str) (maxMsgs maxBytes maxAgeSecs : ℕ)
  | deleteStream (name : Str)
  | ack (stream consumer : Str) (sequence : ℕ)
  | nack (stream : Str) (sequence : ℕ)
deriving DecidableEq

structure Session where
  connId : ConnectionId
  state : SessionState
  authCtx : AuthContext
  readBuf : Bytes
  localPublished : ℕ
  subConsumers : Table ℕ (Str × Str)
  outbound : List Frame
  storeOps : List StoreOp

def Session.start (connId : ConnectionId) : Session :=
  ⟨connId, .new, .unrestricted, [], 0, ∅, [], []⟩

/-- Waiting in `select!`, in the loop over the frames, past the read loop, gone. -/
inductive Position where
  | select
  | frames
  | cleanup
  | finished
deriving DecidableEq

structure Host where
  broker : BrokerCore
  session : Session
  position : Position

def channelOf (conn : ConnectionId) : DeliveryHandle := conn

namespace Host

def send (h : Host) (frame : Frame) : Host :=
  { h with session := { h.session with outbound := h.session.outbound ++ [frame] } }

def issue (h : Host) (op : StoreOp) : Host :=
  { h with session := { h.session with storeOps := h.session.storeOps ++ [op] } }

def setBuf (h : Host) (readBuf : Bytes) : Host :=
  { h with session := { h.session with readBuf := readBuf } }

def breakFrames (h : Host) : Host := { h with position := .select }

def incProtocolErrors (h : Host) : Host :=
  { h with broker := { h.broker with metrics := h.broker.metrics.incProtocolErrors } }

def flushPublished (h : Host) : Host :=
  if 0 < h.session.localPublished then
    { h with
      broker := { h.broker with
        metrics := h.broker.metrics.incPublishedBy h.session.localPublished }
      session := { h.session with localPublished := 0 } }
  else h

def addPublished (h : Host) (published : ℕ) : Host :=
  let h := { h with
    session := { h.session with localPublished := h.session.localPublished + published } }
  if localPublishedFlushThreshold ≤ h.session.localPublished then h.flushPublished else h

def dispatchSubscribe (h : Host) (s : SubscribeCommand) (correlationId : ℕ) : Host :=
  match SubjectPattern.parse s.subjectPattern with
  | .error _ => h
  | .ok pattern =>
    let queueGroup := s.queueGroup.bind fun q => (QueueGroupName.new q).toOption
    let conn := h.session.connId
    let (broker, subId) := h.broker.subscribe conn pattern queueGroup (channelOf conn)
    let consumerName := "conn-".toList ++ decimal conn ++ "-sub-".toList ++ decimal subId
    let h : Host := { h with
      broker := broker
      session := { h.session with
        subConsumers := h.session.subConsumers.insert subId (s.subjectPattern, consumerName) } }
    h.send ((Frame.new .suback correlationId).withPayload (toBe 8 subId))

def dispatchUnsubscribe (h : Host) (u : UnsubscribeCommand) (correlationId : ℕ) : Host :=
  let h : Host := { h with
    broker := h.broker.unsubscribe h.session.connId u.subscriptionId
    session := { h.session with
      subConsumers := h.session.subConsumers.erase u.subscriptionId } }
  h.send ((Frame.new .unsuback correlationId).withPayload (toBe 8 u.subscriptionId))

def dispatchPublish (env : DeliveryPolicy) (h : Host) (p : PublishCommand) : Host :=
  match fromUtf8 p.subject with
  | none => h
  | some text =>
    let (broker, replyTo) := parseReply h.broker p.replyTo
    { h with broker := broker.publishWithStr env text p.payload replyTo p.headers }

def dispatch (env : DeliveryPolicy) (h : Host) (cmd : BrokerCommand) (correlationId : ℕ) : Host :=
  match cmd with
  | .publish p => h.dispatchPublish env p
  | .subscribe s => h.dispatchSubscribe s correlationId
  | .unsubscribe u => h.dispatchUnsubscribe u correlationId
  | .createStream c => h.issue (.createStream c.name c.maxMsgs c.maxBytes c.maxAgeSecs)
  | .deleteStream c => h.issue (.deleteStream c.name)
  | .ack c =>
    let consumer := match h.session.subConsumers.lookup correlationId with
      | some (_, consumer) => consumer
      | none => "default".toList
    h.issue (.ack c.stream consumer c.sequence)
  | .nack c => h.issue (.nack c.stream c.sequence)
  | .connect _ => h
  | .ping => h

def handleConnect (config : ServerConfig) (h : Host) (auth : AuthInfo) (correlationId : ℕ) :
    Host :=
  match validateAuth auth config with
  | .ok ctx =>
    let h : Host := { h with
      broker := { h.broker with metrics := h.broker.metrics.incActiveConnections }
      session := { h.session with authCtx := ctx, state := .connected } }
    h.send (Frame.new .connack 0)
  | .error message => (h.send (errorFrame correlationId message)).breakFrames

/-- Why a `SUB` is turned away: the limit is checked first, and a pattern that does
not parse is left to the dispatcher. -/
def subscribeRefusal (config : ServerConfig) (h : Host) (s : SubscribeCommand) : Option Str :=
  if config.maxSubscriptionsPerConnection ≤
      h.broker.subscriptionCountForConnection h.session.connId then
    some ("max subscriptions exceeded: ".toList ++ decimal config.maxSubscriptionsPerConnection)
  else match SubjectPattern.parse s.subjectPattern with
    | .error _ => none
    | .ok pattern =>
      if h.session.authCtx.canSubscribe pattern then none
      else some "permission denied for subscribe".toList

def publishRefused (h : Host) (p : PublishCommand) : BrokerCore × Bool :=
  match fromUtf8 p.subject with
  | none => (h.broker, false)
  | some text =>
    match h.broker.parseSubject text with
    | (broker, .error _) => (broker, false)
    | (broker, .ok subject) => (broker, !h.session.authCtx.canPublish subject)

def handleCommand (env : DeliveryPolicy) (config : ServerConfig) (h : Host)
    (cmd : BrokerCommand) (correlationId : ℕ) : Host :=
  match cmd with
  | .connect c => h.handleConnect config c.auth correlationId
  | .ping => h.send (Frame.new .pong 0)
  | cmd =>
    if h.session.state ≠ .connected then h
    else match cmd with
      | .subscribe s =>
        match h.subscribeRefusal config s with
        | some text => h.send (errorFrame correlationId text)
        | none => h.dispatch env (.subscribe s) correlationId
      | .publish p =>
        let (broker, refused) := h.publishRefused p
        let h : Host := { h with broker := broker }
        if refused then h.send (publishDenied correlationId)
        else h.dispatch env (.publish p) correlationId
      | cmd => h.dispatch env cmd correlationId

def handleFrame (env : DeliveryPolicy) (config : ServerConfig) (h : Host) (frame : Frame) : Host :=
  match BrokerCommand.fromFrame frame with
  | .ok cmd => h.handleCommand env config cmd frame.header.correlationId
  | .error e =>
    h.incProtocolErrors.send (errorFrame 0 ("protocol error: ".toList ++ e.display))

def decodeFailed (h : Host) (e : ProtocolError) : Host :=
  (h.incProtocolErrors.setBuf []).send (errorFrame 0 ("decode error: ".toList ++ e.display))

def absorb (h : Host) (loop : PubLoop) : Host :=
  { h with
    broker := loop.broker
    session := { h.session with
      readBuf := loop.readBuf
      outbound := h.session.outbound ++ loop.outbound } }

def fastPath (env : DeliveryPolicy) (config : ServerConfig) (order : PendingOrder) (h : Host) :
    Host :=
  let (result, loop) := dispatchPublishBatchFromReadBuf env order h.session.authCtx
    config.maxFrameSize (.start h.session.readBuf h.broker)
  let h := h.absorb loop
  match result with
  | .ok (true, published) => h.addPublished published
  | .ok (false, _) => h.breakFrames
  | .error e => h.decodeFailed e

def iterate (env : DeliveryPolicy) (config : ServerConfig) (order : PendingOrder) (h : Host) :
    Host :=
  if h.session.state = .connected ∧ nextFrameIsPub h.session.readBuf = true then
    h.fastPath env config order
  else
    match Frame.decodeFrom h.session.readBuf config.maxFrameSize with
    | (.ok (some frame), rest) => (h.setBuf rest).handleFrame env config frame
    | (.ok none, rest) => (h.setBuf rest).flushPublished.breakFrames
    | (.error e, rest) => (h.setBuf rest).flushPublished.decodeFailed e

def tick (config : ServerConfig) (h : Host) (elapsedNanos : ℕ) : Host :=
  if h.session.state ≠ .connected then h
  else if config.heartbeatTimeoutSecs * 10 ^ 9 < elapsedNanos then
    { h with position := .cleanup }
  else if config.heartbeatIntervalSecs * 10 ^ 9 < elapsedNanos then
    { h.send (Frame.new .ping 0) with position := .frames }
  else { h with position := .frames }

def shutdown (h : Host) (late : Bytes) : Host :=
  if h.session.state = .connected then
    let h := { h with session := { h.session with state := .draining } }
    let h := h.send (Frame.new .drain 0)
    { h.setBuf (h.session.readBuf ++ late) with position := .cleanup }
  else { h with position := .cleanup }

def close (h : Host) : Host :=
  let h := h.flushPublished
  { h with
    broker := h.broker.removeConnection h.session.connId
    position := .finished }

end Host

inductive Event where
  | received (bytes : Bytes)
  | readFailed
  | tick (elapsedNanos : ℕ)
  | shutdown (late : Bytes)
  | turn (order : PendingOrder)
  | close
  | elsewhere (op : BrokerOp)

/-- An event of the session happens only where its loop stands; a read of no bytes
is the end of the stream. -/
def Host.step (env : DeliveryPolicy) (config : ServerConfig) (h : Host) : Event → Host
  | .received bytes =>
    if h.position ≠ .select then h
    else if bytes.isEmpty then { h with position := .cleanup }
    else { h.setBuf (h.session.readBuf ++ bytes) with position := .frames }
  | .readFailed => if h.position = .select then { h with position := .cleanup } else h
  | .tick elapsedNanos => if h.position = .select then h.tick config elapsedNanos else h
  | .shutdown late => if h.position = .select then h.shutdown late else h
  | .turn order => if h.position = .frames then h.iterate env config order else h
  | .close => if h.position = .cleanup then h.close else h
  | .elsewhere op => { h with broker := op.apply env h.broker }

def Host.run (env : DeliveryPolicy) (config : ServerConfig) (h : Host) (events : List Event) :
    Host :=
  events.foldl (Host.step env config) h

end ZetMQ.SessionLoop
