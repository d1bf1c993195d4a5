import ZetMQ.StreamChunking
import ZetMQ.SubFrames

/-! How a connected session answers `SUB` and `UNSUB`. The limit and the permissions
are checked by the session, pattern and group are parsed by the dispatcher: a pattern
that does not parse gets no reply at all, and a group name that does not is dropped
while the subscription is acknowledged. -/
namespace ZetMQ.SubscriptionReplies
open Utf8Text ByteBuffer Frames KeyedTable SubjectGrammar WildcardTrie RoutingTable Delivery
open Registry Broker BrokerRefinement Commands Permissions PubFastPath SessionLoop QueueGroups
open StreamChunking SubFrames

inductive SubRequest where
  | sub (s : SubscribeCommand)
  | unsub (u : UnsubscribeCommand)

def SubRequest.command : SubRequest → BrokerCommand
  | sub s => .subscribe s
  | unsub u => .unsubscribe u

def SubRequest.ack : SubRequest → FrameType
  | sub _ => .suback
  | unsub _ => .unsuback

def requestedGroup (s : SubscribeCommand) : Except CoreError (Option QueueGroupName) :=
  match s.queueGroup with
  | none => .ok none
  | some text => (QueueGroupName.new text).map some

def CarriedOut (h h' : Host) : SubRequest → Prop
  | .sub s => ∃ pattern group, SubjectPattern.parse s.subjectPattern = .ok pattern ∧
      requestedGroup s = .ok group ∧
      h'.broker = (h.broker.subscribe h.session.connId pattern group
        (channelOf h.session.connId)).1
  | .unsub u => (∃ sub, h.broker.registry.getRef u.subscriptionId = some sub) ∧
      h'.broker.registry.getRef u.subscriptionId = none ∧
      ∀ other ≠ u.subscriptionId, h'.broker.registry.getRef other = h.broker.registry.getRef other

/-- The frame gets one reply, under its correlation id: the acknowledgement if the
request has been carried out, and otherwise an error that changes no subscription. -/
def Answered (env : DeliveryPolicy) (config : ServerConfig) (h : Host) (frame : Frame)
    (request : SubRequest) : Prop :=
  let h' := h.handleFrame env config frame
  ∃ reply : Frame, h'.session.outbound = h.session.outbound ++ [reply] ∧
    reply.header.correlationId = frame.header.correlationId ∧
    (reply.header.frameType = request.ack.asU8 ∧ CarriedOut h h' request ∨
      reply.header.frameType = FrameType.error.asU8 ∧ ¬CarriedOut h h' request ∧
        ∀ id, h'.broker.registry.getRef id = h.broker.registry.getRef id)

def Answerable (config : ServerConfig) (h : Host) : SubRequest → Prop
  | .sub s =>
    config.maxSubscriptionsPerConnection ≤
        h.broker.subscriptionCountForConnection h.session.connId ∨
      ∃ pattern, SubjectPattern.parse s.subjectPattern = .ok pattern ∧
        (h.session.authCtx.canSubscribe pattern = false ∨ ∃ group, requestedGroup s = .ok group)
  | .unsub u => ∃ sub, h.broker.registry.getRef u.subscriptionId = some sub

theorem subIdGen_subscribe (b : BrokerCore) (conn : ConnectionId) (pattern : SubjectPattern)
    (group : Option QueueGroupName) (handle : DeliveryHandle) :
    (b.subscribe conn pattern group handle).1.subIdGen = b.subIdGen + 1 := by
  obtain ⟨groups, keys, next, key, after⟩ := subscribe_eq b conn pattern group handle
  rw [after]

theorem getRef_unsubscribe (b : BrokerCore) (conn : ConnectionId) (id other : SubscriptionId) :
    (b.unsubscribe conn id).registry.getRef other =
      if other = id then none else b.registry.getRef other := by
  cases found : b.registry.getRef id with
  | none =>
    rw [unsubscribe_none found]
    split_ifs with same
    · rw [same, found]
    · rfl
  | some sub =>
    rw [unsubscribe_some found]
    rw [SubscriptionRegistry.getRef] at found
    simp only [SubscriptionRegistry.remove, found, SubscriptionRegistry.getRef, lookup_erase_ite]

theorem bind_toOption_of_requested {s : SubscribeCommand} {group : Option QueueGroupName}
    (named : requestedGroup s = .ok group) :
    (s.queueGroup.bind fun q => (QueueGroupName.new q).toOption) = group := by
  unfold requestedGroup at named
  cases text : s.queueGroup with
  | none => simpa [text] using named
  | some q =>
    rw [text] at named
    dsimp only at named
    cases parsed : QueueGroupName.new q with
    | error e => simp [parsed, Except.map] at named
    | ok name => simpa [parsed, Except.map, Except.toOption] using named

theorem dispatchSubscribe_ok (h : Host) {s : SubscribeCommand} {pattern : SubjectPattern}
    (parsed : SubjectPattern.parse s.subjectPattern = .ok pattern) (correlationId : ℕ) :
    (h.dispatchSubscribe s correlationId).broker = (h.broker.subscribe h.session.connId pattern
        (s.queueGroup.bind fun q => (QueueGroupName.new q).toOption)
        (channelOf h.session.connId)).1 ∧
      (h.dispatchSubscribe s correlationId).session.outbound = h.session.outbound ++
        [(Frame.new .suback correlationId).withPayload (toBe 8 h.broker.subIdGen)] := by
  unfold Host.dispatchSubscribe
  rw [parsed]
  exact ⟨rfl, rfl⟩

section Connected

variable (env : DeliveryPolicy) (config : ServerConfig) {h : Host} {frame : Frame}
  (connected : h.session.state = .connected)

include connected

theorem handleFrame_unsub {u : UnsubscribeCommand}
    (decoded : BrokerCommand.fromFrame frame = .ok (.unsubscribe u)) :
    h.handleFrame env config frame = h.dispatchUnsubscribe u frame.header.correlationId := by
  simp only [Host.handleFrame, decoded, Host.handleCommand, connected, ne_eq, not_true, if_false,
    Host.dispatch]

theorem answered_unsub_iff {u : UnsubscribeCommand}
    (decoded : BrokerCommand.fromFrame frame = .ok (.unsubscribe u)) :
    Answered env config h frame (.unsub u) ↔
      ∃ sub, h.broker.registry.getRef u.subscriptionId = some sub := by
  have gone := getRef_unsubscribe h.broker h.session.connId u.subscriptionId
  rw [Answered, handleFrame_unsub env config connected decoded]
  constructor
  · rintro ⟨reply, sent, -, ⟨-, live, -⟩ | ⟨isError, -⟩⟩
    · exact live
    · cases List.append_cancel_left sent
      simp [Frame.new, Frame.withPayload, FrameHeader.new, FrameType.asU8] at isError
  · intro live
    refine ⟨_, rfl, rfl, .inl ⟨rfl, live, ?_, fun other differ => ?_⟩⟩
    · exact (gone _).trans (if_pos rfl)
    · exact (gone other).trans (if_neg differ)

variable {s : SubscribeCommand} (decoded : BrokerCommand.fromFrame frame = .ok (.subscribe s))

include decoded

theorem handleFrame_refused {text : Str} (refused : h.subscribeRefusal config s = some text) :
    h.handleFrame env config frame = h.send (errorFrame frame.header.correlationId text) := by
  simp only [Host.handleFrame, decoded, Host.handleCommand, connected, ne_eq, not_true, if_false,
    refused]

theorem handleFrame_granted (granted : h.subscribeRefusal config s = none) :
    h.handleFrame env config frame = h.dispatchSubscribe s frame.header.correlationId := by
  simp only [Host.handleFrame, decoded, Host.handleCommand, connected, ne_eq, not_true, if_false,
    granted, Host.dispatch]

theorem answered_refused {text : Str} (refused : h.subscribeRefusal config s = some text) :
    Answered env config h frame (.sub s) := by
  rw [Answered, handleFrame_refused env config connected decoded refused]
  refine ⟨_, rfl, rfl, .inr ⟨rfl, ?_, fun _ => rfl⟩⟩
  rintro ⟨pattern, group, -, -, same⟩
  have ids := congrArg BrokerCore.subIdGen same
  rw [subIdGen_subscribe] at ids
  exact Nat.ne_of_lt (Nat.lt_succ_self _) ids

section
variable (granted : h.subscribeRefusal config s = none)
include granted

theorem handleFrame_unparsed {e : CoreError}
    (unparsed : SubjectPattern.parse s.subjectPattern = .error e) :
    h.handleFrame env config frame = h := by
  rw [handleFrame_granted env config connected decoded granted]
  simp only [Host.dispatchSubscribe, unparsed]

theorem not_answered_unparsed {e : CoreError}
    (unparsed : SubjectPattern.parse s.subjectPattern = .error e) :
    ¬Answered env config h frame (.sub s) := by
  rw [Answered, handleFrame_unparsed env config connected decoded granted unparsed]
  rintro ⟨reply, sent, -⟩
  simp at sent

theorem answered_granted_iff {pattern : SubjectPattern}
    (parsed : SubjectPattern.parse s.subjectPattern = .ok pattern) :
    Answered env config h frame (.sub s) ↔ ∃ group, requestedGroup s = .ok group := by
  obtain ⟨broker, outbound⟩ := dispatchSubscribe_ok h parsed frame.header.correlationId
  rw [Answered, handleFrame_granted env config connected decoded granted, outbound]
  constructor
  · rintro ⟨reply, sent, -, ⟨-, _, group, -, named, -⟩ | ⟨isError, -⟩⟩
    · exact ⟨group, named⟩
    · -- an acknowledgement was sent, not an error
      cases List.append_cancel_left sent
      simp [Frame.new, Frame.withPayload, FrameHeader.new, FrameType.asU8] at isError
  · rintro ⟨group, named⟩
    rw [bind_toOption_of_requested named] at broker
    exact ⟨_, rfl, rfl, .inl ⟨rfl, pattern, group, parsed, named, broker⟩⟩

end

theorem answered_sub_iff :
    Answered env config h frame (.sub s) ↔ Answerable config h (.sub s) := by
  rw [Answerable]
  by_cases full : config.maxSubscriptionsPerConnection ≤
      h.broker.subscriptionCountForConnection h.session.connId
  · have refused : h.subscribeRefusal config s = some ("max subscriptions exceeded: ".toList ++
        decimal config.maxSubscriptionsPerConnection) := by
      rw [Host.subscribeRefusal, if_pos full]
    exact iff_of_true (answered_refused env config connected decoded refused) (.inl full)
  cases parsed : SubjectPattern.parse s.subjectPattern with
  | error e =>
    have granted : h.subscribeRefusal config s = none := by
      simp only [Host.subscribeRefusal, if_neg full, parsed]
    refine iff_of_false (not_answered_unparsed env config connected decoded granted parsed) ?_
    simp [full]
  | ok pattern =>
    cases allowed : h.session.authCtx.canSubscribe pattern with
    | false =>
      have refused : h.subscribeRefusal config s =
          some "permission denied for subscribe".toList := by
        simp only [Host.subscribeRefusal, if_neg full, parsed, allowed, Bool.false_eq_true,
          if_false]
      refine iff_of_true (answered_refused env config connected decoded refused) ?_
      exact .inr ⟨pattern, rfl, .inl allowed⟩
    | true =>
      have granted : h.subscribeRefusal config s = none := by
        simp only [Host.subscribeRefusal, if_neg full, parsed, allowed, if_true]
      rw [answered_granted_iff env config connected decoded granted parsed]
      simp [full, allowed]

end Connected

/-- A decoded `SUB` or `UNSUB` of a connected session is answered as promised exactly
if it is answerable. -/
theorem answered_iff (env : DeliveryPolicy) (config : ServerConfig) {h : Host}
    (connected : h.session.state = .connected) {frame : Frame} {request : SubRequest}
    (decoded : BrokerCommand.fromFrame frame = .ok request.command) :
    Answered env config h frame request ↔ Answerable config h request := by
  cases request with
  | sub s => exact answered_sub_iff env config connected decoded
  | unsub u => exact answered_unsub_iff env config connected decoded

theorem connected_connectedSession : connectedSession.session.state = .connected := by decide

theorem grouped_sub_answered :
    Answered acceptAll openServer connectedSession
      (buildSubFrame "orders.*".toList (some "workers".toList) 5)
      (.sub ⟨"orders.*".toList, some "workers".toList⟩) :=
  (answered_iff acceptAll openServer connected_connectedSession (by decide)).mpr
    (.inr ⟨ordersAny, by decide, .inr ⟨some workers, by decide⟩⟩)

private def strayUnsub : Frame := (Frame.new .unsub 7).withPayload (toBe 8 9)

/-- An empty token in the pattern is met with silence; a blank group name and the
cancellation of a subscription that does not exist are met with acknowledgements. -/
theorem sub_unanswered :
    BrokerCommand.fromFrame (buildSubFrame "orders..new".toList none 5) =
        .ok (.subscribe ⟨"orders..new".toList, none⟩) ∧
      (connectedSession.handleFrame acceptAll openServer
          (buildSubFrame "orders..new".toList none 5)).session.outbound =
        connectedSession.session.outbound ∧
      ¬Answered acceptAll openServer connectedSession (buildSubFrame "orders..new".toList none 5)
        (.sub ⟨"orders..new".toList, none⟩) ∧
      BrokerCommand.fromFrame (buildSubFrame "orders.new".toList (some " ".toList) 6) =
        .ok (.subscribe ⟨"orders.new".toList, some " ".toList⟩) ∧
      ((connectedSession.handleFrame acceptAll openServer
          (buildSubFrame "orders.new".toList (some " ".toList) 6)).session.outbound.map
            fun reply => (reply.header.frameType, reply.header.correlationId)) =
        [(FrameType.connack.asU8, 0), (FrameType.suback.asU8, 6)] ∧
      ¬Answered acceptAll openServer connectedSession
        (buildSubFrame "orders.new".toList (some " ".toList) 6)
        (.sub ⟨"orders.new".toList, some " ".toList⟩) ∧
      BrokerCommand.fromFrame strayUnsub = .ok (.unsubscribe ⟨9⟩) ∧
      ((connectedSession.handleFrame acceptAll openServer strayUnsub).session.outbound.map
            fun reply => (reply.header.frameType, reply.header.correlationId)) =
        [(FrameType.connack.asU8, 0), (FrameType.unsuback.asU8, 7)] ∧
      ¬Answered acceptAll openServer connectedSession strayUnsub (.unsub ⟨9⟩) := by
  have badPattern : BrokerCommand.fromFrame (buildSubFrame "orders..new".toList none 5) =
      .ok (.subscribe ⟨"orders..new".toList, none⟩) := by decide
  have blankGroup : BrokerCommand.fromFrame
      (buildSubFrame "orders.new".toList (some " ".toList) 6) =
        .ok (.subscribe ⟨"orders.new".toList, some " ".toList⟩) := by decide
  have unparsed : SubjectPattern.parse "orders..new".toList =
      .error (.invalidSubjectPattern "pattern contains empty token".toList) := by decide
  have parsed : SubjectPattern.parse "orders.new".toList = .ok ordersNew := by decide
  have unknown : BrokerCommand.fromFrame strayUnsub = .ok (.unsubscribe ⟨9⟩) := by decide
  refine ⟨badPattern, by decide, ?_, blankGroup, by decide, ?_, unknown, by decide, ?_⟩
  · exact not_answered_unparsed acceptAll openServer connected_connectedSession badPattern
      (by decide) unparsed
  · rw [answered_granted_iff acceptAll openServer connected_connectedSession blankGroup
      (by decide) parsed]
    rintro ⟨group, named⟩
    cases named
  · rw [answered_unsub_iff acceptAll openServer connected_connectedSession unknown]
    rintro ⟨sub, found⟩
    cases found

end ZetMQ.SubscriptionReplies
