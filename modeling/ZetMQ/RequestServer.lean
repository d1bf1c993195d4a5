import ZetMQ.ClientRequests
import ZetMQ.SessionSteps
import ZetMQ.SubscriptionReplies

/-! The server behind a request. The ids that an endpoint holds for the server are those
in the registry of the session, and stay so while the session handles the frames of a
request. -/
namespace ZetMQ.RequestServer
open Utf8Text Utf8Codec ByteBuffer KeyedTable Frames SubjectGrammar WildcardTrie Delivery Registry
open Broker DeliveryFrame BrokerRefinement Commands Permissions PubFastPath SessionLoop SessionSteps
open SubFrames PubRoundTrip ClientRequests SubscriptionReplies

structure Mirrors (live : Finset ℕ) (nextId : ℕ) (h : Host) : Prop where
  connected : h.session.state = .connected
  holds : ∀ id, id ∈ live ↔
    ∃ sub, h.broker.registry.getRef id = some sub ∧ sub.connectionId = h.session.connId
  below : nextId ≤ h.broker.subIdGen

theorem fromFrame_inbox {subject : Str} (short : utf8Len subject ≤ 255) (corrId : ℕ) :
    BrokerCommand.fromFrame (buildSubFrame subject none corrId) =
      .ok (.subscribe ⟨subject, none⟩) := by
  have text : fromUtf8Lossy ((encode subject).take (utf8Len subject % 256)) = subject := by
    rw [Nat.mod_eq_of_lt (by omega), ← encode_length, List.take_length, fromUtf8Lossy_encode]
  rw [fromFrame_sub, text, groupAt_section short none (by simp), Option.bind_none]

theorem fromFrame_unsub {id : ℕ} (fits : id < 2 ^ 64) :
    BrokerCommand.fromFrame (unsubFrame id) = .ok (.unsubscribe ⟨id⟩) := by
  have length : ¬(unsubFrame id).payload.length < 8 := by
    rw [unsubFrame, Frame.withPayload, toBe_length]
    omega
  have value : beAt (unsubFrame id).payload 0 8 = id :=
    @beAt_written _ [] [] 0 8 id (by simp [unsubFrame, Frame.withPayload]) rfl fits
  have unsub : BrokerCommand.fromFrame (unsubFrame id) =
      (unsubscribeFromFrame (unsubFrame id)).map .unsubscribe := rfl
  rw [unsub, unsubscribeFromFrame, if_neg length, value]
  rfl

/-- A `PUB`, whatever becomes of it, leaves the subscriptions and the session alone. -/
theorem handleFrame_pub (env : DeliveryPolicy) (config : ServerConfig) {h : Host}
    (connected : h.session.state = .connected) {frame : Frame}
    (isPub : frame.header.frameType = FrameType.pub.asU8) :
    SameSubscriptions h.broker (h.handleFrame env config frame).broker ∧
      (h.handleFrame env config frame).session.state = .connected ∧
      (h.handleFrame env config frame).session.connId = h.session.connId := by
  have decoded : BrokerCommand.fromFrame frame = (publishFromFrame frame).map .publish := by
    rw [BrokerCommand.fromFrame, isPub]
    rfl
  rw [Host.handleFrame, decoded]
  cases publishFromFrame frame with
  | error e =>
    exact ⟨SameSubscriptions.traffic.counted h.broker _ rfl rfl, connected, rfl⟩
  | ok p =>
    have checked := publishRefused_same h p
    simp only [Except.map, Host.handleCommand, connected, ne_eq, not_true, if_false]
    cases refusal : h.publishRefused p with
    | mk broker refused =>
      rw [refusal] at checked
      cases refused with
      | true => exact ⟨checked, connected, rfl⟩
      | false =>
        obtain ⟨sent, session⟩ := dispatchPublish_same env { h with broker := broker } p
        refine ⟨SameSubscriptions.traffic.trans checked sent, ?_, ?_⟩
        · exact (congrArg Session.state session).trans connected
        · exact congrArg Session.connId session

theorem subIdGen_unsubscribe (b : BrokerCore) (conn : ConnectionId) (id : SubscriptionId) :
    (b.unsubscribe conn id).subIdGen = b.subIdGen := by
  cases found : b.registry.getRef id with
  | none => rw [unsubscribe_none found]
  | some sub => rw [unsubscribe_some found]

theorem dispatchSubscribe_session (h : Host) (s : SubscribeCommand) (correlationId : ℕ) :
    (h.dispatchSubscribe s correlationId).session.state = h.session.state ∧
      (h.dispatchSubscribe s correlationId).session.connId = h.session.connId := by
  unfold Host.dispatchSubscribe
  cases SubjectPattern.parse s.subjectPattern <;> exact ⟨rfl, rfl⟩

section Frames
variable {live : Finset ℕ} {nextId : ℕ} {h : Host} (m : Mirrors live nextId h)
  (env : DeliveryPolicy) (config : ServerConfig)

include m

theorem sub_mirrors {subject : Str} {pattern : SubjectPattern} (short : utf8Len subject ≤ 255)
    (granted : h.subscribeRefusal config ⟨subject, none⟩ = none)
    (parsed : SubjectPattern.parse subject = .ok pattern) (corrId : ℕ) :
    Mirrors (insert h.broker.subIdGen live) (h.broker.subIdGen + 1)
      (h.handleFrame env config (buildSubFrame subject none corrId)) := by
  have handled := handleFrame_granted env config m.connected (fromFrame_inbox short corrId) granted
  have session := dispatchSubscribe_session h ⟨subject, none⟩ corrId
  have broker := (@dispatchSubscribe_ok h ⟨subject, none⟩ pattern parsed corrId).1
  change h.handleFrame env config (buildSubFrame subject none corrId) =
    h.dispatchSubscribe ⟨subject, none⟩ corrId at handled
  rw [handled]
  refine ⟨session.1.trans m.connected, fun id => ?_, ?_⟩
  · rw [broker, session.2, Finset.mem_insert, m.holds]
    change _ ↔ ∃ sub, (h.broker.registry.add ⟨h.broker.subIdGen, h.session.connId, pattern, none,
      none, channelOf h.session.connId⟩).getRef id = some sub ∧ _
    rw [getRef_add]
    split_ifs with same
    · simp [same]
    · simp [same]
  · rw [broker, subIdGen_subscribe]

theorem pub_mirrors {frame : Frame} (isPub : frame.header.frameType = FrameType.pub.asU8) :
    Mirrors live nextId (h.handleFrame env config frame) := by
  obtain ⟨same, connected, connId⟩ := handleFrame_pub env config m.connected isPub
  exact ⟨connected, fun id => by rw [same.registry, connId, m.holds], same.nextId ▸ m.below⟩

theorem unsub_mirrors {id : ℕ} (fits : id < 2 ^ 64) :
    Mirrors (live.erase id) nextId (h.handleFrame env config (unsubFrame id)) := by
  rw [handleFrame_unsub env config m.connected (fromFrame_unsub fits)]
  refine ⟨m.connected, fun other => ?_, ?_⟩
  · change _ ↔ ∃ sub, (h.broker.unsubscribe h.session.connId id).registry.getRef other = some sub ∧
      sub.connectionId = h.session.connId
    rw [getRef_unsubscribe, Finset.mem_erase, m.holds]
    split_ifs with same
    · simp [same]
    · simp [same]
  · change nextId ≤ (h.broker.unsubscribe h.session.connId id).subIdGen
    rw [subIdGen_unsubscribe]
    exact m.below

end Frames

/-- The server that handles the frames of an acknowledged request ends up with the ids
that the endpoint ends up with. -/
theorem after_mirrors {M : Type} {s : Endpoint} {call : Call M} {skipped : ℕ} {h : Host}
    {pattern : SubjectPattern} (m : Mirrors s.live s.nextId h) (env : DeliveryPolicy)
    (config : ServerConfig) (acked : call.timing.subscribing = .acked skipped)
    (next : s.nextId + skipped = h.broker.subIdGen)
    (short : utf8Len (s.inbox ++ ".".toList ++ decimal s.replyCounter) ≤ 255)
    (granted : h.subscribeRefusal config ⟨s.inbox ++ ".".toList ++ decimal s.replyCounter, none⟩ =
      none)
    (parsed : SubjectPattern.parse (s.inbox ++ ".".toList ++ decimal s.replyCounter) = .ok pattern)
    (fits : (s.client.unsubscribe (s.nextId + skipped)).2 < 2 ^ 64) :
    Mirrors (s.after call).live (s.after call).nextId
      (((s.after call).sent.drop s.sent.length).foldl (Host.handleFrame env config) h) := by
  -- the `SUB`, the `PUB` and the `UNSUB`, as far as the request gets
  have subscribed := sub_mirrors m env config short granted parsed s.subCounter
  rw [← next] at subscribed
  have isPub (bytes : Bytes) :
      ((Frame.new .pub 0).withPayload bytes).header.frameType = FrameType.pub.asU8 := rfl
  have published := pub_mirrors subscribed env config (isPub (pubPayload call.subject
    (some (s.inbox ++ ".".toList ++ decimal s.replyCounter)) call.payload))
  have released := unsub_mirrors published env config fits
  let handle := Host.handleFrame env config
  have one (first : Frame) :
      ((s.sent ++ [first]).drop s.sent.length).foldl handle h = handle h first := by
    rw [List.drop_left, List.foldl_cons, List.foldl_nil]
  have two (first second : Frame) :
      ((s.sent ++ [first] ++ [second]).drop s.sent.length).foldl handle h =
        handle (handle h first) second := by
    rw [List.append_assoc, List.drop_left, List.foldl_append]
    rfl
  have three (first second third : Frame) :
      ((s.sent ++ [first] ++ [second] ++ [third]).drop s.sent.length).foldl handle h =
        handle (handle (handle h first) second) third := by
    rw [List.append_assoc, List.append_assoc, List.drop_left, List.foldl_append, List.foldl_append]
    rfl
  unfold Endpoint.after Endpoint.request Endpoint.subscribeInternal
  simp only [acked]
  cases call.timing.publishing with
  | error e =>
    change Mirrors _ _ ((List.drop s.sent.length (s.sent ++ [_])).foldl handle h)
    rw [one]
    exact subscribed
  | ok done =>
    dsimp only
    cases call.timing.waiting with
    | timeout =>
      change Mirrors _ _ ((List.drop s.sent.length (s.sent ++ [_] ++ [_])).foldl handle h)
      rw [two]
      exact published
    | closed =>
      change Mirrors _ _ ((List.drop s.sent.length (s.sent ++ [_] ++ [_])).foldl handle h)
      rw [two]
      exact published
    | reply message =>
      cases call.timing.unsubscribing with
      | false =>
        change Mirrors _ _ ((List.drop s.sent.length (s.sent ++ [_] ++ [_])).foldl handle h)
        rw [two]
        exact published
      | true =>
        change Mirrors _ _ ((List.drop s.sent.length (s.sent ++ [_] ++ [_] ++ [_])).foldl handle h)
        rw [three]
        exact released

end ZetMQ.RequestServer
