import ZetMQ.ConnectionCount
import ZetMQ.FrameLoopEnds

/-! What one turn of a session's loop does beside publishing: it changes at most one of the
subscriptions or issues one operation for the store, for its own connection only. -/
namespace ZetMQ.TurnEffects
open Utf8Text ByteBuffer Frames FrameCodec KeyedTable SubjectGrammar WildcardTrie Delivery
open Registry Broker
open Commands Permissions PubFastPath SessionLoop SessionSteps SessionTurns DeliveryFrame
open ConnectionCount

/-- What traffic does not touch in a session. -/
structure Kept (s s' : Session) : Prop where
  connId : s'.connId = s.connId
  ops : s'.storeOps = s.storeOps

inductive Change (config : ServerConfig) (h h' : Host) : Prop
  | traffic (same : SameSubscriptions h.broker h'.broker)
      (ops : h'.session.storeOps = h.session.storeOps)
  | subscribed (pattern : SubjectPattern) (group : Option QueueGroupName)
      (room : h.broker.subscriptionCountForConnection h.session.connId <
        config.maxSubscriptionsPerConnection)
      (broker : h'.broker = (h.broker.subscribe h.session.connId pattern group
        (channelOf h.session.connId)).1)
      (ops : h'.session.storeOps = h.session.storeOps)
  | unsubscribed (id : SubscriptionId)
      (broker : h'.broker = h.broker.unsubscribe h.session.connId id)
      (ops : h'.session.storeOps = h.session.storeOps)
  | stored (op : StoreOp) (broker : h'.broker = h.broker)
      (ops : h'.session.storeOps = h.session.storeOps ++ [op])

theorem Change.of_setBuf {config : ServerConfig} {h h' : Host} {readBuf : Bytes}
    (change : Change config (h.setBuf readBuf) h') : Change config h h' := by
  cases change with
  | traffic same ops => exact .traffic same ops
  | subscribed pattern group room broker ops => exact .subscribed pattern group room broker ops
  | unsubscribed id broker ops => exact .unsubscribed id broker ops
  | stored op broker ops => exact .stored op broker ops

/-- What one turn does, for the same connection. -/
structure TurnEffect (config : ServerConfig) (h h' : Host) : Prop where
  connId : h'.session.connId = h.session.connId
  change : Change config h h'

theorem TurnEffect.traffic {config : ServerConfig} {h h' : Host}
    (same : SameSubscriptions h.broker h'.broker) (kept : Kept h.session h'.session) :
    TurnEffect config h h' :=
  ⟨kept.connId, .traffic same kept.ops⟩

theorem dispatchSubscribe_effect (config : ServerConfig) (h : Host) (s : SubscribeCommand)
    (correlationId : ℕ) (granted : h.subscribeRefusal config s = none) :
    TurnEffect config h (h.dispatchSubscribe s correlationId) := by
  unfold Host.subscribeRefusal at granted
  unfold Host.dispatchSubscribe
  split
  · exact .traffic (.refl _) ⟨rfl, rfl⟩
  · rename_i pattern parsed
    simp only [parsed] at granted
    split_ifs at granted with full
    exact ⟨rfl, .subscribed pattern _ (Nat.lt_of_not_le full) rfl rfl⟩

theorem dispatchPublish_effect (env : DeliveryPolicy) (config : ServerConfig) {h h' : Host}
    (same : SameSubscriptions h.broker h'.broker) (session : h'.session = h.session)
    (p : PublishCommand) : TurnEffect config h (h'.dispatchPublish env p) := by
  obtain ⟨publishing, unchanged⟩ := dispatchPublish_same env h' p
  rw [session] at unchanged
  exact .traffic (same.trans publishing) ⟨congrArg Session.connId unchanged,
    congrArg Session.storeOps unchanged⟩

theorem handleConnect_effect (config : ServerConfig) (h : Host) (auth : AuthInfo)
    (correlationId : ℕ) : TurnEffect config h (h.handleConnect config auth correlationId) := by
  have quiet := handleConnect_quiet config h auth correlationId
  unfold Host.handleConnect at quiet ⊢
  split <;> rename_i result <;> rw [result] at quiet
  · exact .traffic quiet.same ⟨rfl, rfl⟩
  · exact .traffic quiet.same ⟨rfl, rfl⟩

theorem handleCommand_effect (env : DeliveryPolicy) (config : ServerConfig) (h : Host)
    (cmd : BrokerCommand) (correlationId : ℕ) :
    TurnEffect config h (h.handleCommand env config cmd correlationId) := by
  have nothing : TurnEffect config h h := .traffic (.refl _) ⟨rfl, rfl⟩
  cases cmd with
  | connect c => exact handleConnect_effect config h c.auth correlationId
  | ping => exact .traffic (.refl _) ⟨rfl, rfl⟩
  | subscribe s =>
    simp only [Host.handleCommand]
    split_ifs
    · exact nothing
    · split
      · exact .traffic (.refl _) ⟨rfl, rfl⟩
      · rename_i granted
        exact dispatchSubscribe_effect config h s correlationId granted
  | publish p =>
    have checked := publishRefused_same h p
    simp only [Host.handleCommand]
    split_ifs
    · exact nothing
    · exact .traffic checked ⟨rfl, rfl⟩
    · exact @dispatchPublish_effect env config h { h with broker := (h.publishRefused p).1 }
        checked rfl p
  | unsubscribe u =>
    simp only [Host.handleCommand]
    split_ifs
    · exact nothing
    · exact ⟨rfl, .unsubscribed u.subscriptionId rfl rfl⟩
  | _ =>
    simp only [Host.handleCommand]
    split_ifs
    · exact nothing
    · exact ⟨rfl, .stored _ rfl rfl⟩

theorem handleFrame_effect (env : DeliveryPolicy) (config : ServerConfig) (h : Host)
    (frame : Frame) : TurnEffect config h (h.handleFrame env config frame) := by
  unfold Host.handleFrame
  split
  · exact handleCommand_effect env config h _ _
  · have counted : Quiet h.broker h.incProtocolErrors.broker := .counters h.broker rfl
    exact .traffic counted.same ⟨rfl, rfl⟩

theorem flushPublished_kept (h : Host) : Kept h.session h.flushPublished.session := by
  unfold Host.flushPublished
  split <;> exact ⟨rfl, rfl⟩

theorem addPublished_kept (h : Host) (published : ℕ) :
    Kept h.session (h.addPublished published).session := by
  unfold Host.addPublished
  dsimp only
  split
  · have kept := flushPublished_kept { h with session :=
      { h.session with localPublished := h.session.localPublished + published } }
    exact ⟨kept.connId, kept.ops⟩
  · exact ⟨rfl, rfl⟩

section
variable (env : DeliveryPolicy) (config : ServerConfig) (order : PendingOrder)

theorem fastPath_effect (h : Host) : TurnEffect config h (h.fastPath env config order) := by
  have same := fromReadBuf_traffic SameSubscriptions.traffic env order h.session.authCtx
    config.maxFrameSize (.start h.session.readBuf h.broker)
  unfold Host.fastPath
  generalize dispatchPublishBatchFromReadBuf env order h.session.authCtx config.maxFrameSize
    (.start h.session.readBuf h.broker) = ended at same
  obtain ⟨result, loop⟩ := ended
  have absorbed : SameSubscriptions h.broker (h.absorb loop).broker := same
  dsimp only
  split
  · rename_i published
    have kept := addPublished_kept (h.absorb loop) published
    exact .traffic (absorbed.trans (addPublished_quiet _ _).same)
      ⟨kept.connId, kept.ops⟩
  · exact .traffic absorbed ⟨rfl, rfl⟩
  · exact .traffic (absorbed.trans (decodeFailed_quiet _ _).same) ⟨rfl, rfl⟩

theorem iterate_effect (h : Host) : TurnEffect config h (h.iterate env config order) := by
  unfold Host.iterate
  split_ifs with fast
  · exact fastPath_effect env config order h
  · cases decoded : Frame.decodeFrom h.session.readBuf config.maxFrameSize with
    | mk result rest =>
      have quiet := flushPublished_quiet (h.setBuf rest)
      have kept := flushPublished_kept (h.setBuf rest)
      cases result with
      | error e =>
        exact .traffic (quiet.same.trans (decodeFailed_quiet _ e).same)
          ⟨kept.connId, kept.ops⟩
      | ok found =>
        cases found with
        | none => exact .traffic quiet.same ⟨kept.connId, kept.ops⟩
        | some frame =>
          have effect := handleFrame_effect env config (h.setBuf rest) frame
          exact ⟨effect.connId, effect.change.of_setBuf⟩

end

end ZetMQ.TurnEffects
