import ZetMQ.SessionSteps
import ZetMQ.AuthGate

/-! The count of active connections over all sessions of a server. It goes up with
every `CONNECT` that is accepted and down with every session that ends, so it counts
the connected sessions exactly as long as the two come in pairs. -/
namespace ZetMQ.ConnectionCount
open Utf8Text ByteBuffer Frames KeyedTable SubjectGrammar WildcardTrie Delivery Registry Broker
open SubscriptionLedger DeliveryFrame RunRefinement Commands Permissions PubFastPath SessionLoop
open SessionSteps AuthGate BrokerRefinement

/-- The count of the connections, which is negative where the counter has wrapped. -/
def tally (b : BrokerCore) : ℤ := b.metrics.activeConnections

def connections (b : BrokerCore) : ℕ := readCounter (tally b)

theorem traffic_tally : Traffic fun b b' => tally b' = tally b where
  refl _ := rfl
  trans first later := later.trans first
  logged _ _ := rfl
  counted _ _ same _ := same
  advanced _ _ _ _ _ := rfl
  cached _ _ _ _ := rfl

section
variable {R : BrokerCore → BrokerCore → Prop} (traffic : Traffic R)
include traffic

theorem parseReply_traffic (b : BrokerCore) (replyTo : Option Bytes) :
    R b (parseReply b replyTo).1 := by
  unfold parseReply
  split
  · exact traffic.refl b
  · rename_i text _
    have asked := traffic.parseSubject b text
    split <;> rename_i result <;> rwa [result] at asked

theorem pushItem_traffic (acc : BrokerCore × List PublishItem) (command : PublishCommand) :
    R acc.1 (pushItem acc command).1 := by
  unfold pushItem
  split
  · exact traffic.refl _
  · rename_i text _
    have asked := traffic.parseSubject acc.1 text
    split <;> rename_i result <;> rw [result] at asked
    · exact asked
    · exact traffic.trans asked (parseReply_traffic traffic _ command.replyTo)

theorem publishAllowed_traffic (b : BrokerCore) (ctx : AuthContext) (subject : Bytes) :
    R b (publishAllowed b ctx subject).1 := by
  unfold publishAllowed
  split
  · exact traffic.refl b
  · split
    · exact traffic.refl b
    · rename_i text _
      have asked := traffic.parseSubject b text
      split <;> rename_i result <;> rwa [result] at asked

theorem checkFrame_traffic (ctx : AuthContext) (maxFrameSize : ℕ) (loop : PubLoop) :
    R loop.broker (checkFrame ctx maxFrameSize loop).2.broker := by
  unfold checkFrame
  split
  · exact traffic.refl _
  · exact traffic.refl _
  · dsimp only
    split
    · exact traffic.refl _
    · exact publishAllowed_traffic traffic _ _ _

theorem skipFrame_traffic (maxFrameSize : ℕ) (loop : PubLoop) :
    R loop.broker (skipFrame maxFrameSize loop).2.broker := by
  unfold skipFrame
  split <;> exact traffic.refl _

theorem collectFrame_traffic (ctx : AuthContext) (maxFrameSize : ℕ) (loop : PubLoop) :
    R loop.broker (collectFrame ctx maxFrameSize loop).2.broker := by
  unfold collectFrame
  split
  · exact traffic.refl _
  · exact traffic.refl _
  · split
    · exact traffic.refl _
    · exact publishAllowed_traffic traffic _ _ _

theorem pubLoop_traffic {body : PubLoop → Turn × PubLoop}
    (step : ∀ loop, R loop.broker (body loop).2.broker) (limit : ℕ) (loop : PubLoop) :
    R loop.broker (pubLoop body limit loop).2.broker :=
  @pubLoop_preserves (fun later => R loop.broker later.broker) body
    (fun later before => traffic.trans before (step later)) limit loop (traffic.refl _)

theorem dispatchPublishBatch_traffic (env : DeliveryPolicy) (order : PendingOrder) (b : BrokerCore)
    (publishes : List PublishCommand) : R b (dispatchPublishBatch env order b publishes) := by
  unfold dispatchPublishBatch
  split
  · exact traffic.refl b
  · exact traffic.trans (traffic.foldl Prod.fst (pushItem_traffic traffic) publishes (b, []))
      (traffic.publishBatch env order _ _)

theorem drain_traffic (ctx : AuthContext) (maxFrameSize : ℕ) (loop : PubLoop) :
    R loop.broker (drainPublishBatchWithoutSubscribers ctx maxFrameSize loop).2.broker := by
  unfold drainPublishBatchWithoutSubscribers
  split
  · have kept := pubLoop_traffic traffic (skipFrame_traffic traffic maxFrameSize)
      noSubPubBatchLimit loop
    split <;> rename_i result <;> rwa [result] at kept
  · have kept := pubLoop_traffic traffic (checkFrame_traffic traffic ctx maxFrameSize)
      noSubPubBatchLimit loop
    split <;> rename_i result <;> rwa [result] at kept

theorem fromReadBuf_traffic (env : DeliveryPolicy) (order : PendingOrder) (ctx : AuthContext)
    (maxFrameSize : ℕ) (loop : PubLoop) :
    R loop.broker
      (dispatchPublishBatchFromReadBuf env order ctx maxFrameSize loop).2.broker := by
  unfold dispatchPublishBatchFromReadBuf
  split
  · exact drain_traffic traffic ctx maxFrameSize loop
  · have kept := pubLoop_traffic traffic (collectFrame_traffic traffic ctx maxFrameSize)
      pubBatchLimit loop
    split <;> rename_i result <;> rw [result] at kept
    · exact kept
    · dsimp only
      split
      · exact kept
      · exact traffic.trans kept (dispatchPublishBatch_traffic traffic env order _ _)

end

theorem subscribe_tally (b : BrokerCore) (conn : ConnectionId) (pattern : SubjectPattern)
    (group : Option QueueGroupName) (handle : DeliveryHandle) :
    tally (b.subscribe conn pattern group handle).1 = tally b := by
  obtain ⟨groups, keys, next, key, after⟩ := subscribe_eq b conn pattern group handle
  rw [after]
  rfl

theorem unsubscribe_tally (b : BrokerCore) (conn : ConnectionId) (id : SubscriptionId) :
    tally (b.unsubscribe conn id) = tally b := by
  unfold BrokerCore.unsubscribe
  split <;> rfl

theorem removeConnection_tally (b : BrokerCore) (conn : ConnectionId) :
    tally (b.removeConnection conn) = tally b - 1 := by
  have left := (foldl_leaveGroup
    ((b.registry.removeAllForConnection conn).2.map (·.id))
    (b.registry.removeAllForConnection conn).2
    { b with registry := (b.registry.removeAllForConnection conn).1 }).rest
  have uncounted (subs : List Subscription) (m : CoreMetrics) :
      (subs.foldl (fun m _ => m.decSubscriptions) m).activeConnections = m.activeConnections := by
    induction subs generalizing m with
    | nil => rfl
    | cons sub subs ih => rw [List.foldl_cons, ih, CoreMetrics.decSubscriptions]
  simp only [tally, BrokerCore.removeConnection, CoreMetrics.decActiveConnections, uncounted]
  rw [left]

structure Counting (n : ℤ) (h : Host) : Prop where
  tally : tally h.broker = n
  remains : h.position ≠ .finished

variable {n : ℤ} {h : Host} (env : DeliveryPolicy) (config : ServerConfig)

namespace Counting

section
variable (counting : Counting n h)
include counting

theorem send (frame : Frame) : Counting n (h.send frame) :=
  ⟨counting.tally, counting.remains⟩

theorem setBuf (readBuf : Bytes) : Counting n (h.setBuf readBuf) :=
  ⟨counting.tally, counting.remains⟩

theorem breakFrames : Counting n h.breakFrames :=
  ⟨counting.tally, by simp [Host.breakFrames]⟩

theorem flushPublished : Counting n h.flushPublished := by
  unfold Host.flushPublished
  split
  · exact ⟨counting.tally, counting.remains⟩
  · exact counting

theorem addPublished (published : ℕ) : Counting n (h.addPublished published) := by
  unfold Host.addPublished
  dsimp only
  split
  · exact flushPublished ⟨counting.tally, counting.remains⟩
  · exact ⟨counting.tally, counting.remains⟩

theorem decodeFailed (e : ProtocolError) : Counting n (h.decodeFailed e) :=
  ⟨counting.tally, counting.remains⟩

theorem fastPath (order : PendingOrder) : Counting n (h.fastPath env config order) := by
  have kept := fromReadBuf_traffic traffic_tally env order h.session.authCtx
    config.maxFrameSize (.start h.session.readBuf h.broker)
  unfold Host.fastPath
  generalize dispatchPublishBatchFromReadBuf env order h.session.authCtx config.maxFrameSize
    (.start h.session.readBuf h.broker) = result at kept
  obtain ⟨result, loop⟩ := result
  have absorbed : Counting n (h.absorb loop) :=
    ⟨Eq.trans kept counting.tally, counting.remains⟩
  dsimp only
  split
  · exact absorbed.addPublished _
  · exact absorbed.breakFrames
  · exact absorbed.decodeFailed _

theorem dispatch (cmd : BrokerCommand) (correlationId : ℕ) :
    Counting n (h.dispatch env cmd correlationId) := by
  cases cmd with
  | publish p =>
    simp only [Host.dispatch, Host.dispatchPublish]
    split
    · exact counting
    · refine ⟨Eq.trans ?_ counting.tally, counting.remains⟩
      exact traffic_tally.trans (parseReply_traffic traffic_tally _ _)
        (traffic_tally.publishWithStr env _ _ _ _ _)
  | subscribe s =>
    simp only [Host.dispatch, Host.dispatchSubscribe]
    split
    · exact counting
    · exact ⟨(subscribe_tally ..).trans counting.tally, counting.remains⟩
  | unsubscribe u =>
    exact ⟨(unsubscribe_tally _ h.session.connId _).trans counting.tally,
      counting.remains⟩
  | _ => exact ⟨counting.tally, counting.remains⟩

theorem publishRefused (p : PublishCommand) :
    Counting n { h with broker := (h.publishRefused p).1 } := by
  refine ⟨Eq.trans ?_ counting.tally, counting.remains⟩
  unfold Host.publishRefused
  split
  · rfl
  · rename_i text _
    have asked := traffic_tally.parseSubject h.broker text
    split <;> rename_i result <;> rwa [result] at asked

theorem handleCommand (cmd : BrokerCommand) (correlationId : ℕ)
    (refused : ∀ c ctx, cmd = .connect c → validateAuth c.auth config ≠ .ok ctx) :
    Counting n (h.handleCommand env config cmd correlationId) := by
  cases cmd with
  | connect c =>
    rw [Host.handleCommand, Host.handleConnect]
    split
    · rename_i ctx valid
      exact absurd valid (refused c ctx rfl)
    · exact (counting.send _).breakFrames
  | ping => exact counting.send _
  | subscribe s =>
    simp only [Host.handleCommand]
    split
    · exact counting
    · split
      · exact counting.send _
      · exact counting.dispatch env _ correlationId
  | publish p =>
    simp only [Host.handleCommand]
    split
    · exact counting
    · split
      · exact (counting.publishRefused p).send _
      · exact (counting.publishRefused p).dispatch env _ correlationId
  | _ =>
    simp only [Host.handleCommand]
    split
    · exact counting
    · exact counting.dispatch env _ correlationId

end

end Counting

/-- The event processes a `CONNECT` that `validate_auth` accepts. -/
def Accepts (h : Host) (event : Event) : Prop :=
  ∃ order auth ctx, event = .turn order ∧ presented config h = some auth ∧
    validateAuth auth config = .ok ctx

def Ends (h : Host) (event : Event) : Prop := event = .close ∧ h.position = .cleanup

theorem turn_refused (counting : Counting n h) (order : PendingOrder)
    (refused : ¬Accepts config h (.turn order)) :
    Counting n (h.step env config (.turn order)) ∧
      (h.step env config (.turn order)).session.state = h.session.state := by
  have refused : ∀ auth ctx, presented config h = some auth → validateAuth auth config ≠ .ok ctx :=
    fun auth ctx given valid => refused ⟨order, auth, ctx, rfl, given, valid⟩
  refine ⟨?_, congrArg Prod.fst (turn_standing env h refused order)⟩
  rw [Host.step]
  split
  · rename_i framing
    rw [Host.iterate]
    split
    · exact counting.fastPath env config order
    · rename_i generic
      split
      · rename_i frame rest decoded
        unfold Host.handleFrame
        split
        · rename_i cmd command
          refine (counting.setBuf rest).handleCommand env config cmd _ ?_
          rintro c ctx rfl
          exact refused c.auth ctx (presented_connect framing generic decoded command)
        · exact ⟨counting.tally, counting.remains⟩
      · exact (counting.setBuf _).flushPublished.breakFrames
      · exact (counting.setBuf _).flushPublished.decodeFailed _
  · exact counting

theorem turn_accepted (h : Host) (order : PendingOrder) {auth : AuthInfo} {ctx : AuthContext}
    (given : presented config h = some auth) (valid : validateAuth auth config = .ok ctx) :
    h.position = .frames ∧
      Counting (tally h.broker + 1) (h.step env config (.turn order)) ∧
      (h.step env config (.turn order)).session.state = .connected := by
  unfold presented at given
  split at given
  · cases given
  · rename_i inFrames
    obtain ⟨framing, generic⟩ := not_or.mp inFrames
    have framing := not_not.mp framing
    rw [Host.step, if_pos framing, Host.iterate, if_neg generic]
    split at given
    · rename_i frame decoded
      rw [show Frame.decodeFrom h.session.readBuf config.maxFrameSize =
        (.ok (some frame), (Frame.decodeFrom h.session.readBuf config.maxFrameSize).2) from
          Prod.ext decoded rfl]
      split at given
      · rename_i c command
        cases given
        simp only [Host.handleFrame, command, Host.handleCommand, Host.handleConnect, valid]
        refine ⟨framing, ⟨rfl, ?_⟩, rfl⟩
        change h.position ≠ _
        rw [framing]
        decide
      · cases given
    · cases given

/-- The session is open and has completed a `CONNECT`: nothing else takes it out of
its first state. -/
def connected (h : Host) : Bool := h.session.state ≠ .new ∧ h.position ≠ .finished

theorem step_count (h : Host) (event : Event) (own : ∀ op, event ≠ .elsewhere op) :
    let h' := h.step env config event
    (Accepts config h event ∧ h.position ≠ .finished ∧
      tally h'.broker = tally h.broker + 1 ∧ connected h' = true) ∨
    (Ends h event ∧ h.position ≠ .finished ∧
      tally h'.broker = tally h.broker - 1 ∧ connected h' = false) ∨
    ¬Accepts config h event ∧ ¬Ends h event ∧ tally h'.broker = tally h.broker ∧
      connected h' = connected h := by
  have noTurn {event : Event} (other : ∀ order, event ≠ .turn order) : ¬Accepts config h event := by
    rintro ⟨order, auth, ctx, isTurn, -⟩
    exact other order isTurn
  have noClose {event : Event} (other : event ≠ .close) : ¬Ends h event := fun ends => other ends.1
  cases event with
  | received bytes =>
    refine .inr (.inr ⟨noTurn (by simp), noClose (by simp), ?_⟩)
    simp only [Host.step]
    split_ifs <;> simp_all [connected, Host.setBuf]
  | readFailed =>
    refine .inr (.inr ⟨noTurn (by simp), noClose (by simp), ?_⟩)
    simp only [Host.step]
    split_ifs <;> simp_all [connected]
  | tick elapsed =>
    refine .inr (.inr ⟨noTurn (by simp), noClose (by simp), ?_⟩)
    simp only [Host.step, Host.tick]
    split_ifs <;> simp_all [connected, Host.send]
  | shutdown late =>
    refine .inr (.inr ⟨noTurn (by simp), noClose (by simp), ?_⟩)
    simp only [Host.step, Host.shutdown]
    split_ifs <;> simp_all [connected, Host.send, Host.setBuf]
  | turn order =>
    by_cases accepts : Accepts config h (.turn order)
    · obtain ⟨order', auth, ctx, same, given, valid⟩ := accepts
      cases same
      obtain ⟨framing, counting, state⟩ := turn_accepted env config h order given valid
      refine .inl ⟨⟨order, auth, ctx, rfl, given, valid⟩, by simp [framing],
        counting.tally, ?_⟩
      simp [connected, state, counting.remains]
    · refine .inr (.inr ⟨accepts, noClose (by simp), ?_⟩)
      by_cases ended : h.position = .finished
      · simp [Host.step, ended]
      · obtain ⟨counting, state⟩ := turn_refused env config ⟨rfl, ended⟩ order accepts
        exact ⟨counting.tally, by simp [connected, state, counting.remains, ended]⟩
  | close =>
    by_cases cleaning : h.position = .cleanup
    · refine .inr (.inl ⟨⟨rfl, cleaning⟩, by simp [cleaning], ?_, ?_⟩)
      · have flushed : tally h.flushPublished.broker = tally h.broker :=
          (Counting.flushPublished ⟨rfl, by simp [cleaning]⟩).tally
        simp only [Host.step, cleaning, if_true, Host.close, removeConnection_tally, flushed]
      · simp [Host.step, cleaning, Host.close, connected]
    · refine .inr (.inr ⟨noTurn (by simp), fun ends => cleaning ends.2, ?_⟩)
      simp [Host.step, cleaning]
  | elsewhere op => exact absurd rfl (own op)

end ZetMQ.ConnectionCount
