import ZetMQ.CallTargets
import ZetMQ.SessionLoop

/-! What one step of a session can do to the broker: at most one call of its
interface, permitted by the session's rights, between changes of counters and of
the subject cache. -/
namespace ZetMQ.SessionSteps
open Utf8Text ByteBuffer Frames KeyedTable SubjectGrammar WildcardTrie Delivery Registry Broker
open SubscriptionLedger DeliveryFrame BrokerRefinement RunRefinement LedgerDelivery CallTargets
open Commands Permissions PubFastPath SessionLoop

/-- Only counters and caches differ. -/
structure Quiet (b b' : BrokerCore) : Prop where
  same : SameSubscriptions b b'
  calls : b'.calls = b.calls

namespace Quiet
variable {b b' b'' : BrokerCore}

theorem refl (b : BrokerCore) : Quiet b b := ⟨.refl b, rfl⟩

theorem trans (h : Quiet b b') (h' : Quiet b' b'') : Quiet b b'' :=
  ⟨h.same.trans h'.same, h'.calls.trans h.calls⟩

theorem counters (b : BrokerCore) {metrics : CoreMetrics}
    (active : metrics.activeSubscriptions = b.metrics.activeSubscriptions) :
    Quiet b { b with metrics := metrics } :=
  ⟨⟨rfl, rfl, rfl, rfl, active, fun _ => rfl, fun _ _ => .inl⟩, rfl⟩

end Quiet

/-- Only the subject cache differs. -/
structure Asked (b b' : BrokerCore) : Prop where
  same : SameSubscriptions b b'
  rest : b' = { b with subjectCache := b'.subjectCache }

namespace Asked
variable {b b' b'' : BrokerCore}

theorem refl (b : BrokerCore) : Asked b b := ⟨.refl b, rfl⟩

theorem trans (h : Asked b b') (h' : Asked b' b'') : Asked b b'' :=
  ⟨h.same.trans h'.same, by rw [h'.rest, h.rest]⟩

theorem calls (h : Asked b b') : b'.calls = b.calls := by rw [h.rest]

theorem metrics (h : Asked b b') : b'.metrics = b.metrics := by rw [h.rest]

theorem queueGroups (h : Asked b b') : b'.queueGroups = b.queueGroups := by rw [h.rest]

theorem quiet (h : Asked b b') : Quiet b b' := ⟨h.same, h.calls⟩

end Asked

theorem parseSubject_asked (b : BrokerCore) (input : Str) : Asked b (b.parseSubject input).1 := by
  refine ⟨SameSubscriptions.traffic.parseSubject b input, ?_⟩
  unfold BrokerCore.parseSubject
  split
  · rfl
  · split <;> rfl

theorem parseReply_asked (b : BrokerCore) (replyTo : Option Bytes) :
    Asked b (parseReply b replyTo).1 := by
  unfold parseReply
  split
  · exact .refl b
  · rename_i text _
    have asked := parseSubject_asked b text
    split <;> rename_i result <;> rwa [result] at asked

/-- The reply subject of an item, without a broker. -/
def replyOf (replyTo : Option Bytes) : Option Subject :=
  (replyTo.bind fromUtf8).bind fun text => (Subject.parse text).toOption

theorem parseReply_snd {b : BrokerCore} {l : Ledger} (h : Refines b l) (replyTo : Option Bytes) :
    (parseReply b replyTo).2 = replyOf replyTo := by
  unfold parseReply replyOf
  cases replyTo.bind fromUtf8 with
  | none => rfl
  | some text =>
    have parsed := parseSubject_snd h text
    dsimp only
    split <;> rename_i result <;> rw [result] at parsed <;> simp [← parsed, Except.toOption]

/-- The item that a command becomes; none if its subject is not valid. -/
def itemOf (command : PublishCommand) : Option PublishItem :=
  match fromUtf8 command.subject with
  | none => none
  | some text =>
    match Subject.parse text with
    | .error _ => none
    | .ok subject => some ⟨subject, command.payload, replyOf command.replyTo, command.headers⟩

theorem pushItem_spec {b : BrokerCore} {l : Ledger} (h : Refines b l) (items : List PublishItem)
    (command : PublishCommand) :
    ∃ b', Asked b b' ∧ pushItem (b, items) command = (b', items ++ (itemOf command).toList) := by
  unfold pushItem itemOf
  cases fromUtf8 command.subject with
  | none => exact ⟨b, .refl b, by rw [Option.toList_none, List.append_nil]⟩
  | some text =>
    have asked := parseSubject_asked b text
    have parsed := parseSubject_snd h text
    dsimp only
    split <;> rename_i result <;> rw [result] at asked parsed <;> rw [← parsed]
    · exact ⟨_, asked, by rw [Option.toList_none, List.append_nil]⟩
    · refine ⟨_, asked.trans (parseReply_asked _ command.replyTo), ?_⟩
      rw [parseReply_snd (h.frame asked.same)]
      rfl

theorem foldl_pushItem {b : BrokerCore} {l : Ledger} (h : Refines b l)
    (publishes : List PublishCommand) (items : List PublishItem) :
    ∃ b', Asked b b' ∧
      publishes.foldl pushItem (b, items) = (b', items ++ publishes.filterMap itemOf) := by
  induction publishes generalizing b items with
  | nil => exact ⟨b, .refl b, by rw [List.filterMap_nil, List.append_nil, List.foldl_nil]⟩
  | cons command publishes ih =>
    obtain ⟨b₁, asked, first⟩ := pushItem_spec h items command
    obtain ⟨b₂, later, rest⟩ := ih (h.frame asked.same) (items ++ (itemOf command).toList)
    refine ⟨b₂, asked.trans later, ?_⟩
    rw [List.foldl_cons, first, rest, List.append_assoc]
    cases isItem : itemOf command with
    | none => rw [List.filterMap_cons_none isItem, Option.toList_none, List.nil_append]
    | some item => rw [List.filterMap_cons_some isItem, Option.toList_some, List.singleton_append]

theorem dispatchPublishBatch_spec {b : BrokerCore} {l : Ledger} (h : Refines b l)
    (env : DeliveryPolicy) (order : PendingOrder) (publishes : List PublishCommand) :
    ∃ b', Asked b b' ∧ dispatchPublishBatch env order b publishes =
      b'.publishBatch env order (publishes.filterMap itemOf) := by
  cases publishes with
  | nil => exact ⟨b, .refl b, rfl⟩
  | cons command publishes =>
    obtain ⟨b', asked, items⟩ := foldl_pushItem h (command :: publishes) []
    refine ⟨b', asked, ?_⟩
    rw [dispatchPublishBatch, if_neg (by simp), items, List.nil_append]

def Allowed (ctx : AuthContext) (subjectBytes : Bytes) : Prop :=
  ∀ text subject, fromUtf8 subjectBytes = some text → Subject.parse text = .ok subject →
    ctx.canPublish subject = true

theorem itemOf_some {command : PublishCommand} {item : PublishItem}
    (isItem : itemOf command = some item) :
    ∃ text subject, fromUtf8 command.subject = some text ∧ Subject.parse text = .ok subject ∧
      item = ⟨subject, command.payload, replyOf command.replyTo, command.headers⟩ := by
  unfold itemOf at isItem
  split at isItem
  · cases isItem
  · rename_i text decoded
    split at isItem
    · cases isItem
    · rename_i subject parsed
      exact ⟨text, subject, decoded, parsed, (Option.some.inj isItem).symm⟩

theorem itemOf_allowed {ctx : AuthContext} {command : PublishCommand}
    (allowed : Allowed ctx command.subject) {item : PublishItem}
    (isItem : itemOf command = some item) : ctx.canPublish item.subject = true := by
  obtain ⟨text, subject, decoded, parsed, rfl⟩ := itemOf_some isItem
  exact allowed text subject decoded parsed

theorem publishAllowed_spec {b : BrokerCore} {l : Ledger} (h : Refines b l) (ctx : AuthContext)
    (subjectBytes : Bytes) :
    Asked b (publishAllowed b ctx subjectBytes).1 ∧
      ((publishAllowed b ctx subjectBytes).2 = true → Allowed ctx subjectBytes) := by
  unfold publishAllowed
  split
  · rename_i free
    refine ⟨.refl b, fun _ text subject _ _ => ?_⟩
    rw [AuthContext.canPublish, ← AuthContext.isPublishUnrestricted, if_pos free]
  · split
    · exact ⟨.refl b, fun no => by cases no⟩
    · rename_i text decoded
      have asked := parseSubject_asked b text
      have parsed := parseSubject_snd h text
      split
      · rename_i result
        rw [result] at asked
        exact ⟨asked, fun no => by cases no⟩
      · rename_i subject result
        rw [result] at asked parsed
        refine ⟨asked, fun yes text' subject' decoded' parsed' => ?_⟩
        rw [decoded] at decoded'
        obtain rfl := Option.some.inj decoded'
        rw [← parsed] at parsed'
        rwa [← Except.ok.inj parsed']

theorem pubLoop_preserves {P : PubLoop → Prop} {body : PubLoop → Turn × PubLoop}
    (step : ∀ loop, P loop → P (body loop).2) (limit : ℕ) {loop : PubLoop} (start : P loop) :
    P (pubLoop body limit loop).2 := by
  induction limit generalizing loop with
  | zero => exact start
  | succ limit ih =>
    have next := step loop start
    rw [pubLoop]
    split
    · split <;> rename_i turn <;> rw [turn] at next
      · exact ih next
      · exact next
      · exact next
    · exact start

structure Collecting (b : BrokerCore) (ctx : AuthContext) (loop : PubLoop) : Prop where
  asked : Asked b loop.broker
  allowed : ∀ command ∈ loop.commands, Allowed ctx command.subject

theorem skipFrame_collecting {b : BrokerCore} (ctx : AuthContext) (maxFrameSize : ℕ)
    (loop : PubLoop) (old : Collecting b ctx loop) :
    Collecting b ctx (skipFrame maxFrameSize loop).2 := by
  unfold skipFrame
  split
  · exact old
  · exact old
  · exact ⟨old.asked, old.allowed⟩

section
variable {b : BrokerCore} {l : Ledger} (h : Refines b l) (ctx : AuthContext)
include h

theorem checkFrame_collecting (maxFrameSize : ℕ) (loop : PubLoop) (old : Collecting b ctx loop) :
    Collecting b ctx (checkFrame ctx maxFrameSize loop).2 := by
  unfold checkFrame
  split
  · exact old
  · exact old
  · dsimp only
    split
    · exact old
    · exact ⟨old.asked.trans (publishAllowed_spec (h.frame old.asked.same) ctx _).1, old.allowed⟩

theorem collectFrame_collecting (maxFrameSize : ℕ) (loop : PubLoop)
    (old : Collecting b ctx loop) : Collecting b ctx (collectFrame ctx maxFrameSize loop).2 := by
  unfold collectFrame
  split
  · exact old
  · exact old
  · split
    · exact ⟨old.asked, old.allowed⟩
    · rename_i command _ _ _
      obtain ⟨asked, granted⟩ := publishAllowed_spec (h.frame old.asked.same) ctx command.subject
      refine ⟨old.asked.trans asked, fun other member => ?_⟩
      dsimp only at member
      split at member
      · rename_i yes
        rcases List.mem_append.mp member with before | new
        · exact old.allowed other before
        · rw [List.mem_singleton.mp new]
          exact granted yes
      · exact old.allowed other member

end

def Permitted (ctx : AuthContext) (conn : ConnectionId) : BrokerOp → Prop
  | .publishBatch _ items => ∀ item ∈ items, ctx.canPublish item.subject = true
  | .publishWithStr input _ _ _ => ∀ subject, Subject.parse input = .ok subject →
    ctx.canPublish subject = true
  | .subscribe c pattern _ _ => c = conn ∧ ctx.canSubscribe pattern = true
  | .unsubscribe c _ => c = conn
  | _ => False

def Acts (env : DeliveryPolicy) (permitted : BrokerOp → Prop) (b b' : BrokerCore) : Prop :=
  Quiet b b' ∨ ∃ b₁ op, Quiet b b₁ ∧ permitted op ∧ Quiet (op.apply env b₁) b'

theorem Acts.then_quiet {env : DeliveryPolicy} {permitted : BrokerOp → Prop}
    {b b' b'' : BrokerCore} (acts : Acts env permitted b b') (quiet : Quiet b' b'') :
    Acts env permitted b b'' := by
  rcases acts with still | ⟨b₁, op, before, allowed, after⟩
  · exact .inl (still.trans quiet)
  · exact .inr ⟨b₁, op, before, allowed, after.trans quiet⟩

section
variable {h : Host} {l : Ledger} (refines : Refines h.broker l) (env : DeliveryPolicy)
include refines

theorem dispatchBatch_acts (order : PendingOrder) (conn : ConnectionId) (ctx : AuthContext)
    (maxFrameSize : ℕ) (readBuf : Bytes) :
    Acts env (Permitted ctx conn) h.broker (dispatchPublishBatchFromReadBuf env order ctx
      maxFrameSize (.start readBuf h.broker)).2.broker := by
  have start : Collecting h.broker ctx (.start readBuf h.broker) :=
    ⟨.refl _, fun _ none => by cases none⟩
  unfold dispatchPublishBatchFromReadBuf
  split
  · refine .inl ?_
    unfold drainPublishBatchWithoutSubscribers
    split
    · have kept := pubLoop_preserves (skipFrame_collecting ctx maxFrameSize) noSubPubBatchLimit
        start
      split <;> rename_i result <;> rw [result] at kept <;> exact kept.asked.quiet
    · have kept := pubLoop_preserves (checkFrame_collecting refines ctx maxFrameSize)
        noSubPubBatchLimit start
      split <;> rename_i result <;> rw [result] at kept <;> exact kept.asked.quiet
  · have kept := pubLoop_preserves (collectFrame_collecting refines ctx maxFrameSize)
      pubBatchLimit start
    split
    · rename_i result
      rw [result] at kept
      exact .inl kept.asked.quiet
    · rename_i loop result
      rw [result] at kept
      dsimp only
      split
      · exact .inl kept.asked.quiet
      · obtain ⟨b₁, asked, batch⟩ := dispatchPublishBatch_spec (refines.frame kept.asked.same) env
          order loop.commands
        refine .inr ⟨b₁, .publishBatch order (loop.commands.filterMap itemOf),
          (kept.asked.trans asked).quiet, fun item member => ?_, ?_⟩
        · obtain ⟨command, listed, isItem⟩ := List.mem_filterMap.mp member
          exact itemOf_allowed (kept.allowed command listed) isItem
        · rw [batch]
          exact .refl _

end

theorem flushPublished_quiet (h : Host) : Quiet h.broker h.flushPublished.broker := by
  unfold Host.flushPublished
  split
  · exact .counters _ rfl
  · exact .refl _

theorem addPublished_quiet (h : Host) (published : ℕ) :
    Quiet h.broker (h.addPublished published).broker := by
  unfold Host.addPublished
  dsimp only
  split
  · exact flushPublished_quiet { h with
      session := { h.session with localPublished := h.session.localPublished + published } }
  · exact .refl _

theorem decodeFailed_quiet (h : Host) (e : ProtocolError) :
    Quiet h.broker (h.decodeFailed e).broker :=
  .counters _ rfl

theorem handleConnect_quiet (config : ServerConfig) (h : Host) (auth : AuthInfo)
    (correlationId : ℕ) : Quiet h.broker (h.handleConnect config auth correlationId).broker := by
  unfold Host.handleConnect
  split
  · exact .counters _ rfl
  · exact .refl _

theorem dispatchSubscribe_acts (env : DeliveryPolicy) (config : ServerConfig) (h : Host)
    (s : SubscribeCommand) (correlationId : ℕ) (granted : h.subscribeRefusal config s = none) :
    Acts env (Permitted h.session.authCtx h.session.connId) h.broker
      (h.dispatchSubscribe s correlationId).broker := by
  unfold Host.subscribeRefusal at granted
  unfold Host.dispatchSubscribe
  split
  · exact .inl (.refl _)
  · rename_i pattern parsed
    simp only [parsed] at granted
    split_ifs at granted with _ permitted
    exact .inr ⟨h.broker, .subscribe h.session.connId pattern _ (channelOf h.session.connId),
      .refl _, ⟨rfl, permitted⟩, .refl _⟩

theorem dispatchPublish_acts (env : DeliveryPolicy) {h : Host} {b : BrokerCore} {ctx : AuthContext}
    {conn : ConnectionId} (quiet : Quiet b h.broker) {p : PublishCommand}
    (allowed : Allowed ctx p.subject) :
    Acts env (Permitted ctx conn) b (h.dispatchPublish env p).broker := by
  unfold Host.dispatchPublish
  split
  · exact .inl quiet
  · rename_i text decoded
    exact .inr ⟨_, .publishWithStr text p.payload _ p.headers,
      quiet.trans (parseReply_asked h.broker p.replyTo).quiet,
      fun subject parsed => allowed text subject decoded parsed, .refl _⟩

section
variable {h : Host} {l : Ledger} (refines : Refines h.broker l) (env : DeliveryPolicy)
  (config : ServerConfig)
include refines

theorem publishRefused_spec (p : PublishCommand) :
    Quiet h.broker (h.publishRefused p).1 ∧
      ((h.publishRefused p).2 = false → Allowed h.session.authCtx p.subject) := by
  unfold Host.publishRefused
  split
  · rename_i broken
    refine ⟨.refl _, fun _ text subject decoded _ => ?_⟩
    rw [broken] at decoded
    cases decoded
  · rename_i text decoded
    have quiet := (parseSubject_asked h.broker text).quiet
    have parsed := parseSubject_snd refines text
    split <;> rename_i result <;> rw [result] at quiet parsed <;>
      refine ⟨quiet, fun granted text' subject' decoded' parsed' => ?_⟩ <;>
      obtain rfl := Option.some.inj (decoded.symm.trans decoded') <;>
      rw [← parsed] at parsed'
    · cases parsed'
    · rw [← Except.ok.inj parsed']
      simpa using granted

theorem handleCommand_acts (cmd : BrokerCommand) (correlationId : ℕ) :
    Acts env (Permitted h.session.authCtx h.session.connId) h.broker
      (h.handleCommand env config cmd correlationId).broker := by
  have nothing {b : BrokerCore} : Acts env (Permitted h.session.authCtx h.session.connId) b b :=
    .inl (.refl b)
  cases cmd with
  | connect c => exact .inl (handleConnect_quiet config h _ correlationId)
  | ping => exact nothing
  | subscribe s =>
    simp only [Host.handleCommand]
    split
    · exact nothing
    · split
      · exact nothing
      · rename_i granted
        exact dispatchSubscribe_acts env config h s correlationId granted
  | publish p =>
    simp only [Host.handleCommand]
    split
    · exact nothing
    · obtain ⟨quiet, granted⟩ := publishRefused_spec refines p
      split
      · exact .inl quiet
      · rename_i passed
        exact dispatchPublish_acts env quiet (granted (Bool.eq_false_iff.mpr passed))
  | unsubscribe u =>
    simp only [Host.handleCommand]
    split
    · exact nothing
    · exact .inr ⟨h.broker, .unsubscribe h.session.connId u.subscriptionId, .refl _, rfl, .refl _⟩
  | _ =>
    simp only [Host.handleCommand]
    split <;> exact nothing

theorem fastPath_acts (order : PendingOrder) :
    Acts env (Permitted h.session.authCtx h.session.connId) h.broker
      (h.fastPath env config order).broker := by
  have acts := dispatchBatch_acts refines env order h.session.connId h.session.authCtx
    config.maxFrameSize h.session.readBuf
  unfold Host.fastPath
  generalize dispatchPublishBatchFromReadBuf env order h.session.authCtx config.maxFrameSize
    (.start h.session.readBuf h.broker) = result at acts
  obtain ⟨result, loop⟩ := result
  dsimp only at acts ⊢
  split
  · exact acts.then_quiet (addPublished_quiet (h.absorb loop) _)
  · exact acts
  · exact acts.then_quiet (decodeFailed_quiet (h.absorb loop) _)

theorem iterate_acts (order : PendingOrder) :
    Acts env (Permitted h.session.authCtx h.session.connId) h.broker
      (h.iterate env config order).broker := by
  unfold Host.iterate
  split
  · exact fastPath_acts refines env config order
  · split
    · rename_i frame rest _
      unfold Host.handleFrame
      split
      · exact handleCommand_acts (h := h.setBuf rest) refines env config _ _
      · exact .inl (.counters _ rfl)
    · rename_i rest _
      exact .inl (flushPublished_quiet (h.setBuf rest))
    · rename_i e rest _
      exact .inl ((flushPublished_quiet (h.setBuf rest)).trans (decodeFailed_quiet _ e))

end

theorem publishRefused_same (h : Host) (p : PublishCommand) :
    SameSubscriptions h.broker (h.publishRefused p).1 := by
  unfold Host.publishRefused
  cases fromUtf8 p.subject with
  | none => exact SameSubscriptions.traffic.refl _
  | some text =>
    have same := (parseSubject_asked h.broker text).same
    dsimp only
    cases parsed : h.broker.parseSubject text with
    | mk broker result =>
      rw [parsed] at same
      cases result <;> exact same

theorem dispatchPublish_same (env : DeliveryPolicy) (h : Host) (p : PublishCommand) :
    SameSubscriptions h.broker (h.dispatchPublish env p).broker ∧
      (h.dispatchPublish env p).session = h.session := by
  unfold Host.dispatchPublish
  cases fromUtf8 p.subject with
  | none => exact ⟨SameSubscriptions.traffic.refl _, rfl⟩
  | some text =>
    refine ⟨SameSubscriptions.traffic.trans (parseReply_asked h.broker p.replyTo).same ?_, rfl⟩
    exact SameSubscriptions.traffic.publishWithStr env _ text p.payload _ p.headers

end ZetMQ.SessionSteps
