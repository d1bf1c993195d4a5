import ZetMQ.SubscriptionLedger

/-! Delivering leaves the subscriptions alone. What a call that only publishes may
change is the cursors of the groups, the message counters, the subject cache and the
log; so it keeps the registry, the interned keys, the members of every group and the
counters of connections and subscriptions. -/
namespace ZetMQ.DeliveryFrame
open Utf8Text SubjectGrammar WildcardTrie KeyedTable Routing Delivery Registry Broker
open SubscriptionLedger

def groupMembers (b : BrokerCore) (key : QueueGroupKey) : List SubscriptionId :=
  ((b.queueGroups.lookup key).map QueueGroupState.members).getD []

/-- Nothing but traffic happened between `b` and `b'`. -/
structure SameSubscriptions (b b' : BrokerCore) : Prop where
  registry : b'.registry = b.registry
  keys : b'.queueGroupKeys = b.queueGroupKeys
  nextAddr : b'.nextAddr = b.nextAddr
  nextId : b'.subIdGen = b.subIdGen
  active : b'.metrics.activeSubscriptions = b.metrics.activeSubscriptions
  members : ∀ key, groupMembers b' key = groupMembers b key
  cache : ∀ input subject, b'.subjectCache.lookup input = some subject →
    b.subjectCache.lookup input = some subject ∨ Subject.parse input = .ok subject

/-- A relation between brokers that the changes of traffic stay in. -/
structure Traffic (R : BrokerCore → BrokerCore → Prop) : Prop where
  refl : ∀ b, R b b
  trans : ∀ {b₁ b₂ b₃}, R b₁ b₂ → R b₂ b₃ → R b₁ b₃
  logged : ∀ b calls, R b { b with calls := calls }
  counted : ∀ (b : BrokerCore) (metrics : CoreMetrics),
    metrics.activeConnections = b.metrics.activeConnections →
    metrics.activeSubscriptions = b.metrics.activeSubscriptions → R b { b with metrics := metrics }
  advanced : ∀ (b : BrokerCore) key group index, b.queueGroups.lookup key = some group →
    R b { b with queueGroups := b.queueGroups.insert key { group with currentIndex := index } }
  cached : ∀ (b : BrokerCore) input subject, Subject.parse input = .ok subject →
    R b { b with subjectCache := b.subjectCache.insert input subject }

namespace SameSubscriptions

theorem refl (b : BrokerCore) : SameSubscriptions b b :=
  ⟨rfl, rfl, rfl, rfl, rfl, fun _ => rfl, fun _ _ => .inl⟩

theorem trans {b₁ b₂ b₃ : BrokerCore} (h₁ : SameSubscriptions b₁ b₂)
    (h₂ : SameSubscriptions b₂ b₃) : SameSubscriptions b₁ b₃ where
  registry := h₂.registry.trans h₁.registry
  keys := h₂.keys.trans h₁.keys
  nextAddr := h₂.nextAddr.trans h₁.nextAddr
  nextId := h₂.nextId.trans h₁.nextId
  active := h₂.active.trans h₁.active
  members key := (h₂.members key).trans (h₁.members key)
  cache input subject found :=
    (h₂.cache input subject found).elim (h₁.cache input subject) .inr

end SameSubscriptions

theorem groupMembers_of_lookup {b : BrokerCore} {key : QueueGroupKey} {group : QueueGroupState}
    (found : b.queueGroups.lookup key = some group) : groupMembers b key = group.members := by
  rw [groupMembers, found]
  rfl

theorem SameSubscriptions.traffic : Traffic SameSubscriptions where
  refl := .refl
  trans := .trans
  logged _ _ := ⟨rfl, rfl, rfl, rfl, rfl, fun _ => rfl, fun _ _ => .inl⟩
  counted _ _ _ active := ⟨rfl, rfl, rfl, rfl, active, fun _ => rfl, fun _ _ => .inl⟩
  advanced b key group index found := by
    refine ⟨rfl, rfl, rfl, rfl, rfl, ?_, fun _ _ => .inl⟩
    intro other
    simp only [groupMembers, lookup_insert_ite]
    split_ifs with same
    · rw [same, found]
      rfl
    · rfl
  cached b input subject parsed := by
    refine ⟨rfl, rfl, rfl, rfl, rfl, fun _ => rfl, ?_⟩
    intro other known found
    rw [lookup_insert_eq_some] at found
    obtain ⟨rfl, rfl⟩ | ⟨-, old⟩ := found
    · exact .inr parsed
    · exact .inl old

namespace Traffic
variable {R : BrokerCore → BrokerCore → Prop} (traffic : Traffic R) (env : DeliveryPolicy)
include traffic

theorem foldl {α β : Type} (broker : α → BrokerCore) {f : α → β → α}
    (step : ∀ a b, R (broker a) (broker (f a b))) (l : List β) (a : α) :
    R (broker a) (broker (l.foldl f a)) := by
  induction l generalizing a with
  | nil => exact traffic.refl _
  | cons b l ih => exact traffic.trans (step a b) (ih _)

theorem deliver (b : BrokerCore) (handle : DeliveryHandle) (message : DeliveryMessage) :
    R b (b.deliver env handle message).1 :=
  traffic.logged b _

theorem handleDeliveryStatus (b : BrokerCore) (status : DeliveryStatus) :
    R b (b.handleDeliveryStatus status) := by
  cases status <;> exact traffic.counted b _ rfl rfl

theorem deliverOne (b : BrokerCore) (handle : DeliveryHandle) (message : DeliveryMessage) :
    R b (b.deliverOne env handle message) :=
  traffic.trans (traffic.deliver env b handle message) (traffic.handleDeliveryStatus _ _)

theorem deliverToSubscriber (b : BrokerCore) (id : SubscriptionId) (message : Message) :
    R b (b.deliverToSubscriber env id message) := by
  unfold BrokerCore.deliverToSubscriber
  split
  · exact traffic.refl b
  · exact traffic.deliverOne env b _ _

theorem deliverQueueGroup (b : BrokerCore) (key : QueueGroupKey)
    (members : List SubscriptionId) (message : Message) :
    R b (b.deliverQueueGroup env key members message) := by
  unfold BrokerCore.deliverQueueGroup
  split
  · exact traffic.refl b
  · split
    · exact traffic.refl b
    · rename_i group found
      split
      · exact traffic.refl b
      · have advanced := traffic.advanced b key group ((group.currentIndex + 1) % 2 ^ 64) found
        dsimp only
        split
        · exact advanced
        · exact traffic.trans advanced (traffic.deliverToSubscriber env _ _ message)

theorem flushGroup (message : Message) (loop : MatchLoop) :
    R loop.broker (loop.flushGroup env message).broker := by
  unfold MatchLoop.flushGroup
  split
  · exact traffic.refl _
  · exact traffic.deliverQueueGroup env _ _ _ message

theorem matchStep (message : Message) (loop : MatchLoop) (id : SubscriptionId) :
    R loop.broker (loop.step env message id).broker := by
  unfold MatchLoop.step
  split
  · exact traffic.refl _
  · split
    · exact traffic.refl _
    · rename_i arc _
      have either (same : Bool) : R loop.broker
          (if same then loop
            else { loop.flushGroup env message with lastKey := some arc }).broker := by
        cases same
        · exact traffic.flushGroup env message loop
        · exact traffic.refl _
      exact either _

theorem deliverMatches (b : BrokerCore) (message : Message) (ids : List SubscriptionId) :
    R b (b.deliverMatches env message ids) := by
  have matched := traffic.foldl MatchLoop.broker (traffic.matchStep env message) ids
    ⟨b, [], [], none⟩
  have flushed := traffic.trans matched (traffic.flushGroup env message _)
  exact traffic.trans flushed (traffic.foldl id (fun b _ => traffic.deliverOne env b _ _) _ _)

theorem incPublishedBy (b : BrokerCore) (n : ℕ) :
    R b { b with metrics := b.metrics.incPublishedBy n } :=
  traffic.counted b _ rfl rfl

theorem publish (b : BrokerCore) (message : Message) : R b (b.publish env message) :=
  traffic.trans (traffic.incPublishedBy b 1) (traffic.deliverMatches env _ message _)

theorem parseSubject (b : BrokerCore) (input : Str) : R b (b.parseSubject input).1 := by
  unfold BrokerCore.parseSubject
  split
  · exact traffic.refl b
  · split
    · exact traffic.refl b
    · rename_i subject parsed
      exact traffic.cached b input subject parsed

theorem publishWithStr (b : BrokerCore) (subject : Str) (payload : Bytes)
    (replyTo : Option Subject) (headers : Option HeaderMap) :
    R b (b.publishWithStr env subject payload replyTo headers) := by
  have counted : R b { b with metrics := b.metrics.incPublished } := traffic.incPublishedBy b 1
  unfold BrokerCore.publishWithStr
  dsimp only
  split
  · exact counted
  · have cached := traffic.trans counted (traffic.parseSubject _ subject)
    split
    · rename_i parsed
      rw [parsed] at cached
      exact cached
    · rename_i parsed
      rw [parsed] at cached
      exact traffic.trans cached (traffic.deliverMatches env _ _ _)

theorem deliverBatch (handle : DeliveryHandle) (messages : List DeliveryMessage)
    (accepted : ℕ) (b : BrokerCore) :
    R b (BrokerCore.deliverBatch env handle messages accepted b).1 := by
  induction messages generalizing accepted b with
  | nil => exact traffic.refl b
  | cons message rest ih =>
    have delivered := traffic.deliver env b handle message
    unfold BrokerCore.deliverBatch
    split
    · rename_i answer
      rw [answer] at delivered
      exact traffic.trans delivered (ih _ _)
    · rename_i answer
      rw [answer] at delivered
      exact delivered

theorem countBatch (b : BrokerCore) (total accepted : ℕ) : R b (b.countBatch total accepted) :=
  traffic.counted b _ rfl rfl

omit traffic in
theorem cachedInfo_broker {loop found : BatchLoop} {id : SubscriptionId} {conn : ConnectionId}
    {grouped : Bool} (h : loop.cachedInfo id = some (found, conn, grouped)) :
    found.broker = loop.broker := by
  unfold BatchLoop.cachedInfo at h
  split at h
  · cases h
    rfl
  · split at h
    · cases h
    · cases h
      rfl

theorem route (item : PublishItem) (loop : BatchLoop) (id : SubscriptionId) :
    R loop.broker (loop.route env item id).broker := by
  unfold BatchLoop.route
  split
  · exact traffic.refl _
  · rename_i known
    rw [← cachedInfo_broker known]
    exact traffic.deliverMatches env _ _ _
  · rename_i known
    rw [← cachedInfo_broker known]
    exact traffic.refl _

theorem batchStep (loop : BatchLoop) (item : PublishItem) :
    R loop.broker (loop.step env item).broker := by
  unfold BatchLoop.step
  split
  · exact traffic.foldl BatchLoop.broker (traffic.route env item) _ _
  · exact traffic.foldl BatchLoop.broker (traffic.route env item) _ { loop with
      lastSubject := some item.subject
      lastSubIds := loop.broker.router.matchSubject item.subject }

theorem flushPending (b : BrokerCore) (entry : Σ _ : SubscriptionId, List DeliveryMessage) :
    R b (b.flushPending env entry) := by
  unfold BrokerCore.flushPending
  split
  · exact traffic.refl b
  · rename_i sub _
    split
    · rename_i message _
      have delivered := traffic.deliver env b sub.delivery message
      split
      all_goals
        rename_i answer
        rw [answer] at delivered
        exact traffic.trans delivered (traffic.countBatch _ _ _)
    · exact traffic.trans (traffic.deliverBatch env _ _ _ _) (traffic.countBatch _ _ _)

theorem publishBatch (order : PendingOrder) (b : BrokerCore) (items : List PublishItem) :
    R b (b.publishBatch env order items) := by
  cases items with
  | nil => exact traffic.refl b
  | cons first rest =>
    have counted := traffic.incPublishedBy b (first :: rest).length
    unfold BrokerCore.publishBatch
    dsimp only
    split
    · exact traffic.trans (traffic.trans counted (traffic.deliverBatch env _ _ _ _))
        (traffic.countBatch _ _ _)
    · have collected := traffic.foldl BatchLoop.broker (traffic.batchStep env) (first :: rest)
        ⟨{ b with metrics := b.metrics.incPublishedBy (first :: rest).length }, ∅, none, [], []⟩
      exact traffic.trans (traffic.trans counted collected)
        (traffic.foldl id (traffic.flushPending env) _ _)

end Traffic

end ZetMQ.DeliveryFrame
