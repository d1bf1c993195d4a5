import ZetMQ.DeliveryPlan

/-! What one call of `publish_batch` sends. The first stage serves the groups item
by item and collects the copies for the other subscriptions; the second stage
hands each subscription its parcel, in any order. -/
namespace ZetMQ.BatchPlan
open Utf8Text SubjectGrammar WildcardTrie KeyedTable Routing Delivery Registry Broker DeliveryPlan

/-- The calls that a parcel leads to: nothing is offered after a refusal. -/
def settleUntil (env : DeliveryPolicy) : List DeliverCall → List Offer → List DeliverCall
  | _, [] => []
  | log, (handle, message) :: rest =>
    let call : DeliverCall := ⟨handle, message, env log handle message⟩
    call :: if wasDelivered call then settleUntil env (log ++ [call]) rest else []

theorem settleUntil_initial (env : DeliveryPolicy) (log : List DeliverCall) (offers : List Offer) :
    (settleUntil env log offers).map offered <+: offers := by
  induction offers generalizing log with
  | nil => exact List.prefix_rfl
  | cons first rest ih =>
    rw [settleUntil, List.map_cons]
    refine List.cons_prefix_cons.mpr ⟨rfl, ?_⟩
    split_ifs
    · exact ih _
    · exact List.nil_prefix

abbrev Parcel := DeliveryHandle × List DeliveryMessage

def Parcel.offers (parcel : Parcel) : List Offer := parcel.2.map (parcel.1, ·)

/-- Hand over a parcel and count what was accepted and what was not. -/
def push (env : DeliveryPolicy) (b : BrokerCore) (parcel : Parcel) : BrokerCore :=
  let calls := settleUntil env b.calls (Parcel.offers parcel)
  let accepted := calls.countP wasDelivered
  { b with
    calls := b.calls ++ calls
    metrics := (b.metrics.incDeliveredBy accepted).incDroppedBy (parcel.2.length - accepted) }

theorem deliverBatch_eq (env : DeliveryPolicy) (handle : DeliveryHandle)
    (messages : List DeliveryMessage) (accepted : ℕ) (b : BrokerCore) :
    let calls := settleUntil env b.calls (Parcel.offers (handle, messages))
    BrokerCore.deliverBatch env handle messages accepted b =
      ({ b with calls := b.calls ++ calls }, accepted + calls.countP wasDelivered) := by
  induction messages generalizing accepted b with
  | nil => simp [BrokerCore.deliverBatch, Parcel.offers, settleUntil]
  | cons message rest ih =>
    simp only [BrokerCore.deliverBatch, BrokerCore.deliver, Parcel.offers, List.map_cons,
      settleUntil]
    cases answer : env b.calls handle message with
    | delivered =>
      simp only [ih, Parcel.offers, wasDelivered, decide_true, if_true, List.append_assoc,
        List.cons_append, List.nil_append, List.countP_cons]
      congr 1
      omega
    | channelFull => simp [wasDelivered]
    | failed error => simp [wasDelivered]

theorem deliverBatch_push (env : DeliveryPolicy) (handle : DeliveryHandle)
    (messages : List DeliveryMessage) (b : BrokerCore) :
    (BrokerCore.deliverBatch env handle messages 0 b).1.countBatch messages.length
      (BrokerCore.deliverBatch env handle messages 0 b).2 = push env b (handle, messages) := by
  rw [deliverBatch_eq, Nat.zero_add]
  rfl

variable {sub : Subscription} {loop : BatchLoop} {id : SubscriptionId}

theorem flushPending_eq (env : DeliveryPolicy) (b : BrokerCore) (id : SubscriptionId)
    (messages : List DeliveryMessage) (found : b.registry.getRef id = some sub) :
    b.flushPending env ⟨id, messages⟩ = push env b (sub.delivery, messages) := by
  unfold BrokerCore.flushPending
  rw [found]
  dsimp only
  split
  · rename_i message
    rw [← deliverBatch_push]
    simp only [BrokerCore.deliverBatch, BrokerCore.deliver]
    cases env b.calls sub.delivery message <;> rfl
  · exact deliverBatch_push env _ _ b

def turnFor (r : SubscriptionRegistry) (item : PublishItem) (id : SubscriptionId) :
    List (Message × QueueGroupKey) :=
  (heldKey r id).toList.map fun arc => (item.toMessage, arc.key)

def copyOf (r : SubscriptionRegistry) (item : PublishItem) (id : SubscriptionId) :
    List (SubscriptionId × DeliveryMessage) :=
  (fanoutTarget r id).toList.map fun target => (target.1, item.deliveryTo target.1 target.2.1)

structure Sound (r : SubscriptionRegistry) (loop : BatchLoop) : Prop where
  registry : loop.broker.registry = r
  cache : ∀ entry ∈ loop.subCache, ∃ sub, r.getRef entry.1 = some sub ∧
    entry.2 = (sub.connectionId, sub.queueGroupKey.isSome)
  last : ∀ subject, loop.lastSubject = some subject →
    loop.lastSubIds = r.router.matchSubject subject

structure Turned (env : DeliveryPolicy) (r : SubscriptionRegistry) (loop loop' : BatchLoop)
    (demand : List (Message × QueueGroupKey)) (copies : List (SubscriptionId × DeliveryMessage)) :
    Prop where
  sound : Sound r loop'
  broker : loop'.broker = serve env loop.broker demand
  pending : loop'.pending = collect copies loop.pending
  lastSubject : loop'.lastSubject = loop.lastSubject
  lastSubIds : loop'.lastSubIds = loop.lastSubIds

variable {env : DeliveryPolicy} {r : SubscriptionRegistry}

theorem cachedInfo_none (sound : Sound r loop) (missing : r.getRef id = none) :
    loop.cachedInfo id = none := by
  unfold BatchLoop.cachedInfo
  cases cached : loop.subCache.find? (·.1 == id) with
  | none => simp [sound.registry, missing]
  | some entry =>
    obtain ⟨sub, found, -⟩ := sound.cache entry (List.mem_of_find?_eq_some cached)
    have same : entry.1 = id := by simpa using List.find?_some cached
    rw [same, missing] at found
    cases found

theorem cachedInfo_some (sound : Sound r loop) (found : r.getRef id = some sub) :
    ∃ cache, loop.cachedInfo id =
        some ({ loop with subCache := cache }, sub.connectionId, sub.queueGroupKey.isSome) ∧
      Sound r { loop with subCache := cache } := by
  unfold BatchLoop.cachedInfo
  cases cached : loop.subCache.find? (·.1 == id) with
  | none =>
    refine ⟨loop.subCache ++ [(id, sub.connectionId, sub.queueGroupKey.isSome)],
      by simp [sound.registry, found], sound.registry, ?_, sound.last⟩
    intro entry member
    rcases List.mem_append.mp member with old | new
    · exact sound.cache entry old
    · rw [List.mem_singleton.mp new]
      exact ⟨sub, found, rfl⟩
  | some entry =>
    obtain ⟨other, present, info⟩ := sound.cache entry (List.mem_of_find?_eq_some cached)
    have same : entry.1 = id := by simpa using List.find?_some cached
    rw [same, found] at present
    obtain rfl := Option.some.inj present
    exact ⟨loop.subCache, by simp [info], sound⟩

variable (env) in
theorem route_turned (sound : Sound r loop) (item : PublishItem) (id : SubscriptionId) :
    Turned env r loop (loop.route env item id) (turnFor r item id) (copyOf r item id) := by
  unfold BatchLoop.route turnFor copyOf heldKey fanoutTarget
  cases found : r.getRef id with
  | none =>
    rw [cachedInfo_none sound found]
    exact ⟨sound, (serve_nil env _).symm, rfl, rfl, rfl⟩
  | some sub =>
    obtain ⟨cache, recalled, sound'⟩ := cachedInfo_some sound found
    rw [recalled]
    cases key : sub.queueGroupKey with
    | none => exact ⟨⟨sound'.registry, sound'.cache, sound'.last⟩, by simp [key, serve_nil],
        by simp [key, collect], rfl, rfl⟩
    | some arc =>
      have held : heldKey loop.broker.registry id = some arc := by
        rw [sound.registry, heldKey, found, Option.bind_some, key]
      have sent : loop.broker.deliverMatches env item.toMessage [id] =
          serve env loop.broker [(item.toMessage, arc.key)] := by
        rw [deliverMatches_eq, groupRuns, List.filterMap_cons_some held, fanoutOffers,
          List.filterMap_cons_none (fanoutTarget_of_held held)]
        exact offer_nil env _
      refine ⟨⟨?_, sound'.cache, sound'.last⟩, by simpa [key] using sent, by simp [key, collect],
        rfl, rfl⟩
      simp only [Option.isSome_some, sent]
      exact sound.registry

variable (env) in
theorem foldl_route (sound : Sound r loop) (item : PublishItem) (ids : List SubscriptionId) :
    Turned env r loop (ids.foldl (BatchLoop.route env item) loop) (ids.flatMap (turnFor r item))
      (ids.flatMap (copyOf r item)) := by
  induction ids generalizing loop with
  | nil => exact ⟨sound, (serve_nil env _).symm, rfl, rfl, rfl⟩
  | cons id ids ih =>
    have first := route_turned env sound item id
    have later := ih first.sound
    refine ⟨later.sound, ?_, ?_, later.lastSubject.trans first.lastSubject,
      later.lastSubIds.trans first.lastSubIds⟩
    · rw [List.foldl_cons, later.broker, first.broker, List.flatMap_cons, serve_append]
    · rw [List.foldl_cons, later.pending, first.pending, List.flatMap_cons, collect_append]

def demandFor (r : SubscriptionRegistry) (item : PublishItem) : List (Message × QueueGroupKey) :=
  (r.router.matchSubject item.subject).flatMap (turnFor r item)

def copiesOf (r : SubscriptionRegistry) (item : PublishItem) :
    List (SubscriptionId × DeliveryMessage) :=
  (r.router.matchSubject item.subject).flatMap (copyOf r item)

variable (env) in
theorem batchStep_eq (sound : Sound r loop) (item : PublishItem) :
    Sound r (loop.step env item) ∧
      (loop.step env item).broker = serve env loop.broker (demandFor r item) ∧
      (loop.step env item).pending = collect (copiesOf r item) loop.pending := by
  unfold BatchLoop.step demandFor copiesOf
  dsimp only
  split_ifs with same
  · have turned := foldl_route env sound item loop.lastSubIds
    rw [← sound.last item.subject same]
    exact ⟨turned.sound, turned.broker, turned.pending⟩
  · have fresh : Sound r { loop with
        lastSubject := some item.subject
        lastSubIds := loop.broker.router.matchSubject item.subject } := by
      refine ⟨sound.registry, sound.cache, ?_⟩
      intro subject last
      rw [← Option.some.inj last, ← sound.registry]
      rfl
    have turned := foldl_route env fresh item (r.router.matchSubject item.subject)
    rw [BrokerCore.router, sound.registry]
    rw [BrokerCore.router, sound.registry] at turned
    exact ⟨turned.sound, turned.broker, turned.pending⟩

variable (env) in
theorem batchLoop_eq (sound : Sound r loop) (items : List PublishItem) :
    (items.foldl (BatchLoop.step env) loop).broker =
        serve env loop.broker (items.flatMap (demandFor r)) ∧
      (items.foldl (BatchLoop.step env) loop).pending =
        collect (items.flatMap (copiesOf r)) loop.pending := by
  induction items generalizing loop with
  | nil => exact ⟨(serve_nil env _).symm, rfl⟩
  | cons item items ih =>
    obtain ⟨sound', broker, pending⟩ := batchStep_eq env sound item
    obtain ⟨broker', pending'⟩ := ih sound'
    rw [List.foldl_cons, broker', pending', broker, pending, List.flatMap_cons, List.flatMap_cons,
      serve_append, collect_append]
    exact ⟨rfl, rfl⟩

def counted (b : BrokerCore) (n : ℕ) : BrokerCore :=
  { b with metrics := b.metrics.incPublishedBy n }

theorem publishBatch_short {order : PendingOrder} {b : BrokerCore} {first : PublishItem}
    {rest : List PublishItem}
    (short : (counted b (first :: rest).length).batchShortcut first (first :: rest) =
      some (id, sub)) :
    b.publishBatch env order (first :: rest) = push env (counted b (first :: rest).length)
      (sub.delivery, (first :: rest).map (·.deliveryTo id sub.connectionId)) := by
  rw [counted] at short
  rw [← deliverBatch_push, List.length_map]
  simp only [BrokerCore.publishBatch, short]
  rfl

theorem publishBatch_staged {order : PendingOrder} {b : BrokerCore} {first : PublishItem}
    {rest : List PublishItem}
    (short : (counted b (first :: rest).length).batchShortcut first (first :: rest) = none) :
    b.publishBatch env order (first :: rest) =
      (order.visit (collect ((first :: rest).flatMap (copiesOf b.registry)) ∅)).foldl
        (BrokerCore.flushPending env) (serve env (counted b (first :: rest).length)
          ((first :: rest).flatMap (demandFor b.registry))) := by
  have sound : Sound b.registry ⟨counted b (first :: rest).length, ∅, none, [], []⟩ :=
    ⟨rfl, by simp, by simp⟩
  obtain ⟨broker, pending⟩ := batchLoop_eq env sound (first :: rest)
  rw [← broker, ← pending]
  rw [counted] at short
  simp only [BrokerCore.publishBatch, short]
  rfl

end ZetMQ.BatchPlan
