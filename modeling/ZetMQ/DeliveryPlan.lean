import Mathlib.Data.List.Destutter
import ZetMQ.DeliveryFrame

/-! What one call of `deliver_matches` sends. The loop over the matched ids is
turned into a plan: which groups are served, in which order, and which
subscriptions get a copy each. Carrying out a plan is one list of offers. -/
namespace ZetMQ.DeliveryPlan
open Utf8Text SubjectGrammar WildcardTrie KeyedTable Routing Delivery Registry Broker
open SubscriptionLedger DeliveryFrame

abbrev Offer := DeliveryHandle × DeliveryMessage

def offered (call : DeliverCall) : Offer := (call.handle, call.message)

/-- The calls that a list of offers leads to, each answered from the log so far. -/
def settle (env : DeliveryPolicy) : List DeliverCall → List Offer → List DeliverCall
  | _, [] => []
  | log, (handle, message) :: rest =>
    let call : DeliverCall := ⟨handle, message, env log handle message⟩
    call :: settle env (log ++ [call]) rest

theorem settle_append (env : DeliveryPolicy) (log : List DeliverCall) (first rest : List Offer) :
    settle env log (first ++ rest) =
      settle env log first ++ settle env (log ++ settle env log first) rest := by
  induction first generalizing log with
  | nil => simp [settle]
  | cons offer first ih =>
    simp only [List.cons_append, settle, ih, List.append_assoc, List.nil_append]

theorem offered_settle (env : DeliveryPolicy) (log : List DeliverCall) (offers : List Offer) :
    (settle env log offers).map offered = offers := by
  induction offers generalizing log with
  | nil => rfl
  | cons offer rest ih =>
    rw [settle, List.map_cons, ih]
    rfl

def wasDelivered (call : DeliverCall) : Bool := call.status = .delivered

def tally (m : CoreMetrics) (calls : List DeliverCall) : CoreMetrics :=
  { m with
    messagesDelivered := m.messagesDelivered + calls.countP wasDelivered
    messagesDropped := m.messagesDropped + calls.countP (!wasDelivered ·) }

theorem tally_append (m : CoreMetrics) (first rest : List DeliverCall) :
    tally m (first ++ rest) = tally (tally m first) rest := by
  simp only [tally, List.countP_append, Nat.add_assoc]

def offer (env : DeliveryPolicy) (b : BrokerCore) (offers : List Offer) : BrokerCore :=
  { b with
    calls := b.calls ++ settle env b.calls offers
    metrics := tally b.metrics (settle env b.calls offers) }

theorem offer_nil (env : DeliveryPolicy) (b : BrokerCore) : offer env b [] = b := by
  simp [offer, settle, tally]

theorem offer_append (env : DeliveryPolicy) (b : BrokerCore) (first rest : List Offer) :
    offer env b (first ++ rest) = offer env (offer env b first) rest := by
  simp only [offer, settle_append, tally_append, List.append_assoc]

theorem deliverOne_eq (env : DeliveryPolicy) (b : BrokerCore) (handle : DeliveryHandle)
    (message : DeliveryMessage) :
    b.deliverOne env handle message = offer env b [(handle, message)] := by
  simp only [BrokerCore.deliverOne, BrokerCore.deliver, BrokerCore.handleDeliveryStatus, offer,
    settle, tally]
  cases env b.calls handle message <;> simp [wasDelivered,
    CoreMetrics.incDeliveredBy, CoreMetrics.incDroppedBy]

theorem foldl_deliverOne {α : Type} (env : DeliveryPolicy) (target : α → Offer) (l : List α)
    (b : BrokerCore) :
    l.foldl (fun b a => b.deliverOne env (target a).1 (target a).2) b =
      offer env b (l.map target) := by
  induction l generalizing b with
  | nil => exact (offer_nil env b).symm
  | cons a l ih =>
    rw [List.foldl_cons, ih, deliverOne_eq, ← offer_append]
    rfl

def offersTo (r : SubscriptionRegistry) (message : Message) (id : SubscriptionId) : List Offer :=
  match r.getRef id with
  | none => []
  | some sub => [(sub.delivery, message.deliveryTo id sub.connectionId)]

theorem deliverToSubscriber_eq (env : DeliveryPolicy) (b : BrokerCore) (id : SubscriptionId)
    (message : Message) :
    b.deliverToSubscriber env id message = offer env b (offersTo b.registry message id) := by
  unfold BrokerCore.deliverToSubscriber offersTo
  cases b.registry.getRef id with
  | none => exact (offer_nil env b).symm
  | some sub => exact deliverOne_eq env b _ _

abbrev Groups := Table QueueGroupKey QueueGroupState

def rotate (groups : Groups) (key : QueueGroupKey) : Groups × Option SubscriptionId :=
  match groups.lookup key with
  | none => (groups, none)
  | some group =>
    if group.members.length = 0 then (groups, none)
    else
      (groups.insert key { group with currentIndex := (group.currentIndex + 1) % 2 ^ 64 },
        group.members[group.currentIndex % group.members.length]?)

/-- The turns that a list of messages for groups takes, and whom they choose. -/
def turns : Groups → List (Message × QueueGroupKey) → Groups × List (Message × SubscriptionId)
  | groups, [] => (groups, [])
  | groups, (message, key) :: rest =>
    let (groups, chosen) := rotate groups key
    let (groups, later) := turns groups rest
    (groups, chosen.toList.map (message, ·) ++ later)

/-- Serve a list of groups, one turn each. -/
def serve (env : DeliveryPolicy) (b : BrokerCore) (demand : List (Message × QueueGroupKey)) :
    BrokerCore :=
  let (groups, chosen) := turns b.queueGroups demand
  offer env { b with queueGroups := groups }
    (chosen.flatMap fun turn => offersTo b.registry turn.1 turn.2)

theorem serve_registry (env : DeliveryPolicy) (b : BrokerCore)
    (demand : List (Message × QueueGroupKey)) : (serve env b demand).registry = b.registry := rfl

theorem serve_nil (env : DeliveryPolicy) (b : BrokerCore) : serve env b [] = b := offer_nil env b

theorem serve_cons (env : DeliveryPolicy) (b : BrokerCore) (turn : Message × QueueGroupKey)
    (rest : List (Message × QueueGroupKey)) :
    serve env b (turn :: rest) = serve env (serve env b [turn]) rest := by
  obtain ⟨message, key⟩ := turn
  simp only [serve, turns, List.append_nil, List.flatMap_append, offer_append]
  rfl

theorem serve_append (env : DeliveryPolicy) (b : BrokerCore)
    (first rest : List (Message × QueueGroupKey)) :
    serve env b (first ++ rest) = serve env (serve env b first) rest := by
  induction first generalizing b with
  | nil => rw [List.nil_append, serve_nil]
  | cons turn first ih => rw [List.cons_append, serve_cons, ih, ← serve_cons]

theorem deliverQueueGroup_eq (env : DeliveryPolicy) (b : BrokerCore) (key : QueueGroupKey)
    {members : List SubscriptionId} (nonempty : members ≠ []) (message : Message) :
    b.deliverQueueGroup env key members message = serve env b [(message, key)] := by
  have isEmpty : members.isEmpty = false := by simpa using nonempty
  unfold BrokerCore.deliverQueueGroup serve turns rotate
  rw [isEmpty]
  cases b.queueGroups.lookup key with
  | none => exact (offer_nil env b).symm
  | some group =>
    by_cases none : group.members.length = 0
    · simp only [none, if_true, Bool.false_eq_true, if_false]
      exact (offer_nil env b).symm
    · simp only [none, if_false, Bool.false_eq_true, turns]
      cases group.members[group.currentIndex % group.members.length]? with
      | none => exact (offer_nil env _).symm
      | some chosen =>
        dsimp only
        rw [deliverToSubscriber_eq]
        simp

def heldKey (r : SubscriptionRegistry) (id : SubscriptionId) : Option KeyArc :=
  (r.getRef id).bind Subscription.queueGroupKey

def OtherArc (a b : KeyArc) : Prop := a.addr ≠ b.addr

instance : DecidableRel OtherArc := fun _ _ => inferInstanceAs (Decidable (_ ≠ _))

def groupRuns (r : SubscriptionRegistry) (ids : List SubscriptionId) : List KeyArc :=
  (ids.filterMap (heldKey r)).destutter OtherArc

def fanoutTarget (r : SubscriptionRegistry) (id : SubscriptionId) :
    Option (SubscriptionId × ConnectionId × DeliveryHandle) :=
  (r.getRef id).bind fun sub =>
    if sub.queueGroupKey.isNone then some (id, sub.connectionId, sub.delivery) else none

def fanoutOffers (r : SubscriptionRegistry) (message : Message) (ids : List SubscriptionId) :
    List Offer :=
  (ids.filterMap (fanoutTarget r)).map fun target =>
    (target.2.2, message.deliveryTo target.1 target.2.1)

def demandOf (message : Message) (arcs : List KeyArc) : List (Message × QueueGroupKey) :=
  arcs.map fun arc => (message, arc.key)

variable (env : DeliveryPolicy) (message : Message)

variable {loop : MatchLoop} {arc : KeyArc} {id : SubscriptionId}

theorem flushGroup_some (key : loop.lastKey = some arc) (nonempty : loop.members ≠ []) :
    (loop.flushGroup env message).broker = serve env loop.broker [(message, arc.key)] ∧
      (loop.flushGroup env message).fanout = loop.fanout := by
  unfold MatchLoop.flushGroup
  rw [key]
  exact ⟨deliverQueueGroup_eq env _ _ nonempty message, rfl⟩

theorem matchStep_none (free : heldKey loop.broker.registry id = none) :
    loop.step env message id =
      { loop with fanout := loop.fanout ++ (fanoutTarget loop.broker.registry id).toList } := by
  unfold heldKey at free
  unfold MatchLoop.step fanoutTarget
  cases found : loop.broker.registry.getRef id with
  | none => simp
  | some sub =>
    rw [found, Option.bind_some] at free
    simp [free]

theorem fanoutTarget_of_held {r : SubscriptionRegistry} (held : heldKey r id = some arc) :
    fanoutTarget r id = none := by
  unfold heldKey at held
  unfold fanoutTarget
  cases found : r.getRef id with
  | none => rfl
  | some sub =>
    rw [found, Option.bind_some] at held
    simp [held]

theorem matchStep_some (held : heldKey loop.broker.registry id = some arc) :
    loop.step env message id =
      (fun loop' : MatchLoop => { loop' with members := loop'.members ++ [id] })
        (if loop.lastKey.map KeyArc.addr = some arc.addr then loop
          else { loop.flushGroup env message with lastKey := some arc }) := by
  unfold heldKey at held
  unfold MatchLoop.step
  cases found : loop.broker.registry.getRef id with
  | none =>
    rw [found] at held
    cases held
  | some sub =>
    rw [found, Option.bind_some] at held
    cases key : loop.lastKey with
    | none => simp [held]
    | some last => by_cases same : last.addr = arc.addr <;> simp [held, same]

theorem matchLoop_open (ids : List SubscriptionId) {loop : MatchLoop} {arc : KeyArc}
    (key : loop.lastKey = some arc) (nonempty : loop.members ≠ []) :
    let done := (ids.foldl (MatchLoop.step env message) loop).flushGroup env message
    done.broker = serve env loop.broker (demandOf message
        ((ids.filterMap (heldKey loop.broker.registry)).destutter' OtherArc arc)) ∧
      done.fanout = loop.fanout ++ ids.filterMap (fanoutTarget loop.broker.registry) := by
  induction ids generalizing loop arc with
  | nil =>
    obtain ⟨broker, fanout⟩ := flushGroup_some env message key nonempty
    exact ⟨broker, by simpa using fanout⟩
  | cons id ids ih =>
    rw [List.foldl_cons]
    cases held : heldKey loop.broker.registry id with
    | none =>
      rw [matchStep_none env message held, List.filterMap_cons_none held]
      obtain ⟨broker, fanout⟩ := @ih { loop with
        fanout := loop.fanout ++ (fanoutTarget loop.broker.registry id).toList } arc key nonempty
      refine ⟨broker, fanout.trans ?_⟩
      cases target : fanoutTarget loop.broker.registry id <;> simp [target]
    | some next =>
      rw [matchStep_some env message held, List.filterMap_cons_some held,
        List.filterMap_cons_none (fanoutTarget_of_held held)]
      by_cases same : arc.addr = next.addr
      · have stays : ¬ OtherArc arc next := fun other => other same
        rw [List.destutter'_cons_neg _ stays, key, Option.map_some, same, if_pos rfl]
        exact @ih { loop with members := loop.members ++ [id] } arc key (by simp)
      · rw [List.destutter'_cons_pos _ (show OtherArc arc next from same), key, Option.map_some,
          if_neg (by simpa using same)]
        obtain ⟨flushed, fanout⟩ := flushGroup_some env message key nonempty
        have registry : (loop.flushGroup env message).broker.registry = loop.broker.registry := by
          rw [flushed, serve_registry]
        obtain ⟨broker, out⟩ := @ih { loop.flushGroup env message with
          lastKey := some next
          members := (loop.flushGroup env message).members ++ [id] } next rfl (by simp)
        dsimp only at broker out
        rw [registry] at broker out
        refine ⟨broker.trans ?_, out.trans ?_⟩
        · rw [flushed, demandOf, demandOf, List.map_cons, ← serve_cons]
        · rw [fanout]

theorem matchLoop_closed (ids : List SubscriptionId) {loop : MatchLoop}
    (key : loop.lastKey = none) :
    let done := (ids.foldl (MatchLoop.step env message) loop).flushGroup env message
    done.broker = serve env loop.broker (demandOf message
        (groupRuns loop.broker.registry ids)) ∧
      done.fanout = loop.fanout ++ ids.filterMap (fanoutTarget loop.broker.registry) := by
  induction ids generalizing loop with
  | nil =>
    have flushed : loop.flushGroup env message = loop := by
      unfold MatchLoop.flushGroup
      rw [key]
    refine ⟨?_, ?_⟩
    · rw [List.foldl_nil, flushed]
      exact (serve_nil env _).symm
    · rw [List.foldl_nil, flushed, List.filterMap_nil, List.append_nil]
  | cons id ids ih =>
    rw [List.foldl_cons]
    cases held : heldKey loop.broker.registry id with
    | none =>
      rw [matchStep_none env message held, groupRuns, List.filterMap_cons_none held]
      obtain ⟨broker, fanout⟩ := @ih { loop with
        fanout := loop.fanout ++ (fanoutTarget loop.broker.registry id).toList } key
      refine ⟨broker, fanout.trans ?_⟩
      cases target : fanoutTarget loop.broker.registry id <;> simp [target]
    | some next =>
      have flushed : loop.flushGroup env message = loop := by
        unfold MatchLoop.flushGroup
        rw [key]
      rw [matchStep_some env message held, groupRuns, List.filterMap_cons_some held,
        List.filterMap_cons_none (fanoutTarget_of_held held), key, Option.map_none,
        if_neg (by simp), flushed, List.destutter_cons']
      exact @matchLoop_open env message ids { loop with
        lastKey := some next
        members := loop.members ++ [id] } next rfl (by simp)

theorem deliverMatches_eq (b : BrokerCore) (ids : List SubscriptionId) :
    b.deliverMatches env message ids =
      offer env (serve env b (demandOf message (groupRuns b.registry ids)))
        (fanoutOffers b.registry message ids) := by
  obtain ⟨broker, fanout⟩ := @matchLoop_closed env message ids ⟨b, [], [], none⟩ rfl
  unfold BrokerCore.deliverMatches
  dsimp only at broker fanout ⊢
  rw [broker, fanout, List.nil_append]
  exact foldl_deliverOne env (fun target : SubscriptionId × ConnectionId × DeliveryHandle =>
    (target.2.2, message.deliveryTo target.1 target.2.1)) _ _

end ZetMQ.DeliveryPlan
