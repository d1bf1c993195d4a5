import ZetMQ.Registry

/-! The broker core. Beside the fields of the source the state carries the next
free address for interned keys and the log of all `deliver` calls so far; the
policy `env` answers each call from that log. Loops keep the accumulators of the
source, and the iteration order of the pending map is an argument. -/
namespace ZetMQ.Broker
open Utf8Text SubjectGrammar WildcardTrie KeyedTable Routing Delivery Registry

structure QueueGroupState where
  members : List SubscriptionId
  currentIndex : ℕ
deriving DecidableEq

structure BrokerCore where
  registry : SubscriptionRegistry
  metrics : CoreMetrics
  subIdGen : ℕ
  queueGroups : Table QueueGroupKey QueueGroupState
  queueGroupKeys : Table QueueGroupKey KeyArc
  subjectCache : Table Str Subject
  nextAddr : ℕ
  calls : List DeliverCall

abbrev Pending := Table SubscriptionId (List DeliveryMessage)
abbrev PendingOrder := IterOrder SubscriptionId (List DeliveryMessage)

/-- Accumulators of the loop over the matched ids in `deliver_matches`. -/
structure MatchLoop where
  broker : BrokerCore
  fanout : List (SubscriptionId × ConnectionId × DeliveryHandle)
  members : List SubscriptionId
  lastKey : Option KeyArc

/-- Accumulators of the first stage of `publish_batch`. -/
structure BatchLoop where
  broker : BrokerCore
  pending : Pending
  lastSubject : Option Subject
  lastSubIds : List SubscriptionId
  subCache : List (SubscriptionId × ConnectionId × Bool)

namespace BrokerCore

def new : BrokerCore := ⟨.new, .new, 1, ∅, ∅, ∅, 0, []⟩

def router (b : BrokerCore) : RoutingEngine := b.registry.router

def hasActiveSubscriptions (b : BrokerCore) : Bool :=
  0 < readCounter b.metrics.activeSubscriptions

def subscriptionCountForConnection (b : BrokerCore) (conn : ConnectionId) : ℕ :=
  b.registry.countForConnection conn

def parseSubject (b : BrokerCore) (input : Str) : BrokerCore × Except CoreError Subject :=
  match b.subjectCache.lookup input with
  | some subject => (b, .ok subject)
  | none =>
    match Subject.parse input with
    | .error e => (b, .error e)
    | .ok subject => ({ b with subjectCache := b.subjectCache.insert input subject }, .ok subject)

def internKey (b : BrokerCore) (key : QueueGroupKey) : BrokerCore × KeyArc :=
  match b.queueGroupKeys.lookup key with
  | some arc => (b, arc)
  | none =>
    let arc : KeyArc := ⟨b.nextAddr, key⟩
    ({ b with
       queueGroupKeys := b.queueGroupKeys.insert key arc
       nextAddr := b.nextAddr + 1 }, arc)

def joinGroup (b : BrokerCore) (key : QueueGroupKey) (id : SubscriptionId) : BrokerCore :=
  { b with
    queueGroups := upsert key ⟨[], 0⟩ (fun g => { g with members := g.members ++ [id] })
      b.queueGroups }

def subscribe (b : BrokerCore) (conn : ConnectionId) (pattern : SubjectPattern)
    (queueGroup : Option QueueGroupName) (delivery : DeliveryHandle) :
    BrokerCore × SubscriptionId :=
  let id := b.subIdGen
  let b := { b with subIdGen := b.subIdGen + 1 }
  let (b, key) : BrokerCore × Option KeyArc := match queueGroup with
    | none => (b, none)
    | some group =>
      let (b, arc) := b.internKey (pattern.raw, group.name)
      (b.joinGroup arc.key id, some arc)
  ({ b with
     registry := b.registry.add ⟨id, conn, pattern, queueGroup, key, delivery⟩
     metrics := b.metrics.incSubscriptions }, id)

/-- The connection is not looked at, as in the source. -/
def unsubscribe (b : BrokerCore) (_conn : ConnectionId) (id : SubscriptionId) : BrokerCore :=
  match b.registry.remove id with
  | (registry, none) => { b with registry := registry }
  | (registry, some sub) =>
    { b with
      registry := registry
      queueGroups := match sub.queueGroupKey with
        | none => b.queueGroups
        | some arc => modify arc.key (fun g => { g with members := g.members.filter (· ≠ id) })
          b.queueGroups
      metrics := b.metrics.decSubscriptions }

def deliver (env : DeliveryPolicy) (b : BrokerCore) (handle : DeliveryHandle)
    (message : DeliveryMessage) : BrokerCore × DeliveryStatus :=
  let status := env b.calls handle message
  ({ b with calls := b.calls ++ [⟨handle, message, status⟩] }, status)

def handleDeliveryStatus (b : BrokerCore) (status : DeliveryStatus) : BrokerCore :=
  { b with
    metrics := match status with
      | .delivered => b.metrics.incDeliveredBy 1
      | .channelFull => b.metrics.incDroppedBy 1
      | .failed _ => b.metrics.incDroppedBy 1 }

def deliverOne (env : DeliveryPolicy) (b : BrokerCore) (handle : DeliveryHandle)
    (message : DeliveryMessage) : BrokerCore :=
  let (b, status) := b.deliver env handle message
  b.handleDeliveryStatus status

def deliverToSubscriber (env : DeliveryPolicy) (b : BrokerCore) (id : SubscriptionId)
    (message : Message) : BrokerCore :=
  match b.registry.getRef id with
  | none => b
  | some sub => b.deliverOne env sub.delivery (message.deliveryTo id sub.connectionId)

def deliverQueueGroup (env : DeliveryPolicy) (b : BrokerCore) (key : QueueGroupKey)
    (members : List SubscriptionId) (message : Message) : BrokerCore :=
  if members.isEmpty then b
  else match b.queueGroups.lookup key with
    | none => b
    | some group =>
      if group.members.length = 0 then b
      else
        let index := group.currentIndex % group.members.length
        let b := { b with
          queueGroups := b.queueGroups.insert key
            { group with currentIndex := (group.currentIndex + 1) % 2 ^ 64 } }
        match group.members[index]? with
        | none => b
        | some chosen => b.deliverToSubscriber env chosen message

end BrokerCore

namespace MatchLoop

def flushGroup (env : DeliveryPolicy) (message : Message) (loop : MatchLoop) : MatchLoop :=
  match loop.lastKey with
  | none => loop
  | some arc =>
    { loop with
      broker := loop.broker.deliverQueueGroup env arc.key loop.members message
      members := [] }

def step (env : DeliveryPolicy) (message : Message) (loop : MatchLoop) (id : SubscriptionId) :
    MatchLoop :=
  match loop.broker.registry.getRef id with
  | none => loop
  | some sub =>
    match sub.queueGroupKey with
    | none => { loop with fanout := loop.fanout ++ [(id, sub.connectionId, sub.delivery)] }
    | some arc =>
      let sameGroup := match loop.lastKey with
        | some last => last.addr == arc.addr
        | none => false
      let loop := if sameGroup then loop
        else { loop.flushGroup env message with lastKey := some arc }
      { loop with members := loop.members ++ [id] }

end MatchLoop

namespace BrokerCore

def deliverMatches (env : DeliveryPolicy) (b : BrokerCore) (message : Message)
    (ids : List SubscriptionId) : BrokerCore :=
  let loop := ids.foldl (MatchLoop.step env message) ⟨b, [], [], none⟩
  let loop := loop.flushGroup env message
  loop.fanout.foldl
    (fun b target => b.deliverOne env target.2.2 (message.deliveryTo target.1 target.2.1))
    loop.broker

def publish (env : DeliveryPolicy) (b : BrokerCore) (message : Message) : BrokerCore :=
  let b := { b with metrics := b.metrics.incPublished }
  b.deliverMatches env message (b.router.matchSubject message.subject)

def publishWithStr (env : DeliveryPolicy) (b : BrokerCore) (subject : Str) (payload : Bytes)
    (replyTo : Option Subject) (headers : Option HeaderMap) : BrokerCore :=
  let b := { b with metrics := b.metrics.incPublished }
  let (exactMatches, needsWildcardParse) := b.router.matchSubjectStr subject
  if exactMatches.isEmpty && !needsWildcardParse then b
  else
    match b.parseSubject subject with
    | (b, .error _) => b
    | (b, .ok parsed) =>
      let ids := if needsWildcardParse then exactMatches ++ b.router.matchWildcards parsed
        else exactMatches
      b.deliverMatches env ⟨0, parsed, payload, headers, replyTo, 0⟩ ids

def deliverBatch (env : DeliveryPolicy) (handle : DeliveryHandle) :
    List DeliveryMessage → ℕ → BrokerCore → BrokerCore × ℕ
  | [], accepted, b => (b, accepted)
  | message :: rest, accepted, b =>
    match b.deliver env handle message with
    | (b, .delivered) => deliverBatch env handle rest (accepted + 1) b
    | (b, _) => (b, accepted)

def countBatch (b : BrokerCore) (total accepted : ℕ) : BrokerCore :=
  { b with metrics := (b.metrics.incDeliveredBy accepted).incDroppedBy (total - accepted) }

def batchShortcut (b : BrokerCore) (first : PublishItem) (items : List PublishItem) :
    Option (SubscriptionId × Subscription) :=
  if b.router.hasWildcards then none
  else match b.router.exactSingleSubscriber first.subject with
    | none => none
    | some id =>
      match b.registry.getRef id with
      | none => none
      | some sub =>
        if sub.queueGroupKey.isNone && items.all (fun item => item.subject = first.subject)
        then some (id, sub) else none

end BrokerCore

namespace BatchLoop

def cachedInfo (loop : BatchLoop) (id : SubscriptionId) :
    Option (BatchLoop × ConnectionId × Bool) :=
  match (loop.subCache.find? (·.1 == id)).map Prod.snd with
  | some info => some (loop, info)
  | none =>
    match loop.broker.registry.getRef id with
    | none => none
    | some sub =>
      let info := (sub.connectionId, sub.queueGroupKey.isSome)
      some ({ loop with subCache := loop.subCache ++ [(id, info)] }, info)

def route (env : DeliveryPolicy) (item : PublishItem) (loop : BatchLoop) (id : SubscriptionId) :
    BatchLoop :=
  match loop.cachedInfo id with
  | none => loop
  | some (loop, _, true) =>
    { loop with broker := loop.broker.deliverMatches env item.toMessage [id] }
  | some (loop, conn, false) =>
    { loop with pending := upsert id [] (· ++ [item.deliveryTo id conn]) loop.pending }

def step (env : DeliveryPolicy) (loop : BatchLoop) (item : PublishItem) : BatchLoop :=
  let loop := if loop.lastSubject = some item.subject then loop
    else { loop with
      lastSubject := some item.subject
      lastSubIds := loop.broker.router.matchSubject item.subject }
  loop.lastSubIds.foldl (route env item) loop

end BatchLoop

namespace BrokerCore

def flushPending (env : DeliveryPolicy) (b : BrokerCore)
    (entry : Σ _ : SubscriptionId, List DeliveryMessage) : BrokerCore :=
  match b.registry.getRef entry.1 with
  | none => b
  | some sub =>
    match entry.2 with
    | [message] =>
      match b.deliver env sub.delivery message with
      | (b, .delivered) => b.countBatch 1 1
      | (b, _) => b.countBatch 1 0
    | messages =>
      let (b, accepted) := deliverBatch env sub.delivery messages 0 b
      b.countBatch messages.length accepted

def publishBatch (env : DeliveryPolicy) (order : PendingOrder) (b : BrokerCore)
    (items : List PublishItem) : BrokerCore :=
  match items with
  | [] => b
  | first :: _ =>
    let b := { b with metrics := b.metrics.incPublishedBy items.length }
    match b.batchShortcut first items with
    | some (id, sub) =>
      let messages := items.map (·.deliveryTo id sub.connectionId)
      let (b, accepted) := deliverBatch env sub.delivery messages 0 b
      b.countBatch items.length accepted
    | none =>
      let loop := items.foldl (BatchLoop.step env) ⟨b, ∅, none, [], []⟩
      (order.visit loop.pending).foldl (flushPending env) loop.broker

def leaveGroup (removedIds : List SubscriptionId) (b : BrokerCore) (sub : Subscription) :
    BrokerCore :=
  match sub.queueGroupKey with
  | none => b
  | some arc =>
    match b.queueGroups.lookup arc.key with
    | none => b
    | some group =>
      let members := group.members.filter (· ∉ removedIds)
      if members.isEmpty then
        { b with
          queueGroups := b.queueGroups.erase arc.key
          queueGroupKeys := b.queueGroupKeys.erase arc.key }
      else
        { b with queueGroups := b.queueGroups.insert arc.key { group with members := members } }

def removeConnection (b : BrokerCore) (conn : ConnectionId) : BrokerCore :=
  let (registry, removed) := b.registry.removeAllForConnection conn
  let b := removed.foldl (leaveGroup (removed.map (·.id))) { b with registry := registry }
  let metrics := removed.foldl (fun m _ => m.decSubscriptions) b.metrics
  { b with metrics := metrics.decActiveConnections }

end BrokerCore

end ZetMQ.Broker
