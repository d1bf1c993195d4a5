import ZetMQ.Broker
import ZetMQ.WildcardFlag

/-! `subscribe`, `unsubscribe` and `remove_connection` of the broker as calls that
overlap. Every operation on one of the maps or counters is one atomic step; a guard
that is held over a change, such as `get_mut` with `retain`, is one step too. -/
namespace ZetMQ.ConcurrentBroker
open Utf8Text SubjectGrammar WildcardTrie KeyedTable Routing Delivery Registry Broker Interleaving

/-- What is left of a call. -/
inductive Task where
  | subscribe (conn : ConnectionId) (pattern : SubjectPattern)
      (queueGroup : Option QueueGroupName) (delivery : DeliveryHandle)
  | intern (sub : Subscription) (key : QueueGroupKey)
  | join (sub : Subscription) (arc : KeyArc)
  -- a step of the routing engine, and what comes after the engine is done
  | route (call : WildcardFlag.Call) (rest : Task)
  | insert (sub : Subscription)
  | list (sub : Subscription)
  | incSubscriptions
  | unsubscribe (conn : ConnectionId) (id : SubscriptionId)
  | unlist (id : SubscriptionId) (sub : Subscription)
  | leave (id : SubscriptionId) (key : QueueGroupKey)
  | decSubscriptions
  | removeConnection (conn : ConnectionId)
  -- the loop over the ids of the connection
  | remove (id : SubscriptionId) (ids : List SubscriptionId) (removed : List Subscription)
  -- the loop over the removed subscriptions
  | retain (key : QueueGroupKey) (removed rest : List Subscription)
  | dropGroup (key : QueueGroupKey) (removed rest : List Subscription)
  | dropKey (key : QueueGroupKey) (removed rest : List Subscription)
  -- the loop over the metrics, with the turns after this one
  | uncount (turns : ℕ)
  | decActiveConnections

namespace Task

def adding (sub : Subscription) : Task := .route (.insert sub.pattern sub.id) (.insert sub)

def uncounting : ℕ → Task
  | 0 => .decActiveConnections
  | turns + 1 => .uncount turns

def cleaning (removed : List Subscription) : List Subscription → Task
  | [] => uncounting removed.length
  | sub :: rest =>
    match sub.queueGroupKey with
    | none => cleaning removed rest
    | some arc => .retain arc.key removed rest

def removing (removed : List Subscription) : List SubscriptionId → Task
  | [] => cleaning removed removed
  | id :: ids => .remove id ids removed

end Task

def withRouter (b : BrokerCore) (router : RoutingEngine) : BrokerCore :=
  { b with registry := { b.registry with router := router } }

/-- One atomic step. -/
def next (b : BrokerCore) : Task → BrokerCore × Option Task
  | .subscribe conn pattern queueGroup delivery =>
    let sub : Subscription := ⟨b.subIdGen, conn, pattern, queueGroup, none, delivery⟩
    ({ b with subIdGen := b.subIdGen + 1 }, match queueGroup with
      | none => some (.adding sub)
      | some group => some (.intern sub (pattern.raw, group.name)))
  | .intern sub key =>
    let (b, arc) := b.internKey key
    (b, some (.join { sub with queueGroupKey := some arc } arc))
  | .join sub arc => (b.joinGroup arc.key sub.id, some (.adding sub))
  | .route call rest =>
    let (router, left) := WildcardFlag.next b.router call
    (withRouter b router, match left with
      | some call => some (.route call rest)
      | none => some rest)
  | .insert sub =>
    ({ b with registry := { b.registry with
        subscriptions := b.registry.subscriptions.insert sub.id sub } }, some (.list sub))
  | .list sub =>
    ({ b with registry := { b.registry with
        byConnection := upsert sub.connectionId [] (· ++ [sub.id]) b.registry.byConnection } },
      some .incSubscriptions)
  | .incSubscriptions => ({ b with metrics := b.metrics.incSubscriptions }, none)
  | .unsubscribe _ id =>
    match b.registry.subscriptions.lookup id with
    | none => (b, none)
    | some sub =>
      ({ b with registry := { b.registry with
          subscriptions := b.registry.subscriptions.erase id } },
        some (.route (.remove sub.pattern id) (.unlist id sub)))
  | .unlist id sub =>
    ({ b with registry := { b.registry with
        byConnection := modify sub.connectionId (·.filter (· ≠ id)) b.registry.byConnection } },
      match sub.queueGroupKey with
      | none => some .decSubscriptions
      | some arc => some (.leave id arc.key))
  | .leave id key =>
    ({ b with
       queueGroups := modify key (fun g => { g with members := g.members.filter (· ≠ id) })
         b.queueGroups }, some .decSubscriptions)
  | .decSubscriptions => ({ b with metrics := b.metrics.decSubscriptions }, none)
  | .removeConnection conn =>
    ({ b with registry := { b.registry with byConnection := b.registry.byConnection.erase conn } },
      some (.removing [] ((b.registry.byConnection.lookup conn).getD [])))
  | .remove id ids removed =>
    match b.registry.subscriptions.lookup id with
    | none => (b, some (.removing removed ids))
    | some sub =>
      ({ b with registry := { b.registry with
          subscriptions := b.registry.subscriptions.erase id } },
        some (.route (.remove sub.pattern id) (.removing (removed ++ [sub]) ids)))
  | .retain key removed rest =>
    match b.queueGroups.lookup key with
    | none => (b, some (.cleaning removed rest))
    | some group =>
      let members := group.members.filter (· ∉ removed.map (·.id))
      ({ b with queueGroups := b.queueGroups.insert key { group with members := members } },
        some (if members.isEmpty then .dropGroup key removed rest else .cleaning removed rest))
  | .dropGroup key removed rest =>
    ({ b with queueGroups := b.queueGroups.erase key }, some (.dropKey key removed rest))
  | .dropKey key removed rest =>
    ({ b with queueGroupKeys := b.queueGroupKeys.erase key }, some (.cleaning removed rest))
  | .uncount turns =>
    ({ b with metrics := b.metrics.decSubscriptions }, some (.uncounting turns))
  | .decActiveConnections => ({ b with metrics := b.metrics.decActiveConnections }, none)

/-! Calls that nothing interrupts do what the functions of the broker do. -/

variable {after : BrokerCore} (b : BrokerCore) (conn : ConnectionId)

theorem finishes_route {router final : RoutingEngine} {call : WildcardFlag.Call}
    (routed : Finishes WildcardFlag.next router call final) {b : BrokerCore}
    (here : b.router = router) {rest : Task}
    (later : Finishes next (withRouter b final) rest after) :
    Finishes next b (.route call rest) after := by
  induction routed generalizing b with
  | last moved => exact .more (by rw [next, here, moved]) later
  | @more _ mid _ _ _ moved _ ih =>
    have step : Finishes next (withRouter b mid) _ after := ih rfl later
    exact .more (by rw [next, here, moved]) step

theorem finishes_subscribe (pattern : SubjectPattern) (queueGroup : Option QueueGroupName)
    (delivery : DeliveryHandle) :
    Finishes next b (.subscribe conn pattern queueGroup delivery)
      (b.subscribe conn pattern queueGroup delivery).1 := by
  have added : ∀ (b : BrokerCore) (sub : Subscription), Finishes next b (.adding sub)
      { b with registry := b.registry.add sub, metrics := b.metrics.incSubscriptions } :=
    fun b sub => finishes_route (WildcardFlag.finishes_insert _ _ _) rfl
      (.more rfl (.more rfl (.last rfl)))
  cases queueGroup with
  | none => exact .more rfl (added _ _)
  | some group => exact .more rfl (.more rfl (.more rfl (added _ _)))

theorem finishes_unsubscribe (id : SubscriptionId) :
    Finishes next b (.unsubscribe conn id) (b.unsubscribe conn id) := by
  rw [BrokerCore.unsubscribe, SubscriptionRegistry.remove]
  cases found : b.registry.subscriptions.lookup id with
  | none => exact .last (by rw [next, found])
  | some sub =>
    refine .more (by rw [next, found])
      (finishes_route (WildcardFlag.finishes_remove _ _ _) rfl ?_)
    cases key : sub.queueGroupKey with
    | none =>
      refine .more (by rw [next, key]) (.last ?_)
      simp only [key]
      rfl
    | some arc =>
      refine .more (by rw [next, key]) (.more rfl (.last ?_))
      simp only [key]
      rfl

theorem finishes_uncounting (turns : ℕ) (b : BrokerCore) :
    Finishes next b (.uncounting turns)
      { b with
        metrics := (CoreMetrics.decSubscriptions^[turns] b.metrics).decActiveConnections } := by
  induction turns generalizing b with
  | zero => exact .last rfl
  | succ turns ih => exact .more rfl (ih _)

theorem finishes_cleaning (removed : List Subscription) (rest : List Subscription) (b : BrokerCore)
    (later : Finishes next (rest.foldl (BrokerCore.leaveGroup (removed.map (·.id))) b)
      (.uncounting removed.length) after) : Finishes next b (.cleaning removed rest) after := by
  induction rest generalizing b with
  | nil => exact later
  | cons sub rest ih =>
    rw [List.foldl_cons, BrokerCore.leaveGroup] at later
    rw [Task.cleaning]
    cases key : sub.queueGroupKey with
    | none =>
      rw [key] at later
      exact ih b later
    | some arc =>
      rw [key] at later
      cases found : b.queueGroups.lookup arc.key with
      | none =>
        simp only [found] at later
        exact .more (by rw [next, found]) (ih b later)
      | some group =>
        simp only [found] at later
        by_cases empty : (group.members.filter (· ∉ removed.map (·.id))).isEmpty = true
        · rw [if_pos empty] at later
          refine .more (by rw [next, found]) ?_
          rw [if_pos empty]
          refine .more rfl (.more rfl (ih _ ?_))
          rwa [erase_insert]
        · rw [if_neg empty] at later
          refine .more (by rw [next, found]) ?_
          rw [if_neg empty]
          exact ih _ later

theorem finishes_removing (ids : List SubscriptionId) (b : BrokerCore) (removed : List Subscription)
    (later : Finishes next
      { b with registry := (ids.foldl SubscriptionRegistry.dropOne (b.registry, removed)).1 }
      (.cleaning (ids.foldl SubscriptionRegistry.dropOne (b.registry, removed)).2
        (ids.foldl SubscriptionRegistry.dropOne (b.registry, removed)).2) after) :
    Finishes next b (.removing removed ids) after := by
  induction ids generalizing b removed with
  | nil => exact later
  | cons id ids ih =>
    rw [List.foldl_cons, SubscriptionRegistry.dropOne] at later
    rw [Task.removing]
    cases found : b.registry.subscriptions.lookup id with
    | none =>
      simp only [found] at later
      exact .more (by rw [next, found]) (ih b removed later)
    | some sub =>
      simp only [found] at later
      refine .more (by rw [next, found])
        (finishes_route (WildcardFlag.finishes_remove _ _ _) rfl (ih _ _ ?_))
      exact later

theorem finishes_removeConnection :
    Finishes next b (.removeConnection conn) (b.removeConnection conn) := by
  refine .more rfl (finishes_removing _ _ _ (finishes_cleaning _ _ _ ?_))
  have counted : ∀ (removed : List Subscription) (m : CoreMetrics),
      removed.foldl (fun m _ => m.decSubscriptions) m =
        CoreMetrics.decSubscriptions^[removed.length] m := by
    intro removed m
    exact List.foldl_const ..
  rw [BrokerCore.removeConnection]
  simp only [counted]
  exact finishes_uncounting _ _

end ZetMQ.ConcurrentBroker
