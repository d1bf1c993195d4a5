import ZetMQ.CyclicTurns
import ZetMQ.QueueGroups

/-! The rotation of a queue group over whole runs. Nothing but a delivery moves the
counter of a group, so as long as the members stay the same, the members chosen are
those that consecutive counter values select. -/
namespace ZetMQ.RoundRobin
open Utf8Text SubjectGrammar WildcardTrie KeyedTable RoutingTable Delivery Registry Broker
open SubscriptionLedger DeliveryFrame BrokerRefinement RunRefinement DeliveryPlan LedgerDelivery
open QueueGroups CyclicTurns

/-- What may happen around a group: deliveries to it and to other groups, each for the
nonempty slice of ids that the match loop collected, and changes of subscriptions. -/
inductive GroupEvent where
  | deliver (key : QueueGroupKey) (matched : List SubscriptionId) (found : matched ≠ [])
      (message : Message)
  | subscribe (conn : ConnectionId) (pattern : SubjectPattern) (group : Option QueueGroupName)
      (handle : DeliveryHandle)
  | unsubscribe (conn : ConnectionId) (id : SubscriptionId)
  | removeConnection (conn : ConnectionId)

namespace GroupEvent

def apply (env : DeliveryPolicy) (b : BrokerCore) : GroupEvent → BrokerCore
  | deliver key matched _ message => b.deliverQueueGroup env key matched message
  | subscribe conn pattern group handle => (b.subscribe conn pattern group handle).1
  | unsubscribe conn id => b.unsubscribe conn id
  | removeConnection conn => b.removeConnection conn

def track (l : Ledger) : GroupEvent → Ledger
  | deliver .. => l
  | subscribe conn pattern group handle => l.subscribe conn pattern group handle
  | unsubscribe _ id => l.unsubscribe id
  | removeConnection conn => l.removeConnection conn

def isCallOn (key : QueueGroupKey) : GroupEvent → Bool
  | deliver other .. => other = key
  | _ => false

end GroupEvent

def after (env : DeliveryPolicy) (b : BrokerCore) (events : List GroupEvent) : BrokerCore :=
  events.foldl (GroupEvent.apply env) b

def callsOn (key : QueueGroupKey) (events : List GroupEvent) : ℕ :=
  events.countP (GroupEvent.isCallOn key)

def callees (calls : List DeliverCall) : List SubscriptionId :=
  calls.map (·.message.subscriptionId)

/-- Whom the deliveries to one group went to, in order. -/
def chosen (env : DeliveryPolicy) (key : QueueGroupKey) :
    BrokerCore → List GroupEvent → List SubscriptionId
  | _, [] => []
  | b, event :: rest =>
    (if event.isCallOn key then callees (newCalls b (event.apply env b)) else []) ++
      chosen env key (event.apply env b) rest

def startedAt (b : BrokerCore) (key : QueueGroupKey) (start : ℕ) : BrokerCore :=
  { b with queueGroups := modify key (fun g => { g with currentIndex := start }) b.queueGroups }

theorem startedAt_frame (b : BrokerCore) (key : QueueGroupKey) (start : ℕ) :
    SameSubscriptions b (startedAt b key start) where
  registry := rfl
  keys := rfl
  nextAddr := rfl
  nextId := rfl
  active := rfl
  members other := by
    rw [groupMembers, startedAt, lookup_modify]
    split_ifs with same
    · rw [groupMembers, same, Option.map_map]
      rfl
    · rfl
  cache _ _ := .inl

variable {b : BrokerCore} {l : Ledger} {key : QueueGroupKey} {index : ℕ}
  {members : List SubscriptionId} (env : DeliveryPolicy)

theorem apply_refines (h : Refines b l) (event : GroupEvent) :
    Refines (event.apply env b) (event.track l) := by
  cases event with
  | deliver key matched found message =>
    rw [GroupEvent.apply, deliverQueueGroup_eq env b key found message]
    exact h.frame (serve_frame env b _)
  | subscribe conn pattern group handle => exact h.subscribe conn pattern group handle
  | unsubscribe conn id => exact h.unsubscribe conn id
  | removeConnection conn => exact refines_removeConnection h conn

def cursor (b : BrokerCore) (key : QueueGroupKey) : Option ℕ :=
  (b.queueGroups.lookup key).map QueueGroupState.currentIndex

theorem cursor_joinGroup (here : cursor b key = some index) (other : QueueGroupKey)
    (id : SubscriptionId) : cursor (b.joinGroup other id) key = some index := by
  rw [cursor, BrokerCore.joinGroup, lookup_upsert]
  split_ifs with same
  · rw [cursor, same] at here
    cases found : b.queueGroups.lookup other with
    | none => simp [found] at here
    | some group => simpa [found] using here
  · exact here

theorem cursor_internKey (b : BrokerCore) (key other : QueueGroupKey) :
    cursor (b.internKey other).1 key = cursor b key := by
  unfold BrokerCore.internKey
  cases b.queueGroupKeys.lookup other <;> rfl

theorem cursor_subscribe (here : cursor b key = some index) (conn : ConnectionId)
    (pattern : SubjectPattern) (group : Option QueueGroupName) (handle : DeliveryHandle) :
    cursor (b.subscribe conn pattern group handle).1 key = some index := by
  cases group with
  | none => exact here
  | some name =>
    have interned := (cursor_internKey { b with subIdGen := b.subIdGen + 1 } key
      (pattern.raw, name.name)).trans here
    exact cursor_joinGroup interned _ b.subIdGen

theorem cursor_unsubscribe (b : BrokerCore) (key : QueueGroupKey) (conn : ConnectionId)
    (id : SubscriptionId) : cursor (b.unsubscribe conn id) key = cursor b key := by
  cases found : b.registry.getRef id with
  | none => rw [unsubscribe_none found]
  | some sub =>
    rw [unsubscribe_some found, cursor]
    cases sub.queueGroupKey with
    | none => rfl
    | some arc =>
      rw [lookup_modify]
      split_ifs with same
      · rw [cursor, same, Option.map_map]
        rfl
      · rfl

theorem cursor_leaveGroup (removedIds : List SubscriptionId) (b : BrokerCore) (sub : Subscription)
    (kept : cursor (b.leaveGroup removedIds sub) key = some index) : cursor b key = some index := by
  unfold BrokerCore.leaveGroup at kept
  cases arc : sub.queueGroupKey with
  | none => simpa only [arc] using kept
  | some arc' =>
    cases found : b.queueGroups.lookup arc'.key with
    | none => simpa only [arc, found] using kept
    | some group =>
      simp only [arc, found] at kept
      by_cases same : key = arc'.key
      · subst same
        split_ifs at kept
        · simp [cursor] at kept
        · simpa [cursor, lookup_insert_ite, found] using kept
      · split_ifs at kept
        · simpa [cursor, lookup_erase_ite, same] using kept
        · simpa [cursor, lookup_insert_ite, same] using kept

theorem cursor_leaveGroups (removedIds : List SubscriptionId) (subs : List Subscription)
    (b : BrokerCore)
    (kept : cursor (subs.foldl (BrokerCore.leaveGroup removedIds) b) key = some index) :
    cursor b key = some index := by
  induction subs generalizing b with
  | nil => exact kept
  | cons sub subs ih => exact cursor_leaveGroup removedIds b sub (ih _ kept)

theorem cursor_removeConnection (b : BrokerCore) (conn : ConnectionId)
    (kept : cursor (b.removeConnection conn) key = some index) : cursor b key = some index :=
  cursor_leaveGroups _ _ { b with registry := (b.registry.removeAllForConnection conn).1 } kept

theorem cursor_deliver_other (b : BrokerCore) {other : QueueGroupKey} (differ : other ≠ key)
    (message : Message) : cursor (serve env b [(message, other)]) key = cursor b key := by
  rw [cursor, cursor]
  change ((rotate b.queueGroups other).1.lookup key).map _ = _
  unfold rotate
  cases b.queueGroups.lookup other with
  | none => rfl
  | some group =>
    dsimp only
    split_ifs
    · rfl
    · rw [lookup_insert_ite, if_neg differ.symm]

theorem cursor_kept (here : cursor b key = some index) {event : GroupEvent}
    (apart : event.isCallOn key = false) (present : (cursor (event.apply env b) key).isSome) :
    cursor (event.apply env b) key = some index := by
  obtain ⟨later, kept⟩ := Option.isSome_iff_exists.mp present
  cases event with
  | deliver other matched found message =>
    have differ : other ≠ key := by simpa [GroupEvent.isCallOn] using apart
    rw [GroupEvent.apply, deliverQueueGroup_eq env b other found message,
      cursor_deliver_other env b differ message]
    exact here
  | subscribe conn pattern group handle => exact cursor_subscribe here conn pattern group handle
  | unsubscribe conn id =>
    rw [GroupEvent.apply, cursor_unsubscribe]
    exact here
  | removeConnection conn =>
    rw [kept, ← here]
    exact (cursor_removeConnection b conn kept).symm

theorem lookup_of_cursor (listed : groupMembers b key = members)
    (here : cursor b key = some index) : b.queueGroups.lookup key = some ⟨members, index⟩ := by
  rw [cursor, Option.map_eq_some_iff] at here
  obtain ⟨group, found, rfl⟩ := here
  rw [groupMembers_of_lookup found] at listed
  rw [found, ← listed]

theorem cursor_isSome (filled : groupMembers b key ≠ []) : (cursor b key).isSome := by
  rw [cursor, Option.isSome_map]
  cases found : b.queueGroups.lookup key with
  | none => simp [groupMembers, found] at filled
  | some group => rfl

theorem deliver_step (h : Refines b l) (group : b.queueGroups.lookup key = some ⟨members, index⟩)
    (filled : members ≠ []) {matched : List SubscriptionId} (found : matched ≠ [])
    (message : Message) :
    callees (newCalls b (b.deliverQueueGroup env key matched message)) = served members index 1 ∧
      cursor (b.deliverQueueGroup env key matched message) key =
        some ((index + 1) % 2 ^ 64) := by
  have positive : 0 < members.length := List.length_pos_iff.mpr filled
  have inside := Nat.mod_lt index positive
  have listed : members[index % members.length] ∈ memberIds l.live key := by
    rw [← h.members, groupMembers_of_lookup group]
    exact List.getElem_mem inside
  obtain ⟨entry, live, same, -⟩ := mem_memberIds.mp listed
  have turn : rotate b.queueGroups key = (b.queueGroups.insert key
      ⟨members, (index + 1) % 2 ^ 64⟩, some entry.id) := by
    unfold rotate
    rw [group]
    dsimp only
    rw [if_neg positive.ne', List.getElem?_eq_getElem inside, same]
  have serving : serve env b [(message, key)] = offer env
      { b with queueGroups := b.queueGroups.insert key ⟨members, (index + 1) % 2 ^ 64⟩ }
      [copyFor message entry] := by
    simp only [serve, turns, turn, Option.toList_some, List.map_cons, List.map_nil,
      List.append_nil, List.flatMap_singleton, offersTo_live h message live]
  rw [deliverQueueGroup_eq env b key found message, serving]
  constructor
  · rw [newCalls_of_append rfl, served_one, List.getElem?_eq_getElem inside, ← same]
    rfl
  · rw [cursor, offer, AList.lookup_insert]
    rfl

theorem chosen_served (h : Refines b l) {start : ℕ} (filled : members ≠ [])
    (here : cursor b key = some (start % 2 ^ 64)) (events : List GroupEvent)
    (steady : ∀ before, before <+: events → groupMembers (after env b before) key = members)
    (room : start + callsOn key events ≤ 2 ^ 64) :
    chosen env key b events = served members start (callsOn key events) := by
  induction events generalizing b l start with
  | nil => rfl
  | cons event rest ih =>
    have refined := apply_refines env h event
    have later (before : List GroupEvent) (first : before <+: rest) :
        groupMembers (after env (event.apply env b) before) key = members :=
      steady (event :: before) (List.prefix_cons_inj event |>.mpr first)
    have present : (cursor (event.apply env b) key).isSome := by
      refine cursor_isSome ?_
      rwa [show groupMembers (event.apply env b) key = members from later [] List.nil_prefix]
    cases call : event.isCallOn key with
    | false =>
      have same : callsOn key (event :: rest) = callsOn key rest := by
        simp [callsOn, call]
      rw [same] at room ⊢
      rw [chosen, call, ih refined (cursor_kept env here call present) later room]
      rfl
    | true =>
      have more : callsOn key (event :: rest) = 1 + callsOn key rest := by
        simp [callsOn, call, Nat.add_comm]
      rw [more] at room ⊢
      cases event with
      | deliver other matched found message =>
        have own : other = key := by simpa [GroupEvent.isCallOn] using call
        subst own
        have group := lookup_of_cursor (steady [] List.nil_prefix) here
        have step := deliver_step env h group filled found message
        have moved : cursor (b.deliverQueueGroup env other matched message) other =
            some ((start + 1) % 2 ^ 64) := by
          rw [step.2, Nat.mod_add_mod]
        rw [chosen, call, if_pos rfl, served_add]
        congr 1
        · rw [GroupEvent.apply, step.1, Nat.mod_eq_of_lt (by omega)]
        · exact ih refined moved later (by omega)
      | subscribe conn pattern group handle => simp [GroupEvent.isCallOn] at call
      | unsubscribe conn id => simp [GroupEvent.isCallOn] at call
      | removeConnection conn => simp [GroupEvent.isCallOn] at call

theorem memberIds_nodup (l : Ledger) (key : QueueGroupKey) : (memberIds l.live key).Nodup :=
  l.nodup_ids.sublist (List.filter_sublist.map LiveSub.id)

/-- A queue group serves its members in turn: whatever the counter was, and whatever
else happens to the broker, while the members stay the same every member is chosen
`⌊k / n⌋` or `⌈k / n⌉` times, and `n` consecutive choices are each member once. -/
theorem round_robin_fair (env : DeliveryPolicy) (ops : List BrokerOp) (key : QueueGroupKey)
    (group : QueueGroupState) (found : (run env ops).queueGroups.lookup key = some group)
    (filled : 1 ≤ group.members.length) (start : Fin (2 ^ 64)) (events : List GroupEvent)
    (steady : ∀ before, before <+: events →
      groupMembers (after env (startedAt (run env ops) key start) before) key = group.members)
    (room : start + callsOn key events ≤ 2 ^ 64) :
    let n := group.members.length
    let k := callsOn key events
    let choices := chosen env key (startedAt (run env ops) key start) events
    choices.length = k ∧
      (∀ id ∈ group.members, choices.count id = k / n ∨ choices.count id = (k + n - 1) / n) ∧
      ∀ skipped, skipped + n ≤ k → ((choices.drop skipped).take n).Perm group.members := by
  have h := run_refines env ops
  have nodup : group.members.Nodup := by
    rw [← groupMembers_of_lookup found, h.members]
    exact memberIds_nodup _ key
  have some : group.members ≠ [] := List.length_pos_iff.mp filled
  have here : cursor (startedAt (run env ops) key start) key = .some (start % 2 ^ 64) := by
    rw [cursor, startedAt, lookup_modify, if_pos rfl, found, Nat.mod_eq_of_lt start.isLt]
    rfl
  intro n k choices
  have all : choices = served group.members start k :=
    chosen_served env (h.frame (startedAt_frame _ key start)) some here events steady room
  rw [all]
  refine ⟨length_served _ some _ _, fun id listed => count_served _ nodup listed _ _,
    fun skipped inside => ?_⟩
  rw [served_stretch _ some inside]
  exact served_round_perm _ _

def workersKey : QueueGroupKey := ("orders.new".toList, "workers".toList)

def workersServed : List GroupEvent :=
  [.deliver workersKey [1, 3] (by simp) orderMessage,
    .deliver ("orders.new".toList, "auditors".toList) [2] (by simp) orderMessage,
    .deliver workersKey [1, 3] (by simp) orderMessage, .unsubscribe 2 2,
    .deliver workersKey [1, 3] (by simp) orderMessage]

def workersAtSeven : BrokerCore :=
  startedAt (run acceptAll auditorBetweenWorkers) workersKey 7

theorem workersServed_steady (before : List GroupEvent) (first : before <+: workersServed) :
    groupMembers (after acceptAll workersAtSeven before) workersKey = [1, 3] := by
  have all : ∀ before ∈ workersServed.inits,
      groupMembers (after acceptAll workersAtSeven before) workersKey = [1, 3] := by
    decide
  exact all before ((List.mem_inits before workersServed).mpr first)

theorem workers_take_turns :
    (chosen acceptAll workersKey workersAtSeven workersServed).length = 3 ∧
    (∀ id ∈ [1, 3], (chosen acceptAll workersKey workersAtSeven workersServed).count id = 1 ∨
      (chosen acceptAll workersKey workersAtSeven workersServed).count id = 2) ∧
    ∀ skipped, skipped + 2 ≤ 3 →
      (((chosen acceptAll workersKey workersAtSeven workersServed).drop skipped).take 2).Perm
        [1, 3] :=
  round_robin_fair acceptAll auditorBetweenWorkers workersKey ⟨[1, 3], 0⟩ (by decide) (by decide)
    ⟨7, by decide⟩ workersServed workersServed_steady (by decide)

end ZetMQ.RoundRobin
