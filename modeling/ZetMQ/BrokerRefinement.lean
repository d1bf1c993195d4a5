import ZetMQ.DeliveryFrame
import ZetMQ.RegistryRefinement

/-! The broker refines the ledger: each of its indexes is a function of the live
subscriptions. Subscribing and unsubscribing keep it so. -/
namespace ZetMQ.BrokerRefinement
open Utf8Text SubjectGrammar WildcardTrie KeyedTable Routing RoutingTable Delivery Registry Broker
open SubscriptionLedger RegistryRefinement DeliveryFrame

/-- The ids of a queue group, oldest first. -/
def memberIds (live : List LiveSub) (key : QueueGroupKey) : List SubscriptionId :=
  (live.filter (·.groupKey = some key)).map LiveSub.id

variable {id : SubscriptionId} {b : BrokerCore} {l : Ledger} {sub : Subscription}

theorem mem_memberIds {live : List LiveSub} {key : QueueGroupKey} :
    id ∈ memberIds live key ↔ ∃ entry ∈ live, entry.id = id ∧ entry.groupKey = some key := by
  simp only [memberIds, List.mem_map, List.mem_filter, decide_eq_true_eq]
  exact ⟨fun ⟨entry, ⟨member, grouped⟩, same⟩ => ⟨entry, member, same, grouped⟩,
    fun ⟨entry, member, same, grouped⟩ => ⟨entry, ⟨member, grouped⟩, same⟩⟩

theorem memberIds_filter (live : List LiveSub) (key : QueueGroupKey)
    (test : SubscriptionId → Bool) :
    memberIds (live.filter fun entry => test entry.id) key =
      (memberIds live key).filter test := by
  rw [memberIds, memberIds, List.filter_map, List.filter_filter, List.filter_filter]
  congr 1
  refine List.filter_congr fun entry _ => ?_
  simp [Bool.and_comm]

theorem memberIds_append (live more : List LiveSub) (key : QueueGroupKey) :
    memberIds (live ++ more) key = memberIds live key ++ memberIds more key := by
  rw [memberIds, List.filter_append, List.map_append]
  rfl

/-- The pointers handed out so far: one per key, no address used twice. -/
structure Interned (keys : Table QueueGroupKey KeyArc) (next : ℕ) : Prop where
  own : ∀ key arc, keys.lookup key = some arc → arc.key = key
  below : ∀ key arc, keys.lookup key = some arc → arc.addr < next
  distinct : ∀ key key' arc arc', keys.lookup key = some arc → keys.lookup key' = some arc' →
    arc.addr = arc'.addr → arc = arc'

theorem Interned.mono {keys keys' : Table QueueGroupKey KeyArc} {next : ℕ}
    (h : Interned keys next)
    (sub : ∀ key arc, keys'.lookup key = some arc → keys.lookup key = some arc) :
    Interned keys' next where
  own key arc found := h.own key arc (sub key arc found)
  below key arc found := h.below key arc (sub key arc found)
  distinct key key' arc arc' found found' :=
    h.distinct key key' arc arc' (sub key arc found) (sub key' arc' found')

theorem Interned.insert {keys : Table QueueGroupKey KeyArc} {next : ℕ} (h : Interned keys next)
    (key : QueueGroupKey) : Interned (keys.insert key ⟨next, key⟩) (next + 1) where
  own other arc found := by
    rw [lookup_insert_eq_some] at found
    obtain ⟨rfl, rfl⟩ | ⟨-, old⟩ := found
    · rfl
    · exact h.own other arc old
  below other arc found := by
    rw [lookup_insert_eq_some] at found
    obtain ⟨-, rfl⟩ | ⟨-, old⟩ := found
    · exact Nat.lt_succ_self _
    · exact (h.below other arc old).trans (Nat.lt_succ_self _)
  distinct key₁ key₂ arc₁ arc₂ found₁ found₂ same := by
    rw [lookup_insert_ite] at found₁ found₂
    split_ifs at found₁ found₂
    · exact Option.some.inj (found₁.symm.trans found₂)
    · have := h.below key₂ arc₂ found₂
      rw [← same, ← Option.some.inj found₁] at this
      exact absurd this (Nat.lt_irrefl _)
    · have := h.below key₁ arc₁ found₁
      rw [same, ← Option.some.inj found₂] at this
      exact absurd this (Nat.lt_irrefl _)
    · exact h.distinct key₁ key₂ arc₁ arc₂ found₁ found₂ same

structure Refines (b : BrokerCore) (l : Ledger) : Prop where
  registry : Keeps b.registry l.live
  nextId : b.subIdGen = l.nextId
  members : ∀ key, groupMembers b key = memberIds l.live key
  held : ∀ id sub, b.registry.getRef id = some sub →
    sub.queueGroupKey.map KeyArc.key = (toLive sub).groupKey
  shared : ∀ id sub arc, b.registry.getRef id = some sub → sub.queueGroupKey = some arc →
    b.queueGroupKeys.lookup arc.key = some arc
  interned : Interned b.queueGroupKeys b.nextAddr
  active : b.metrics.activeSubscriptions = l.live.length
  cache : ∀ input subject, b.subjectCache.lookup input = some subject →
    Subject.parse input = .ok subject

theorem refines_new : Refines .new .empty where
  registry := keeps_new
  nextId := rfl
  members _ := rfl
  held id sub found := by simp [BrokerCore.new, SubscriptionRegistry.new,
    SubscriptionRegistry.getRef] at found
  shared id sub arc found := by simp [BrokerCore.new, SubscriptionRegistry.new,
    SubscriptionRegistry.getRef] at found
  interned := by constructor <;> simp [BrokerCore.new]
  active := rfl
  cache input subject found := by simp [BrokerCore.new] at found

theorem Refines.frame {b' : BrokerCore} (h : Refines b l) (same : SameSubscriptions b b') :
    Refines b' l where
  registry := same.registry ▸ h.registry
  nextId := same.nextId.trans h.nextId
  members key := (same.members key).trans (h.members key)
  held := same.registry ▸ h.held
  shared := by
    rw [same.registry, same.keys]
    exact h.shared
  interned := by
    rw [same.keys, same.nextAddr]
    exact h.interned
  active := same.active.trans h.active
  cache input subject found :=
    (same.cache input subject found).elim (h.cache input subject) id

theorem Refines.count (h : Refines b l) (conn : ConnectionId) :
    b.subscriptionCountForConnection conn = (l.live.filter (·.conn = conn)).length := by
  have listed := congrArg List.length (h.registry.conns conn)
  rw [List.length_map] at listed
  rw [← listed, BrokerCore.subscriptionCountForConnection, SubscriptionRegistry.countForConnection]
  cases b.registry.byConnection.lookup conn <;> rfl

theorem Refines.find (h : Refines b l) (id : SubscriptionId) :
    (b.registry.getRef id).map toLive = l.live.find? (·.id = id) := by
  cases found : b.registry.getRef id with
  | none =>
    have absent := h.registry.lookup_eq_none.mp found
    rw [Option.map_none, eq_comm, List.find?_eq_none]
    exact fun entry member => by simpa using absent entry member
  | some sub =>
    obtain ⟨rfl, listed⟩ := h.registry.of_lookup found
    cases first : l.live.find? (·.id = sub.id) with
    | none =>
      have := List.find?_eq_none.mp first _ listed
      simp [toLive] at this
    | some entry =>
      have same : entry.id = sub.id := by simpa using List.find?_some first
      rw [Option.map_some, l.eq_of_id (List.mem_of_find?_eq_some first) listed same]

theorem Refines.pointer_eq (h : Refines b l) {id' : SubscriptionId} {sub' : Subscription}
    {arc arc' : KeyArc} (found : b.registry.getRef id = some sub)
    (found' : b.registry.getRef id' = some sub') (held : sub.queueGroupKey = some arc)
    (held' : sub'.queueGroupKey = some arc') : arc.addr = arc'.addr ↔ arc.key = arc'.key := by
  have interned := h.shared id sub arc found held
  have interned' := h.shared id' sub' arc' found' held'
  constructor
  · intro same
    rw [h.interned.distinct _ _ _ _ interned interned' same]
  · intro same
    rw [same, interned'] at interned
    rw [Option.some.inj interned]

theorem getRef_add (r : SubscriptionRegistry) (sub : Subscription) (id : SubscriptionId) :
    (r.add sub).getRef id = if id = sub.id then some sub else r.getRef id :=
  lookup_insert_ite ..

theorem Refines.enter (h : Refines b l) (b' : BrokerCore) (conn : ConnectionId)
    (pattern : SubjectPattern) (group : Option QueueGroupName) (handle : DeliveryHandle)
    (key : Option KeyArc)
    (keyed : key.map KeyArc.key = group.map fun name => (pattern.raw, name.name))
    (members : ∀ k, groupMembers b' k =
      groupMembers b k ++ if key.map KeyArc.key = some k then [b.subIdGen] else [])
    (kept : ∀ k arc, b.queueGroupKeys.lookup k = some arc → b'.queueGroupKeys.lookup k = some arc)
    (own : ∀ arc, key = some arc → b'.queueGroupKeys.lookup arc.key = some arc)
    (interned : Interned b'.queueGroupKeys b'.nextAddr) :
    Refines { b' with
      registry := b.registry.add ⟨b.subIdGen, conn, pattern, group, key, handle⟩
      metrics := b.metrics.incSubscriptions
      subIdGen := b.subIdGen + 1
      subjectCache := b.subjectCache } (l.subscribe conn pattern group handle) := by
  have new : toLive ⟨b.subIdGen, conn, pattern, group, key, handle⟩ =
      ⟨l.nextId, conn, pattern, group, handle⟩ := by rw [toLive, h.nextId]
  refine ⟨?_, ?_, ?_, ?_, ?_, interned, ?_, h.cache⟩
  · have fresh : ∀ entry ∈ l.live, entry.id ≠ b.subIdGen := by
      intro entry member
      rw [h.nextId]
      exact Nat.ne_of_lt (l.bounded entry member)
    have added := @Keeps.add _ _ h.registry ⟨b.subIdGen, conn, pattern, group, key, handle⟩ fresh
    rw [new] at added
    exact added
  · rw [h.nextId]
    rfl
  · intro k
    refine (members k).trans ?_
    rw [Ledger.subscribe, memberIds_append, h.members, h.nextId, keyed]
    simp only [memberIds, List.filter_cons, LiveSub.groupKey, List.filter_nil]
    by_cases same : (group.map fun name => (pattern.raw, name.name)) = some k
    · simp only [same, if_true, decide_true, List.map_cons, List.map_nil]
    · simp only [same, if_false, decide_false, List.map_nil, Bool.false_eq_true]
  · intro id sub found
    rw [getRef_add] at found
    split_ifs at found
    · rw [← Option.some.inj found]
      exact keyed
    · exact h.held id sub found
  · intro id sub arc found held
    rw [getRef_add] at found
    split_ifs at found
    · rw [← Option.some.inj found] at held
      exact own arc held
    · exact kept _ _ (h.shared id sub arc found held)
  · simp [CoreMetrics.incSubscriptions, h.active, Ledger.subscribe]

theorem internKey_spec (b : BrokerCore) (key : QueueGroupKey)
    (interned : Interned b.queueGroupKeys b.nextAddr) :
    ∃ keys next arc, b.internKey key =
        ({ b with queueGroupKeys := keys, nextAddr := next }, arc) ∧
      arc.key = key ∧ keys.lookup key = some arc ∧
      (∀ k a, b.queueGroupKeys.lookup k = some a → keys.lookup k = some a) ∧
      Interned keys next := by
  unfold BrokerCore.internKey
  cases found : b.queueGroupKeys.lookup key with
  | some arc =>
    exact ⟨b.queueGroupKeys, b.nextAddr, arc, rfl, interned.own key arc found, found,
      fun _ _ => id, interned⟩
  | none =>
    refine ⟨_, _, _, rfl, rfl, AList.lookup_insert _, ?_, interned.insert key⟩
    intro k a present
    rw [lookup_insert_ite]
    split_ifs with same
    · rw [same, found] at present
      cases present
    · exact present

theorem subscribe_eq (b : BrokerCore) (conn : ConnectionId) (pattern : SubjectPattern)
    (group : Option QueueGroupName) (handle : DeliveryHandle) :
    ∃ groups keys next key, (b.subscribe conn pattern group handle).1 = { b with
      registry := b.registry.add ⟨b.subIdGen, conn, pattern, group, key, handle⟩
      metrics := b.metrics.incSubscriptions
      queueGroups := groups
      queueGroupKeys := keys
      nextAddr := next
      subIdGen := b.subIdGen + 1 } := by
  cases group with
  | none => exact ⟨_, _, _, none, rfl⟩
  | some name =>
    simp only [BrokerCore.subscribe, BrokerCore.internKey]
    cases b.queueGroupKeys.lookup (pattern.raw, name.name) with
    | none => exact ⟨_, _, _, some _, rfl⟩
    | some arc => exact ⟨_, _, _, some arc, rfl⟩

theorem groupMembers_joinGroup (b : BrokerCore) (key other : QueueGroupKey)
    (id : SubscriptionId) :
    groupMembers (b.joinGroup key id) other =
      groupMembers b other ++ if some key = some other then [id] else [] := by
  simp only [groupMembers, BrokerCore.joinGroup, lookup_upsert, Option.some.injEq]
  split_ifs with same same' same'
  · subst same
    cases b.queueGroups.lookup other <;> rfl
  · exact absurd same.symm same'
  · exact absurd same'.symm same
  · rw [List.append_nil]

theorem Refines.subscribe (h : Refines b l) (conn : ConnectionId) (pattern : SubjectPattern)
    (group : Option QueueGroupName) (handle : DeliveryHandle) :
    Refines (b.subscribe conn pattern group handle).1 (l.subscribe conn pattern group handle) := by
  cases group with
  | none =>
    exact h.enter b conn pattern none handle none rfl
      (fun _ => (List.append_nil _).symm) (fun _ _ => id) (fun _ none => by cases none) h.interned
  | some name =>
    obtain ⟨keys, next, arc, interning, own, found, kept, interned⟩ :=
      internKey_spec { b with subIdGen := b.subIdGen + 1 } (pattern.raw, name.name) h.interned
    simp only [BrokerCore.subscribe, interning]
    refine h.enter (BrokerCore.joinGroup
      { b with queueGroupKeys := keys, nextAddr := next } arc.key b.subIdGen)
      conn pattern (some name) handle (some arc) ?_ ?_ kept ?_ interned
    · rw [Option.map_some, own]
      rfl
    · exact fun k => groupMembers_joinGroup _ arc.key k b.subIdGen
    · intro arc' same
      rw [← Option.some.inj same, own]
      exact found

theorem getRef_remove (r : SubscriptionRegistry) {id' : SubscriptionId}
    (found : (r.remove id).1.getRef id' = some sub) : r.getRef id' = some sub ∧ id' ≠ id := by
  unfold SubscriptionRegistry.remove at found
  split at found
  · rename_i missing
    refine ⟨found, ?_⟩
    rintro rfl
    rw [SubscriptionRegistry.getRef, missing] at found
    cases found
  · exact (lookup_erase_eq_some.mp found).symm

theorem unsubscribe_none (missing : b.registry.getRef id = none) (conn : ConnectionId) :
    b.unsubscribe conn id = b := by
  rw [SubscriptionRegistry.getRef] at missing
  simp only [BrokerCore.unsubscribe, SubscriptionRegistry.remove, missing]

theorem unsubscribe_some (found : b.registry.getRef id = some sub) (conn : ConnectionId) :
    b.unsubscribe conn id = { b with
      registry := (b.registry.remove id).1
      queueGroups := match sub.queueGroupKey with
        | none => b.queueGroups
        | some arc => modify arc.key (fun g => { g with members := g.members.filter (· ≠ id) })
          b.queueGroups
      metrics := b.metrics.decSubscriptions } := by
  rw [SubscriptionRegistry.getRef] at found
  cases key : sub.queueGroupKey <;>
    simp only [BrokerCore.unsubscribe, SubscriptionRegistry.remove, found, key]

theorem groupMembers_unsubscribe (found : b.registry.getRef id = some sub) (conn : ConnectionId)
    (key : QueueGroupKey) :
    groupMembers (b.unsubscribe conn id) key =
      if sub.queueGroupKey.map KeyArc.key = some key then (groupMembers b key).filter (· ≠ id)
      else groupMembers b key := by
  rw [unsubscribe_some found, groupMembers]
  cases sub.queueGroupKey with
  | none => rfl
  | some arc =>
    simp only [lookup_modify, Option.map_some, Option.some.injEq, eq_comm (a := arc.key)]
    split_ifs with same
    · rw [groupMembers, same]
      cases b.queueGroups.lookup arc.key <;> rfl
    · rfl

theorem length_filter_id_ne {entry : LiveSub} (listed : entry ∈ l.live) :
    (l.live.filter (·.id ≠ entry.id)).length + 1 = l.live.length := by
  have erased : (l.live.filter (·.id ≠ entry.id)).map LiveSub.id =
      (l.live.map LiveSub.id).erase entry.id := by
    rw [l.nodup_ids.erase_eq_filter, List.filter_map]
    congr 1
    refine List.filter_congr fun other _ => ?_
    by_cases same : other.id = entry.id <;> simp [same]
  have shorter := congrArg List.length erased
  rw [List.length_map, List.length_erase_of_mem (List.mem_map_of_mem listed), List.length_map]
    at shorter
  have := List.length_pos_of_mem listed
  omega

theorem Refines.unsubscribe (h : Refines b l) (conn : ConnectionId) (id : SubscriptionId) :
    Refines (b.unsubscribe conn id) (l.unsubscribe id) := by
  cases found : b.registry.getRef id with
  | none =>
    have absent := h.registry.lookup_eq_none.mp found
    have same : l.unsubscribe id = l := by
      have : l.live.filter (·.id ≠ id) = l.live :=
        List.filter_eq_self.mpr fun entry member => by simpa using absent entry member
      simp only [Ledger.unsubscribe, Ledger.keep, this]
    rw [unsubscribe_none found, same]
    exact h
  | some sub =>
    obtain ⟨rfl, listed⟩ := h.registry.of_lookup found
    have members := groupMembers_unsubscribe found conn
    rw [unsubscribe_some found] at members ⊢
    refine ⟨h.registry.remove l.nodup_ids sub.id, h.nextId, ?_,
      fun id' sub' found' => h.held id' sub' (getRef_remove _ found').1,
      fun id' sub' arc found' => h.shared id' sub' arc (getRef_remove _ found').1,
      h.interned, ?_, h.cache⟩
    · intro key
      have target : memberIds (l.unsubscribe sub.id).live key =
          (groupMembers b key).filter (· ≠ sub.id) := by
        rw [h.members, ← memberIds_filter]
        rfl
      rw [members, target]
      split_ifs with same
      · rfl
      · refine (filter_ne_absent fun member => ?_).symm
        rw [h.members, mem_memberIds] at member
        obtain ⟨entry, present, sameId, grouped⟩ := member
        rw [l.eq_of_id present listed sameId, ← h.held sub.id sub found] at grouped
        exact same grouped
    · change b.metrics.activeSubscriptions - 1 = (l.live.filter (·.id ≠ (toLive sub).id)).length
      rw [h.active, ← length_filter_id_ne listed]
      omega

end ZetMQ.BrokerRefinement
