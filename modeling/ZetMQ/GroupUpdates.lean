import ZetMQ.CallTargets
import ZetMQ.QuietRemovals

/-! The stored state of one queue group, cursor included, after each call that
changes subscriptions; two brokers that look alike to a connection still do after
such a call to both. -/
namespace ZetMQ.GroupUpdates
open Utf8Text SubjectGrammar WildcardTrie KeyedTable Delivery Registry Broker
open SubscriptionLedger RegistryRefinement DeliveryFrame BrokerRefinement RunRefinement
open LedgerDelivery ConnectionView QuietRemovals CallTargets

section
variable {b : BrokerCore} {l : Ledger} (h : Refines b l)
include h

theorem subscribe_groups (conn : ConnectionId) (pattern : SubjectPattern)
    (group : Option QueueGroupName) (handle : DeliveryHandle) (key : QueueGroupKey) :
    (b.subscribe conn pattern group handle).1.queueGroups.lookup key =
      if (group.map fun name => (pattern.raw, name.name)) = some key
      then some { (b.queueGroups.lookup key).getD ⟨[], 0⟩ with
        members := ((b.queueGroups.lookup key).getD ⟨[], 0⟩).members ++ [l.nextId] }
      else b.queueGroups.lookup key := by
  cases group with
  | none => rfl
  | some name =>
    obtain ⟨keys, next, arc, interning, own, -⟩ :=
      internKey_spec { b with subIdGen := b.subIdGen + 1 } (pattern.raw, name.name) h.interned
    rw [← h.nextId]
    simp only [BrokerCore.subscribe, interning, BrokerCore.joinGroup, lookup_upsert, own,
      Option.map_some, Option.some.injEq, eq_comm (a := key)]
    split_ifs with same
    · rw [same]
    · rfl

theorem unsubscribe_groups (conn : ConnectionId) (id : SubscriptionId) (key : QueueGroupKey) :
    (b.unsubscribe conn id).queueGroups.lookup key =
      if ∃ entry ∈ l.live, entry.id = id ∧ entry.groupKey = some key
      then (b.queueGroups.lookup key).map fun g => { g with members := g.members.filter (· ≠ id) }
      else b.queueGroups.lookup key := by
  cases found : b.registry.getRef id with
  | none =>
    have absent := h.registry.lookup_eq_none.mp found
    rw [unsubscribe_none found, if_neg]
    rintro ⟨entry, member, same, -⟩
    exact absent entry member same
  | some sub =>
    obtain ⟨rfl, listed⟩ := h.registry.of_lookup found
    have held := h.held _ sub found
    have here : (∃ entry ∈ l.live, entry.id = sub.id ∧ entry.groupKey = some key) ↔
        (toLive sub).groupKey = some key := by
      refine ⟨?_, fun grouped => ⟨toLive sub, listed, rfl, grouped⟩⟩
      rintro ⟨entry, member, same, grouped⟩
      rwa [l.eq_of_id member listed same] at grouped
    simp only [here]
    rw [unsubscribe_some found, ← held]
    cases sub.queueGroupKey with
    | none => rfl
    | some arc =>
      simp only [lookup_modify, Option.map_some, Option.some.injEq, eq_comm (a := key)]
      split_ifs with same
      · rw [same]
      · rfl

end

/-- A group that loses members, and disappears with the last one. -/
def shrink (removedIds : List SubscriptionId) (group : QueueGroupState) : Option QueueGroupState :=
  let members := group.members.filter (· ∉ removedIds)
  if members.isEmpty then none else some { group with members := members }

variable (removedIds : List SubscriptionId)

theorem shrink_idem (group : Option QueueGroupState) :
    (group.bind (shrink removedIds)).bind (shrink removedIds) =
      group.bind (shrink removedIds) := by
  cases group with
  | none => rfl
  | some group =>
    simp only [Option.bind_some, shrink]
    split_ifs with empty
    · rfl
    · simp only [Option.bind_some, shrink, List.filter_filter, Bool.and_self, empty, if_false,
        Bool.false_eq_true]

theorem leaveGroup_groups (b : BrokerCore) (sub : Subscription) (key : QueueGroupKey) :
    (b.leaveGroup removedIds sub).queueGroups.lookup key =
      if inGroup key sub then (b.queueGroups.lookup key).bind (shrink removedIds)
      else b.queueGroups.lookup key := by
  unfold BrokerCore.leaveGroup
  cases held : sub.queueGroupKey with
  | none => simp [inGroup, held]
  | some arc =>
    have here : inGroup key sub ↔ key = arc.key := by simp [inGroup, held, eq_comm]
    simp only [here]
    cases found : b.queueGroups.lookup arc.key with
    | none =>
      split_ifs with same
      · rw [same, found]
        rfl
      · rfl
    | some group =>
      dsimp only
      by_cases empty : (group.members.filter (· ∉ removedIds)).isEmpty = true
      · rw [if_pos empty, lookup_erase_ite]
        split_ifs with same
        · rw [same, found, Option.bind_some, shrink, if_pos empty]
        · rfl
      · rw [if_neg empty, lookup_insert_ite]
        split_ifs with same
        · rw [same, found, Option.bind_some, shrink, if_neg empty]
        · rfl

theorem foldl_leaveGroup_groups (subs : List Subscription) (b : BrokerCore) (key : QueueGroupKey) :
    (subs.foldl (BrokerCore.leaveGroup removedIds) b).queueGroups.lookup key =
      if ∃ sub ∈ subs, inGroup key sub then (b.queueGroups.lookup key).bind (shrink removedIds)
      else b.queueGroups.lookup key := by
  induction subs generalizing b with
  | nil => simp
  | cons sub subs ih =>
    rw [List.foldl_cons, ih, leaveGroup_groups]
    by_cases here : inGroup key sub <;> by_cases later : ∃ s ∈ subs, inGroup key s
    · simp [here, later, shrink_idem]
    · simp [here, later]
    · simp [here, later]
    · simp [here, later]

theorem removeConnection_groups {b : BrokerCore} {l : Ledger} (h : Refines b l)
    (conn : ConnectionId) (key : QueueGroupKey) :
    (b.removeConnection conn).queueGroups.lookup key =
      if ∃ entry ∈ l.live, entry.conn = conn ∧ entry.groupKey = some key
      then (b.queueGroups.lookup key).bind
        (shrink ((l.live.filter (·.conn = conn)).map LiveSub.id))
      else b.queueGroups.lookup key := by
  obtain ⟨-, returned, source, -⟩ := h.registry.removeAll l.nodup_ids conn
  unfold BrokerCore.removeConnection
  generalize b.registry.removeAllForConnection conn = result at *
  obtain ⟨registry, removed⟩ := result
  dsimp only at returned source ⊢
  have ids : removed.map (·.id) = (l.live.filter (·.conn = conn)).map LiveSub.id := by
    rw [← returned, List.map_map]
    rfl
  have left : (∃ sub ∈ removed, inGroup key sub) ↔
      ∃ entry ∈ l.live, entry.conn = conn ∧ entry.groupKey = some key := by
    have listed (entry : LiveSub) : (entry ∈ l.live ∧ entry.conn = conn) ↔
        ∃ sub ∈ removed, toLive sub = entry := by
      rw [← List.mem_map, returned, List.mem_filter, decide_eq_true_eq]
    constructor
    · rintro ⟨sub, member, grouped⟩
      obtain ⟨present, mine⟩ := (listed (toLive sub)).mpr ⟨sub, member, rfl⟩
      exact ⟨toLive sub, present, mine, (h.held _ sub (source sub member)).symm.trans grouped⟩
    · rintro ⟨entry, present, mine, grouped⟩
      obtain ⟨sub, member, rfl⟩ := (listed entry).mp ⟨present, mine⟩
      exact ⟨sub, member, (h.held _ sub (source sub member)).trans grouped⟩
  rw [foldl_leaveGroup_groups, ids]
  simp only [left]

section
variable {focus : List Str} {conn : ConnectionId} {s s' : BrokerCore} {l l' : Ledger}

theorem exists_in_focus (shadow : Shadow focus conn l l') {key : QueueGroupKey}
    (inside : key.1 ∈ focus) (test : LiveSub → Prop) :
    (∃ entry ∈ l'.live, test entry ∧ entry.groupKey = some key) ↔
      ∃ entry ∈ l.live, test entry ∧ entry.groupKey = some key := by
  constructor
  · rintro ⟨entry, member, passes, grouped⟩
    exact ⟨entry, shadow.sub.subset member, passes, grouped⟩
  · rintro ⟨entry, member, passes, grouped⟩
    obtain ⟨inGroup, same⟩ := groupKey_fst grouped
    refine ⟨entry, shadow.kept entry member ?_, passes, grouped⟩
    simp [noticed, inGroup, ← same, inside]

section
variable (alike : Alike focus conn s s' l l')
include alike

theorem subscribe_agree (c : ConnectionId) (pattern : SubjectPattern)
    (group : Option QueueGroupName) (handle : DeliveryHandle) :
    Agree focus conn (s.subscribe c pattern group handle).1
      (s'.subscribe c pattern group handle).1 := by
  refine ⟨fun key inside => ?_, ?_⟩
  · rw [subscribe_groups alike.left, subscribe_groups alike.right, alike.agree.groups key inside,
      alike.shadow.nextId]
  · rw [subscribe_calls, subscribe_calls, alike.agree.calls]

theorem unsubscribe_agree (c : ConnectionId) (id : SubscriptionId) :
    Agree focus conn (s.unsubscribe c id) (s'.unsubscribe c id) := by
  refine ⟨fun key inside => ?_, ?_⟩
  · rw [unsubscribe_groups alike.left, unsubscribe_groups alike.right,
      alike.agree.groups key inside]
    simp only [exists_in_focus alike.shadow inside]
  · rw [unsubscribe_calls, unsubscribe_calls, alike.agree.calls]

/-- A member of a group in focus belongs to the closing connection on both sides
or on neither. -/
theorem shrink_agree (c : ConnectionId) {key : QueueGroupKey} (inside : key.1 ∈ focus) :
    (s.queueGroups.lookup key).bind (shrink ((l'.live.filter (·.conn = c)).map LiveSub.id)) =
      (s.queueGroups.lookup key).bind (shrink ((l.live.filter (·.conn = c)).map LiveSub.id)) := by
  cases found : s.queueGroups.lookup key with
  | none => rfl
  | some group =>
    have members := alike.left.members key
    rw [groupMembers_of_lookup found] at members
    have remaining : group.members.filter
          (· ∉ (l'.live.filter (·.conn = c)).map LiveSub.id) =
        group.members.filter (· ∉ (l.live.filter (·.conn = c)).map LiveSub.id) := by
      refine List.filter_congr fun id member => ?_
      rw [members, mem_memberIds] at member
      obtain ⟨entry, listed, rfl, grouped⟩ := member
      obtain ⟨inGroup, same⟩ := groupKey_fst grouped
      have kept := alike.shadow.kept entry listed (by simp [noticed, inGroup, ← same, inside])
      have owned {ledger : Ledger} (present : entry ∈ ledger.live) :
          entry.id ∈ (ledger.live.filter (·.conn = c)).map LiveSub.id ↔ entry.conn = c := by
        simp only [List.mem_map, List.mem_filter, decide_eq_true_eq]
        refine ⟨?_, fun mine => ⟨entry, ⟨present, mine⟩, rfl⟩⟩
        rintro ⟨other, ⟨there, mine⟩, sameId⟩
        rwa [← ledger.eq_of_id there present sameId]
      simp only [owned kept, owned listed]
    simp only [Option.bind_some, shrink, remaining]

theorem removeConnection_agree (c : ConnectionId) :
    Agree focus conn (s.removeConnection c) (s'.removeConnection c) := by
  refine ⟨fun key inside => ?_, ?_⟩
  · rw [removeConnection_groups alike.left, removeConnection_groups alike.right,
      alike.agree.groups key inside, shrink_agree alike c inside]
    simp only [exists_in_focus alike.shadow inside]
  · rw [removeConnection_calls, removeConnection_calls, alike.agree.calls]

end

theorem track_shadow (shadow : Shadow focus conn l l') (op : BrokerOp) :
    Shadow focus conn (op.track l) (op.track l') := by
  have keep (test : LiveSub → Bool) : Shadow focus conn (l.keep test) (l'.keep test) := by
    refine ⟨shadow.nextId, shadow.sub.filter test, fun entry member seen => ?_⟩
    obtain ⟨listed, passes⟩ := List.mem_filter.mp member
    exact List.mem_filter.mpr ⟨shadow.kept entry listed seen, passes⟩
  cases op with
  | subscribe c pattern group handle =>
    refine ⟨congrArg (· + 1) shadow.nextId, ?_, fun entry member seen => ?_⟩
    · simp only [BrokerOp.track, Ledger.subscribe, shadow.nextId]
      exact shadow.sub.append (.refl _)
    · simp only [BrokerOp.track, Ledger.subscribe, List.mem_append, shadow.nextId] at member ⊢
      exact member.imp_left fun old => shadow.kept entry old seen
  | unsubscribe c id => exact keep _
  | removeConnection c => exact keep _
  | publish message => exact shadow
  | publishWithStr subject payload replyTo headers => exact shadow
  | publishBatch order items => exact shadow
  | parseSubject input => exact shadow

end

end ZetMQ.GroupUpdates
