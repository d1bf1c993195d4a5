import ZetMQ.BrokerRefinement

/-! A closing connection, whole histories, and the representation invariant.
After any history of calls the broker refines the ledger of that history. -/
namespace ZetMQ.RunRefinement
open Utf8Text SubjectGrammar WildcardTrie KeyedTable Routing RoutingTable Delivery Registry Broker
open SubscriptionLedger RegistryRefinement DeliveryFrame BrokerRefinement

def inGroup (key : QueueGroupKey) (sub : Subscription) : Prop :=
  sub.queueGroupKey.map KeyArc.key = some key

instance (key : QueueGroupKey) : DecidablePred (inGroup key) :=
  fun _ => inferInstanceAs (Decidable (_ = _))

/-- What the queue-group cleanup does to the member lists and the interned keys. -/
structure LeftGroups (removedIds : List SubscriptionId) (subs : List Subscription)
    (b b' : BrokerCore) : Prop where
  rest : b' = { b with queueGroups := b'.queueGroups, queueGroupKeys := b'.queueGroupKeys }
  members : ∀ key, groupMembers b' key = if ∃ sub ∈ subs, inGroup key sub
    then (groupMembers b key).filter (· ∉ removedIds) else groupMembers b key
  keys : ∀ key, b'.queueGroupKeys.lookup key = b.queueGroupKeys.lookup key ∨
    b'.queueGroupKeys.lookup key = none ∧ (groupMembers b key).filter (· ∉ removedIds) = []

variable (removedIds : List SubscriptionId)

theorem leaveGroup_spec (b : BrokerCore) (sub : Subscription) :
    LeftGroups removedIds [sub] b (b.leaveGroup removedIds sub) := by
  have onlySub (key : QueueGroupKey) : (∃ s ∈ [sub], inGroup key s) ↔ inGroup key sub := by simp
  unfold BrokerCore.leaveGroup
  cases arc : sub.queueGroupKey with
  | none =>
    refine ⟨rfl, fun key => ?_, fun _ => .inl rfl⟩
    rw [if_neg]
    simp [inGroup, arc]
  | some arc' =>
    have here (key : QueueGroupKey) : inGroup key sub ↔ arc'.key = key := by
      simp [inGroup, arc]
    dsimp only
    cases found : b.queueGroups.lookup arc'.key with
    | none =>
      refine ⟨rfl, fun key => ?_, fun _ => .inl rfl⟩
      simp only [onlySub, here]
      split_ifs with same
      · subst same
        simp [groupMembers, found]
      · rfl
    | some group =>
      have before := groupMembers_of_lookup found
      dsimp only
      split
      · rename_i empty
        have empty : group.members.filter (· ∉ removedIds) = [] := by simpa using empty
        refine ⟨rfl, fun key => ?_, fun key => ?_⟩
        · simp only [onlySub, here, groupMembers, lookup_erase_ite, eq_comm (a := key)]
          split_ifs with same
          · subst same
            simp only [found, Option.map_some, Option.getD_some, empty, Option.map_none,
              Option.getD_none]
          · rfl
        · rw [lookup_erase_ite]
          split_ifs with same
          · refine .inr ⟨rfl, ?_⟩
            rw [same, before, empty]
          · exact .inl rfl
      · refine ⟨rfl, fun key => ?_, fun _ => .inl rfl⟩
        simp only [onlySub, here, groupMembers, lookup_insert_ite, eq_comm (a := key)]
        split_ifs with same
        · subst same
          simp only [found, Option.map_some, Option.getD_some]
        · rfl

theorem filter_leaveGroup (b : BrokerCore) (sub : Subscription) (key : QueueGroupKey) :
    (groupMembers (b.leaveGroup removedIds sub) key).filter (· ∉ removedIds) =
      (groupMembers b key).filter (· ∉ removedIds) := by
  rw [(leaveGroup_spec removedIds b sub).members]
  split_ifs
  · rw [List.filter_filter]
    simp
  · rfl

theorem foldl_leaveGroup (subs : List Subscription) (b : BrokerCore) :
    LeftGroups removedIds subs b (subs.foldl (BrokerCore.leaveGroup removedIds) b) := by
  induction subs generalizing b with
  | nil => exact ⟨rfl, fun _ => by simp, fun _ => .inl rfl⟩
  | cons sub subs ih =>
    have first := leaveGroup_spec removedIds b sub
    have later := ih (b.leaveGroup removedIds sub)
    rw [List.foldl_cons]
    refine ⟨?_, fun key => ?_, fun key => ?_⟩
    · rw [later.rest, first.rest]
    · rw [later.members, filter_leaveGroup, first.members]
      by_cases here : inGroup key sub <;> by_cases there : ∃ s ∈ subs, inGroup key s <;>
        simp [here, there]
    · rcases later.keys key with same | ⟨gone, empty⟩
      · rw [same]
        exact first.keys key
      · rw [filter_leaveGroup] at empty
        exact .inr ⟨gone, empty⟩

theorem foldl_decSubscriptions {α : Type} (l : List α) (m : CoreMetrics) :
    (l.foldl (fun m _ => m.decSubscriptions) m).activeSubscriptions =
      m.activeSubscriptions - l.length := by
  induction l generalizing m with
  | nil => simp
  | cons a l ih =>
    rw [List.foldl_cons, ih, List.length_cons, CoreMetrics.decSubscriptions]
    dsimp only
    omega

theorem refines_removeConnection {b : BrokerCore} {l : Ledger} (h : Refines b l)
    (conn : ConnectionId) : Refines (b.removeConnection conn) (l.removeConnection conn) := by
  obtain ⟨registry, returned, source, kept⟩ := h.registry.removeAll l.nodup_ids conn
  unfold BrokerCore.removeConnection
  generalize removal : b.registry.removeAllForConnection conn = result at *
  obtain ⟨registry', removed⟩ := result
  dsimp only at registry returned source kept ⊢
  set removedIds := removed.map (·.id) with idsOf
  have left := foldl_leaveGroup removedIds removed { b with registry := registry' }
  generalize removed.foldl (BrokerCore.leaveGroup removedIds) { b with registry := registry' } =
    b' at left ⊢
  have ids : removedIds = (l.live.filter (·.conn = conn)).map LiveSub.id := by
    rw [idsOf, ← returned, List.map_map]
    rfl
  have target (key : QueueGroupKey) : memberIds (l.removeConnection conn).live key =
      (groupMembers b key).filter (· ∉ removedIds) := by
    have remaining := filter_notMem_conn l.live l.nodup_ids conn
    rw [← ids] at remaining
    rw [h.members, ← memberIds_filter, remaining]
    rfl
  have members (key : QueueGroupKey) :
      groupMembers b' key = (groupMembers b key).filter (· ∉ removedIds) := by
    rw [left.members]
    split_ifs with touched
    · rfl
    · refine (List.filter_eq_self.mpr fun id member => ?_).symm
      have notRemoved : id ∉ removedIds := by
        intro gone
        obtain ⟨sub, listed, rfl⟩ := List.mem_map.mp gone
        refine touched ⟨sub, listed, ?_⟩
        have found := source sub listed
        obtain ⟨entry, present, same, grouped⟩ := mem_memberIds.mp (h.members key ▸ member)
        rw [inGroup, h.held _ _ found, ← grouped,
          l.eq_of_id present (h.registry.of_lookup found).2 same]
      simpa using notRemoved
  have keysKept {key : QueueGroupKey} {arc : KeyArc}
      (found : b'.queueGroupKeys.lookup key = some arc) :
      b.queueGroupKeys.lookup key = some arc := by
    rcases left.keys key with same | ⟨gone, -⟩
    · rwa [same] at found
    · rw [gone] at found
      cases found
  rw [left.rest]
  refine ⟨registry, h.nextId, fun key => (members key).trans (target key).symm,
    fun id sub found => h.held id sub (kept id sub found), ?_,
    h.interned.mono fun key arc => keysKept, ?_, h.cache⟩
  · intro id sub arc found held
    have before := h.shared id sub arc (kept id sub found) held
    rcases left.keys arc.key with same | ⟨-, empty⟩
    · exact same.trans before
    · -- a live member keeps its group from being emptied
      have member : id ∈ memberIds (l.removeConnection conn).live arc.key := by
        obtain ⟨rfl, listed⟩ := registry.of_lookup found
        refine mem_memberIds.mpr ⟨toLive sub, listed, rfl, ?_⟩
        rw [← h.held _ sub (kept _ sub found), held]
        rfl
      rw [target, show (groupMembers b arc.key).filter (· ∉ removedIds) = [] from empty] at member
      cases member
  · have split : l.live.length =
        (l.live.filter (·.conn = conn)).length + (l.removeConnection conn).live.length := by
      rw [List.length_eq_length_filter_add (fun entry : LiveSub => decide (entry.conn = conn))]
      congr 2
      refine List.filter_congr fun entry _ => ?_
      by_cases here : entry.conn = conn <;> simp [here]
    have count : removed.length = (l.live.filter (·.conn = conn)).length := by
      rw [← returned, List.length_map]
    change (removed.foldl (fun m _ => m.decSubscriptions) b.metrics).activeSubscriptions = _
    rw [foldl_decSubscriptions, h.active]
    omega

theorem step_refines (env : DeliveryPolicy) {b : BrokerCore} {l : Ledger} (h : Refines b l)
    (op : BrokerOp) : Refines (op.apply env b) (op.track l) := by
  cases op with
  | subscribe conn pattern group handle => exact h.subscribe conn pattern group handle
  | unsubscribe conn id => exact h.unsubscribe conn id
  | removeConnection conn => exact refines_removeConnection h conn
  | publish message => exact h.frame (SameSubscriptions.traffic.publish env b message)
  | publishWithStr subject payload replyTo headers =>
    exact h.frame (SameSubscriptions.traffic.publishWithStr env b subject payload replyTo headers)
  | publishBatch order items =>
    exact h.frame (SameSubscriptions.traffic.publishBatch env order b items)
  | parseSubject input => exact h.frame (SameSubscriptions.traffic.parseSubject b input)

theorem run_refines (env : DeliveryPolicy) (ops : List BrokerOp) :
    Refines (run env ops) (ledgerOf ops) := by
  induction ops using List.reverseRecOn with
  | nil => exact refines_new
  | append_singleton ops op ih =>
    rw [run, ledgerOf, List.foldl_append, List.foldl_append]
    exact step_refines env ih op

/-- Every index of the broker agrees with the list of live subscriptions: each
live id stands exactly once in each place it belongs to, and no other id stands
anywhere. -/
structure RepInvariant (b : BrokerCore) (live : List LiveSub) : Prop where
  table : ∀ id, (b.registry.getRef id).map toLive = live.find? (·.id = id)
  byConnection : ∀ conn id, ((b.registry.byConnection.lookup conn).getD []).count id =
    if ∃ entry ∈ live, entry.id = id ∧ entry.conn = conn then 1 else 0
  router : ∀ slot id, (b.router.idsAt slot).count id =
    if ∃ entry ∈ live, entry.id = id ∧ slotOf entry.pattern = slot then 1 else 0
  groups : ∀ key id, (groupMembers b key).count id =
    if ∃ entry ∈ live, entry.id = id ∧ entry.groupKey = some key then 1 else 0
  keys : ∀ id sub, b.registry.getRef id = some sub →
    sub.queueGroupKey.map KeyArc.key = (toLive sub).groupKey
  pointers : ∀ id id' sub sub' arc arc', b.registry.getRef id = some sub →
    b.registry.getRef id' = some sub' → sub.queueGroupKey = some arc →
    sub'.queueGroupKey = some arc' →
    (arc.addr = arc'.addr ↔ sub.pattern = sub'.pattern ∧ sub.queueGroup = sub'.queueGroup)
  active : b.metrics.activeSubscriptions = live.length

theorem count_filter_ids (l : Ledger) (test : LiveSub → Prop) [DecidablePred test]
    (id : SubscriptionId) :
    ((l.live.filter (test ·)).map LiveSub.id).count id =
      if ∃ entry ∈ l.live, entry.id = id ∧ test entry then 1 else 0 := by
  have nodup : ((l.live.filter (test ·)).map LiveSub.id).Nodup :=
    l.nodup_ids.sublist ((List.filter_sublist ..).map _)
  rw [nodup.count]
  congr 1
  simp only [List.mem_map, List.mem_filter, decide_eq_true_eq, eq_iff_iff]
  exact ⟨fun ⟨entry, ⟨member, passes⟩, same⟩ => ⟨entry, member, same, passes⟩,
    fun ⟨entry, member, same, passes⟩ => ⟨entry, ⟨member, passes⟩, same⟩⟩

theorem groupKey_eq_iff {a b : LiveSub} {key key' : QueueGroupKey} (ha : a.groupKey = some key)
    (hb : b.groupKey = some key') :
    key = key' ↔ a.pattern = b.pattern ∧ a.group = b.group := by
  obtain ⟨id, conn, pattern, group, handle⟩ := a
  obtain ⟨id', conn', pattern', group', handle'⟩ := b
  simp only [LiveSub.groupKey, Option.map_eq_some_iff] at ha hb
  obtain ⟨name, rfl, rfl⟩ := ha
  obtain ⟨name', rfl, rfl⟩ := hb
  simp only [Prod.mk.injEq, Option.some.injEq]
  constructor
  · rintro ⟨samePattern, sameName⟩
    refine ⟨SubjectPattern.ext_raw samePattern, ?_⟩
    cases name
    cases name'
    simpa using sameName
  · rintro ⟨rfl, rfl⟩
    exact ⟨rfl, rfl⟩

theorem representation_invariant (env : DeliveryPolicy) (ops : List BrokerOp) :
    RepInvariant (run env ops) (ledgerOf ops).live := by
  have h := run_refines env ops
  refine ⟨h.find, fun conn id => ?_, fun slot id => ?_, fun key id => ?_, h.held, ?_, h.active⟩
  · rw [h.registry.conns, count_filter_ids]
  · rw [BrokerCore.router, h.registry.routes.ids, ← count_filter_ids]
    congr 1
    rw [idsIn, routesOf, List.filter_map, List.map_map]
    rfl
  · rw [h.members, memberIds, count_filter_ids]
  · intro id id' sub sub' arc arc' found found' held held'
    rw [h.pointer_eq found found' held held']
    have key := h.held id sub found
    have key' := h.held id' sub' found'
    rw [held, Option.map_some] at key
    rw [held', Option.map_some] at key'
    exact groupKey_eq_iff key.symm key'.symm

end ZetMQ.RunRefinement
