import ZetMQ.CallTargets

/-! Queue groups in batches. The batch path hands every matched member of a group
to the one-by-one path on its own, so a group takes as many turns for an item as
it has members. -/
namespace ZetMQ.BatchGroups
open Utf8Text SubjectGrammar WildcardTrie KeyedTable Routing RoutingTable Delivery Registry Broker
open SubscriptionLedger RegistryRefinement DeliveryFrame BrokerRefinement RunRefinement
open DeliveryPlan LedgerDelivery BatchPlan BatchDelivery QueueGroups CallTargets

def carried (o : Offer) : PublishItem := ⟨o.2.subject, o.2.payload, o.2.replyTo, o.2.headers⟩

def content (call : DeliverCall) : PublishItem := carried (offered call)

def publishEach (env : DeliveryPolicy) (b : BrokerCore) (items : List PublishItem) : BrokerCore :=
  items.foldl (fun b item => b.publish env item.toMessage) b

/-- What a queue group is promised for a batch: its members are offered every
matching item once between them, as often as one by one. -/
def BatchContract (env : DeliveryPolicy) (order : PendingOrder) (b : BrokerCore)
    (live : List LiveSub) (items : List PublishItem) : Prop :=
  ∀ entry ∈ live, ∀ key, entry.groupKey = some key →
    let calls := toMembers (newCalls b (b.publishBatch env order items)) (memberIds live key)
    (calls.map content).Perm (items.filter (entry.pattern.matches ·.subject)) ∧
      calls.length = (toMembers (newCalls b (publishEach env b items)) (memberIds live key)).length

def LoneMembers (live : List LiveSub) (items : List PublishItem) : Prop :=
  ∀ entry ∈ live, ∀ key, entry.groupKey = some key →
    items.any (entry.pattern.matches ·.subject) = true → (memberIds live key).length = 1

theorem toMembers_append (first rest : List DeliverCall) (ids : List SubscriptionId) :
    toMembers (first ++ rest) ids = toMembers first ids ++ toMembers rest ids :=
  List.filter_append ..

variable {l : Ledger} {entry : LiveSub} {key : QueueGroupKey}

theorem count_matched_keys (grouped : entry.groupKey = some key) (subject : Subject) :
    ((matched l.live subject).filterMap LiveSub.groupKey).count key =
      if entry.pattern.matches subject = true then (memberIds l.live key).length else 0 := by
  have perm : (matched l.live subject).Perm (l.live.filter (·.pattern.matches subject)) := by
    refine (List.perm_ext_iff_of_nodup (matched_nodup (live_nodup l) subject)
      ((live_nodup l).filter _)).mpr fun other => ?_
    rw [mem_matched, List.mem_filter]
  rw [(perm.filterMap _).count_eq, List.count_filterMap, memberIds, List.length_map,
    ← List.countP_eq_length_filter, List.countP_filter]
  have pattern {other : LiveSub} (same : other.groupKey = some key) :
      other.pattern = entry.pattern := pattern_of_groupKey same grouped
  split_ifs with accepted
  · refine List.countP_congr fun other _ => ?_
    simp only [Bool.and_eq_true, beq_iff_eq, decide_eq_true_eq]
    exact ⟨fun here => here.1, fun same => ⟨same, pattern same ▸ accepted⟩⟩
  · refine List.countP_eq_zero.mpr fun other _ here => accepted ?_
    simp only [Bool.and_eq_true, beq_iff_eq] at here
    exact pattern here.1 ▸ here.2

theorem carried_turns {demand : List (Message × QueueGroupKey)} {picked : List LiveSub}
    (agree : List.Forall₂ (fun turn entry => entry ∈ l.live ∧ entry.groupKey = some turn.2)
      demand picked) (key : QueueGroupKey) :
    ((List.zipWith (fun turn entry => copyFor turn.1 entry) demand picked).filter
        (·.2.subscriptionId ∈ memberIds l.live key)).map carried =
      (demand.filter (·.2 = key)).map fun turn =>
        ⟨turn.1.subject, turn.1.payload, turn.1.replyTo, turn.1.headers⟩ := by
  induction agree with
  | nil => rfl
  | @cons turn entry demand picked here _ ih =>
    have member : entry.id ∈ memberIds l.live key ↔ turn.2 = key := by
      rw [mem_memberIds]
      constructor
      · rintro ⟨other, listed, same, grouped⟩
        rw [l.eq_of_id listed here.1 same, here.2] at grouped
        exact Option.some.inj grouped
      · exact fun same => ⟨entry, here.1, rfl, same ▸ here.2⟩
    rw [List.zipWith_cons_cons]
    by_cases same : turn.2 = key
    · rw [List.filter_cons_of_pos (by exact decide_eq_true (member.mpr same)),
        List.filter_cons_of_pos (by simpa using same), List.map_cons, List.map_cons, ih]
      rfl
    · have outside : entry.id ∉ memberIds l.live key := fun inside => same (member.mp inside)
      rw [List.filter_cons_of_neg (by exact Bool.not_eq_true _ ▸ decide_eq_false outside),
        List.filter_cons_of_neg (by simpa using same), ih]

theorem carried_demand (grouped : entry.groupKey = some key) (items : List PublishItem) :
    (((batchDemand l.live items).filter (·.2 = key)).map fun turn =>
        (⟨turn.1.subject, turn.1.payload, turn.1.replyTo, turn.1.headers⟩ : PublishItem)) =
      (items.filter (entry.pattern.matches ·.subject)).flatMap fun item =>
        List.replicate (memberIds l.live key).length item := by
  induction items with
  | nil => rfl
  | cons item items ih =>
    have turns : ((((matched l.live item.subject).filterMap LiveSub.groupKey).map
        (item.toMessage, ·)).filter (·.2 = key)).map (fun turn =>
          (⟨turn.1.subject, turn.1.payload, turn.1.replyTo, turn.1.headers⟩ : PublishItem)) =
        List.replicate (if entry.pattern.matches item.subject = true
          then (memberIds l.live key).length else 0) item := by
      rw [← count_matched_keys grouped, List.filter_map, List.map_map]
      simp only [Function.comp_def]
      rw [List.filter_eq, List.map_replicate]
      rfl
    rw [batchDemand, List.flatMap_cons, ← batchDemand, List.filter_append, List.map_append, ih,
      turns]
    by_cases accepted : entry.pattern.matches item.subject = true <;> simp [accepted]

theorem parcels_outside {items : List PublishItem} {entries : List LiveSub}
    (perm : entries.Perm (l.live.filter (receives items))) {calls : List DeliverCall}
    (inside : ∀ call ∈ calls, ∃ parcel ∈ entries.map (parcelFor items),
      offered call ∈ Parcel.offers parcel) (key : QueueGroupKey) :
    toMembers calls (memberIds l.live key) = [] := by
  refine List.filter_eq_nil_iff.mpr fun call member => ?_
  obtain ⟨parcel, listed, found⟩ := inside call member
  obtain ⟨entry, present, rfl⟩ := List.mem_map.mp listed
  obtain ⟨message, bundled, isOffer⟩ := List.mem_map.mp found
  obtain ⟨item, -, rfl⟩ := List.mem_map.mp bundled
  have addressed : call.message.subscriptionId = entry.id :=
    (congrArg (·.2.subscriptionId) isOffer).symm
  obtain ⟨present, wanted⟩ := List.mem_filter.mp (perm.subset present)
  rw [receives, Bool.and_eq_true, Option.isNone_iff_eq_none] at wanted
  simp only [decide_eq_true_eq, addressed, mem_memberIds, not_exists, not_and]
  intro other otherListed same grouped
  rw [l.eq_of_id otherListed present same, LiveSub.groupKey, wanted.1] at grouped
  cases grouped

theorem batch_group_contents {b : BrokerCore} (h : Refines b l) (env : DeliveryPolicy)
    (order : PendingOrder) (items : List PublishItem) (grouped : entry.groupKey = some key) :
    (toMembers (newCalls b (b.publishBatch env order items)) (memberIds l.live key)).map content =
      (items.filter (entry.pattern.matches ·.subject)).flatMap fun item =>
        List.replicate (memberIds l.live key).length item := by
  have counts : Refines (counted b items.length) l :=
    h.frame (SameSubscriptions.traffic.incPublishedBy b items.length)
  obtain ⟨entries, perm, batch⟩ := publishBatch_live h env order items
  obtain ⟨groups, picked, agree, served⟩ := serve_live counts env (batchDemand l.live items)
    (batchDemand_wanted l.live items)
  obtain ⟨pushed, parcelCalls, inside⟩ := foldl_push_calls env (entries.map (parcelFor items))
    (serve env (counted b items.length) (batchDemand l.live items))
  have calls : (b.publishBatch env order items).calls = b.calls ++
      (settle env b.calls (List.zipWith (fun turn entry => copyFor turn.1 entry)
        (batchDemand l.live items) picked) ++ pushed) := by
    rw [batch, parcelCalls, served, ← List.append_assoc]
    rfl
  have whole : content = carried ∘ offered := rfl
  rw [newCalls_of_append calls, toMembers_append, parcels_outside perm inside key,
    List.append_nil, whole, ← List.map_map, offered_toMembers, offered_settle,
    carried_turns agree, carried_demand grouped]

theorem publishEach_group_calls {b : BrokerCore} (h : Refines b l) (env : DeliveryPolicy)
    (items : List PublishItem) (key : QueueGroupKey) :
    ∃ new, (publishEach env b items).calls = b.calls ++ new ∧
      (toMembers new (memberIds l.live key)).length =
        (items.map fun item => (groupTurns l.live item.subject).count key).sum := by
  induction items generalizing b with
  | nil => exact ⟨[], by simp [publishEach], rfl⟩
  | cons item items ih =>
    obtain ⟨first, calls, -⟩ := publish_sent h env item.toMessage
    obtain ⟨picked, -, turns⟩ := group_calls h env item.toMessage
    obtain ⟨offers, length⟩ := turns key
    rw [newCalls_of_append calls] at offers
    obtain ⟨rest, calls', later⟩ :=
      ih (h.frame (SameSubscriptions.traffic.publish env b item.toMessage))
    refine ⟨first ++ rest, ?_, ?_⟩
    · rw [publishEach, List.foldl_cons, ← publishEach, calls', calls, List.append_assoc]
    · have here := congrArg List.length offers
      rw [List.length_map, List.length_map, length] at here
      rw [toMembers_append, List.length_append, later, here]
      rfl

theorem count_groupTurns_lone (member : entry ∈ l.live) (grouped : entry.groupKey = some key)
    {subject : Subject}
    (lone : entry.pattern.matches subject = true → (memberIds l.live key).length = 1) :
    (groupTurns l.live subject).count key =
      if entry.pattern.matches subject = true then 1 else 0 := by
  have turned := mem_groupTurns member grouped subject
  have listed := count_matched_keys (l := l) grouped subject
  split_ifs at listed ⊢ with accepted
  · have some := List.count_pos_iff.mpr (turned.mpr accepted)
    have notTwice : ¬ 1 < (groupTurns l.live subject).count key := by
      rw [one_lt_groupTurns]
      rintro ⟨j, other, sub⟩
      have twice := sub.count_le key
      rw [listed, lone accepted] at twice
      simp [other] at twice
    omega
  · exact List.count_eq_zero.mpr fun inside => accepted (turned.mp inside)

theorem sum_indicator {α : Type} (l : List α) (test : α → Bool) :
    (l.map fun a => if test a = true then 1 else 0).sum = (l.filter test).length := by
  induction l with
  | nil => rfl
  | cons a l ih => by_cases here : test a = true <;> simp [here, ih, Nat.add_comm]

theorem length_flatMap_replicate {α : Type} (l : List α) (n : ℕ) :
    (l.flatMap fun a => List.replicate n a).length = l.length * n := by
  rw [List.length_flatMap]
  simp only [List.length_replicate, List.map_const', List.sum_replicate_nat]

/-- In every reachable state a batch serves the queue groups as promised exactly
if every group that it matches has a single live member. -/
theorem batch_serves_groups_iff (env : DeliveryPolicy) (order : PendingOrder)
    (ops : List BrokerOp) (items : List PublishItem) :
    BatchContract env order (run env ops) (ledgerOf ops).live items ↔
      LoneMembers (ledgerOf ops).live items := by
  have h := run_refines env ops
  refine forall₂_congr fun entry member => forall₂_congr fun key grouped => ?_
  have contents := batch_group_contents h env order items grouped
  have length := congrArg List.length contents
  rw [List.length_map, length_flatMap_replicate] at length
  obtain ⟨new, calls, turns⟩ := publishEach_group_calls h env items key
  have matching : items.any (entry.pattern.matches ·.subject) = true ↔
      0 < (items.filter (entry.pattern.matches ·.subject)).length := by
    rw [List.length_pos_iff_exists_mem, List.any_eq_true]
    simp only [List.mem_filter]
  dsimp only
  rw [contents, length, newCalls_of_append calls, turns, matching]
  constructor
  · rintro ⟨perm, -⟩ some
    have same := perm.length_eq
    rw [length_flatMap_replicate] at same
    exact Nat.eq_of_mul_eq_mul_left some (same.trans (Nat.mul_one _).symm)
  · intro lone
    have each (item : PublishItem) (listed : item ∈ items) :
        (groupTurns (ledgerOf ops).live item.subject).count key =
          if entry.pattern.matches item.subject = true then 1 else 0 := by
      refine count_groupTurns_lone member grouped fun accepted => lone ?_
      exact List.length_pos_of_mem (List.mem_filter.mpr ⟨listed, accepted⟩)
    rw [List.map_congr_left each, sum_indicator items (entry.pattern.matches ·.subject)]
    rcases Nat.eq_zero_or_pos (items.filter (entry.pattern.matches ·.subject)).length with
      none | some
    · rw [none, Nat.zero_mul, List.length_eq_zero_iff.mp none]
      exact ⟨.refl _, rfl⟩
    · rw [lone some, Nat.mul_one]
      exact ⟨by simp, rfl⟩

def loneItem : PublishItem := ⟨newOrder, [1], none, none⟩

def twoWorkers : List BrokerOp :=
  [.subscribe 1 ordersNew (some workers) 1, .subscribe 2 ordersNew (some workers) 2]

set_option maxRecDepth 4000 in
theorem both_workers_served :
    ¬BatchContract acceptAll (IterOrder.stored _ _) (run acceptAll twoWorkers)
      (ledgerOf twoWorkers).live [loneItem] := by
  intro contract
  obtain ⟨perm, -⟩ := contract ⟨1, 1, ordersNew, some workers, 1⟩ (by decide)
    ("orders.new".toList, "workers".toList) (by decide)
  have once : ([loneItem].filter (ordersNew.matches ·.subject)).length = 1 := by decide
  have twice : (toMembers (newCalls (run acceptAll twoWorkers)
      ((run acceptAll twoWorkers).publishBatch acceptAll (IterOrder.stored _ _) [loneItem]))
      (memberIds (ledgerOf twoWorkers).live
        ("orders.new".toList, "workers".toList))).length = 2 := by decide
  have same := perm.length_eq
  rw [List.length_map, twice, once] at same
  cases same

end ZetMQ.BatchGroups
