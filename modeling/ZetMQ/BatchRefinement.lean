import ZetMQ.BatchGroups
import ZetMQ.Channels

/-! Without queue groups a batch refines publishing one by one. Both runs are
compared handle by handle: what a channel accepts depends only on the sequence it
is offered, and that is the same bundle on both sides. -/
namespace ZetMQ.BatchRefinement
open Utf8Text SubjectGrammar WildcardTrie KeyedTable Routing RoutingTable Delivery Registry Broker
open SubscriptionLedger RegistryRefinement DeliveryFrame BrokerRefinement RunRefinement
open DeliveryPlan LedgerDelivery BatchPlan BatchDelivery QueueGroups CallTargets BatchGroups
open Channels

section
variable {b : BrokerCore} {l : Ledger} (h : Refines b l)
  (free : ∀ entry ∈ l.live, entry.group = none)
include free

theorem fanoutCopies_free (message : Message) :
    fanoutCopies l.live message = (matched l.live message.subject).map (copyFor message) := by
  rw [fanoutCopies, List.filter_eq_self.mpr]
  intro entry member
  rw [free entry (mem_matched.mp member).1]
  rfl

def eachOffers (live : List LiveSub) (items : List PublishItem) : List Offer :=
  items.flatMap fun item => fanoutCopies live item.toMessage

include h in
theorem publishEach_eq (env : DeliveryPolicy) (items : List PublishItem) :
    let calls := settle env b.calls (eachOffers l.live items)
    let b' := publishEach env b items
    b'.calls = b.calls ++ calls ∧
      b'.metrics.messagesPublished = b.metrics.messagesPublished + items.length ∧
      b'.metrics.messagesDelivered = b.metrics.messagesDelivered + calls.countP wasDelivered ∧
      b'.metrics.messagesDropped =
        b.metrics.messagesDropped + calls.countP (!wasDelivered ·) := by
  induction items generalizing b with
  | nil => exact ⟨by simp [publishEach, eachOffers, settle], rfl, rfl, rfl⟩
  | cons item items ih =>
    obtain ⟨groups, picked, agree, published⟩ := publish_live h env item.toMessage
    have noTurns : groupTurns l.live item.toMessage.subject = [] := by
      rw [groupTurns, matched_keys_free free]
      rfl
    rw [noTurns, List.forall₂_nil_left_iff] at agree
    rw [agree, List.map_nil, List.nil_append] at published
    obtain ⟨calls, count, delivered, dropped⟩ :=
      ih (h.frame (SameSubscriptions.traffic.publish env b item.toMessage))
    have first : (b.publish env item.toMessage).calls = b.calls ++
        settle env b.calls (fanoutCopies l.live item.toMessage) := by
      rw [published]
      rfl
    rw [first] at calls delivered dropped
    rw [eachOffers, List.flatMap_cons, ← eachOffers, settle_append, publishEach, List.foldl_cons,
      ← publishEach]
    refine ⟨?_, ?_, ?_, ?_⟩
    · rw [calls, List.append_assoc]
    · rw [count, published, List.length_cons]
      simp only [offer, tally, CoreMetrics.incPublished, CoreMetrics.incPublishedBy]
      omega
    · rw [delivered, published, List.countP_append]
      simp only [offer, tally, CoreMetrics.incPublished, CoreMetrics.incPublishedBy]
      omega
    · rw [dropped, published, List.countP_append]
      simp only [offer, tally, CoreMetrics.incPublished, CoreMetrics.incPublishedBy]
      omega

end

section
variable {l : Ledger} (free : ∀ entry ∈ l.live, entry.group = none)
  (own : (l.live.map LiveSub.handle).Nodup)
include free own

theorem eachOffers_for (items : List PublishItem) {entry : LiveSub} (member : entry ∈ l.live) :
    ((eachOffers l.live items).filter (·.1 = entry.handle)).map Prod.snd = bundle items entry := by
  induction items with
  | nil => rfl
  | cons item items ih =>
    have mine : ((fanoutCopies l.live item.toMessage).filter (·.1 = entry.handle)).map Prod.snd =
        if entry.pattern.matches item.subject = true
        then [item.deliveryTo entry.id entry.conn] else [] := by
      have same : (matched l.live item.subject).filter (·.handle = entry.handle) =
          (matched l.live item.subject).filter (· = entry) := by
        refine List.filter_congr fun other listed => ?_
        have : other.handle = entry.handle ↔ other = entry :=
          ⟨List.inj_on_of_nodup_map own (mem_matched.mp listed).1 member, fun same => same ▸ rfl⟩
        simp only [this]
      have here : entry ∈ matched l.live item.subject ↔
          entry.pattern.matches item.subject = true := by
        rw [mem_matched]
        exact and_iff_right member
      rw [fanoutCopies_free free, List.filter_map, List.map_map]
      simp only [Function.comp_def, copyFor]
      refine (congrArg _ same).trans ?_
      rw [List.filter_eq, (matched_nodup (live_nodup l) item.subject).count]
      simp only [here]
      split_ifs <;> rfl
    rw [eachOffers, List.flatMap_cons, ← eachOffers, List.filter_append, List.map_append, ih, mine,
      bundle, bundle]
    by_cases accepted : entry.pattern.matches item.subject = true <;> simp [accepted]

omit own free in
theorem handle_of_eachOffers {items : List PublishItem} {o : Offer}
    (listed : o ∈ eachOffers l.live items) : o.1 ∈ l.live.map LiveSub.handle := by
  obtain ⟨item, -, inside⟩ := List.mem_flatMap.mp listed
  obtain ⟨entry, present, rfl⟩ := List.mem_map.mp inside
  exact List.mem_map_of_mem (mem_matched.mp (List.mem_of_mem_filter present)).1

theorem length_eachOffers (env : DeliveryPolicy) (log : List DeliverCall)
    (items : List PublishItem) :
    (settle env log (eachOffers l.live items)).length =
      (l.live.map fun entry => (bundle items entry).length).sum := by
  have inside : ∀ call ∈ settle env log (eachOffers l.live items),
      call.handle ∈ l.live.map LiveSub.handle := by
    intro call member
    have listed : offered call ∈ eachOffers l.live items := by
      rw [← offered_settle env log (eachOffers l.live items)]
      exact List.mem_map_of_mem member
    exact handle_of_eachOffers listed
  have counted := countP_by_handle (fun _ => true) own inside
  rw [List.countP_true] at counted
  rw [counted, List.map_map]
  congr 1
  refine List.map_congr_left fun entry member => ?_
  have settled := congrArg (fun offers => (offers.filter (·.1 = entry.handle)).length)
    (offered_settle env log (eachOffers l.live items))
  simp only [List.filter_map, List.length_map] at settled
  rw [← eachOffers_for free own items member, Function.comp_apply, List.length_map, ← settled]
  rfl

omit own in
theorem sum_bundles {items : List PublishItem} {entries : List LiveSub}
    (perm : entries.Perm (l.live.filter (receives items))) :
    ((entries.map (parcelFor items)).map (·.2.length)).sum =
      (l.live.map fun entry => (bundle items entry).length).sum := by
  rw [List.map_map, (perm.map _).sum_nat]
  have rest : ∀ live : List LiveSub, (∀ entry ∈ live, entry ∈ l.live) →
      ((live.filter (receives items)).map fun entry => (bundle items entry).length).sum =
        (live.map fun entry => (bundle items entry).length).sum := by
    intro live inside
    induction live with
    | nil => rfl
    | cons entry live ih =>
      have later := ih fun other member => inside other (List.mem_cons_of_mem _ member)
      by_cases wanted : receives items entry = true
      · simp [wanted, later]
      · have empty := bundle_of_not_receives (free entry (inside entry (List.mem_cons_self ..)))
          (Bool.eq_false_iff.mpr wanted)
        simp [wanted, later, empty]
  exact rest l.live fun _ => id

end

/-- What the channels of a set of subscriptions do with a list of items, and how
it is counted. -/
structure Accepted (answer : Answers) (live : List LiveSub) (items : List PublishItem)
    (b b' : BrokerCore) (new : List DeliverCall) : Prop where
  calls : b'.calls = b.calls ++ new
  taken : ∀ entry ∈ live, acceptedBy new entry.handle =
    takesUntil (answer entry.handle) [] (bundle items entry)
  others : ∀ handle ∉ live.map LiveSub.handle, acceptedBy new handle = []
  published : b'.metrics.messagesPublished = b.metrics.messagesPublished + items.length
  delivered : b'.metrics.messagesDelivered =
    b.metrics.messagesDelivered + new.countP wasDelivered
  dropped : b'.metrics.messagesDropped + new.countP wasDelivered =
    b.metrics.messagesDropped + (live.map fun entry => (bundle items entry).length).sum

namespace Accepted
variable {answer : Answers} {live : List LiveSub} {items : List PublishItem}
  {b b₁ b₂ : BrokerCore} {new₁ new₂ : List DeliverCall}

theorem acceptedBy_eq (h₁ : Accepted answer live items b b₁ new₁)
    (h₂ : Accepted answer live items b b₂ new₂) (handle : DeliveryHandle) :
    acceptedBy new₁ handle = acceptedBy new₂ handle := by
  by_cases known : handle ∈ live.map LiveSub.handle
  · obtain ⟨entry, member, rfl⟩ := List.mem_map.mp known
    rw [h₁.taken entry member, h₂.taken entry member]
  · rw [h₁.others handle known, h₂.others handle known]

theorem count_delivered (h : Accepted answer live items b b₁ new₁)
    (own : (live.map LiveSub.handle).Nodup) :
    new₁.countP wasDelivered =
      ((live.map LiveSub.handle).map fun handle => (acceptedBy new₁ handle).length).sum := by
  have inside : ∀ call ∈ new₁.filter wasDelivered, call.handle ∈ live.map LiveSub.handle := by
    intro call member
    by_contra unknown
    obtain ⟨listed, taken⟩ := List.mem_filter.mp member
    have accepted : call.message ∈ acceptedBy new₁ call.handle :=
      List.mem_map_of_mem (List.mem_filter.mpr ⟨List.mem_filter.mpr ⟨listed, by simp⟩, taken⟩)
    rw [h.others _ unknown] at accepted
    cases accepted
  have counted := countP_by_handle wasDelivered own inside
  rw [List.countP_filter] at counted
  simp only [Bool.and_self] at counted
  rw [counted]
  congr 1
  refine List.map_congr_left fun handle _ => ?_
  rw [length_acceptedBy, List.filter_comm, List.countP_filter]
  simp only [Bool.and_self]

theorem unique (h₁ : Accepted answer live items b b₁ new₁)
    (h₂ : Accepted answer live items b b₂ new₂) (own : (live.map LiveSub.handle).Nodup) :
    b₁.metrics.messagesPublished = b₂.metrics.messagesPublished ∧
      b₁.metrics.messagesDelivered = b₂.metrics.messagesDelivered ∧
      b₁.metrics.messagesDropped = b₂.metrics.messagesDropped := by
  have same : new₁.countP wasDelivered = new₂.countP wasDelivered := by
    rw [h₁.count_delivered own, h₂.count_delivered own]
    simp only [h₁.acceptedBy_eq h₂]
  have dropped := h₁.dropped.trans h₂.dropped.symm
  refine ⟨h₁.published.trans h₂.published.symm, ?_, by omega⟩
  rw [h₁.delivered, h₂.delivered, same]

end Accepted

section
variable {b : BrokerCore} {l : Ledger} (h : Refines b l)
  (free : ∀ entry ∈ l.live, entry.group = none) (own : (l.live.map LiveSub.handle).Nodup)
  (answer : Answers)
include h free own

theorem publishEach_accepted (sticky : Sticky answer) (items : List PublishItem) :
    ∃ new, Accepted answer l.live items b
      (publishEach (channelPolicy answer b.calls.length) b items) new := by
  obtain ⟨calls, published, delivered, dropped⟩ :=
    publishEach_eq h free (channelPolicy answer b.calls.length) items
  have taken (handle : DeliveryHandle) :=
    acceptedBy_settle answer (Nat.le_refl b.calls.length) (eachOffers l.live items) handle
  simp only [List.drop_length, offeredTo_nil, takes_eq_takesUntil sticky] at taken
  refine ⟨_, calls, ?_, ?_, published, delivered, ?_⟩
  · intro entry member
    rw [taken, eachOffers_for free own items member]
  · intro handle unknown
    have none : (eachOffers l.live items).filter (·.1 = handle) = [] := by
      refine List.filter_eq_nil_iff.mpr fun o listed => ?_
      simpa using fun here : o.1 = handle => unknown (here ▸ handle_of_eachOffers listed)
    rw [taken, none]
    rfl
  · have total := length_eachOffers free own (channelPolicy answer b.calls.length) b.calls items
    have halves := List.length_eq_countP_add_countP wasDelivered
      (l := settle (channelPolicy answer b.calls.length) b.calls (eachOffers l.live items))
    simp only [Bool.not_eq_true, Bool.decide_eq_false] at halves
    omega

theorem publishBatch_accepted (order : PendingOrder) (items : List PublishItem) :
    ∃ new, Accepted answer l.live items b
      (b.publishBatch (channelPolicy answer b.calls.length) order items) new := by
  set env := channelPolicy answer b.calls.length
  obtain ⟨entries, perm, isBatch⟩ := publishBatch_live h env order items
  have live : ∀ entry ∈ entries, entry ∈ l.live :=
    fun entry member => List.mem_of_mem_filter (perm.subset member)
  have handles : (entries.map (parcelFor items)).map Prod.fst = entries.map LiveSub.handle := by
    rw [List.map_map]
    rfl
  have nodup : ((entries.map (parcelFor items)).map Prod.fst).Nodup := by
    rw [handles, (perm.map _).nodup_iff]
    exact own.sublist ((List.filter_sublist ..).map _)
  obtain ⟨new, pushed⟩ := foldl_push answer (entries.map (parcelFor items)) nodup
    (show b.calls.length ≤ (counted b items.length).calls.length from Nat.le_refl _)
  rw [batchDemand_free free, serve_nil] at isBatch
  rw [← isBatch] at pushed
  refine ⟨new, pushed.calls, fun entry member => ?_, fun handle unknown => ?_,
    pushed.published, pushed.delivered, ?_⟩
  · by_cases wanted : receives items entry = true
    · have listed : entry ∈ entries := perm.symm.subset (List.mem_filter.mpr ⟨member, wanted⟩)
      have took := pushed.accepted _ (List.mem_map_of_mem (f := parcelFor items) listed)
      rw [show (counted b items.length).calls = b.calls from rfl, List.drop_length,
        offeredTo_nil] at took
      exact took
    · have absent : entry.handle ∉ (entries.map (parcelFor items)).map Prod.fst := by
        rw [handles]
        intro listed
        obtain ⟨other, present, same⟩ := List.mem_map.mp listed
        rw [← List.inj_on_of_nodup_map own (live other present) member same] at wanted
        exact wanted (List.mem_filter.mp (perm.subset present)).2
      rw [pushed.others _ absent,
        bundle_of_not_receives (free _ member) (Bool.eq_false_iff.mpr wanted)]
      rfl
  · refine pushed.others handle fun listed => unknown ?_
    rw [handles] at listed
    obtain ⟨other, present, rfl⟩ := List.mem_map.mp listed
    exact List.mem_map_of_mem (live other present)
  · rw [pushed.dropped, sum_bundles free perm]
    rfl

end

/-- In every reachable state without queue groups in which each subscription has
its own channel, a batch and its items published one by one are accepted alike by
every handle and counted alike, in whatever order the pending map is emptied. -/
theorem batch_refines_one_by_one (history : DeliveryPolicy) (ops : List BrokerOp)
    (free : ∀ entry ∈ (ledgerOf ops).live, entry.group = none)
    (own : ((ledgerOf ops).live.map LiveSub.handle).Nodup)
    (answer : Answers) (sticky : Sticky answer) (order : PendingOrder)
    (items : List PublishItem) :
    let b := run history ops
    let env := channelPolicy answer b.calls.length
    let batch := b.publishBatch env order items
    let each := publishEach env b items
    (∀ handle, acceptedBy (newCalls b batch) handle = acceptedBy (newCalls b each) handle) ∧
      batch.metrics.messagesPublished = each.metrics.messagesPublished ∧
      batch.metrics.messagesDelivered = each.metrics.messagesDelivered ∧
      batch.metrics.messagesDropped = each.metrics.messagesDropped := by
  have h := run_refines history ops
  obtain ⟨new, batch⟩ := publishBatch_accepted h free own answer order items
  obtain ⟨new', each⟩ := publishEach_accepted h free own answer sticky items
  refine ⟨fun handle => ?_, batch.unique each own⟩
  rw [newCalls_of_append batch.calls, newCalls_of_append each.calls]
  exact batch.acceptedBy_eq each handle

def oneSlot : Answers := fun handle past _ =>
  if handle = 7 ∧ 0 < past.length then .channelFull else .delivered

theorem oneSlot_sticky : Sticky oneSlot := by
  intro handle past message more next refused
  unfold oneSlot at refused ⊢
  split_ifs at refused with full
  · rw [if_pos ⟨full.1, by rw [List.length_append]; omega⟩]
    exact nofun
  · exact absurd rfl refused

def twoListeners : List BrokerOp := [.subscribe 1 ordersNew none 7, .subscribe 2 ordersAny none 8]

set_option maxRecDepth 4000 in
theorem batch_refines_two_listeners :
    let b := run acceptAll twoListeners
    let env := channelPolicy oneSlot b.calls.length
    let items : List PublishItem := [loneItem, loneItem]
    acceptedBy (newCalls b (b.publishBatch env (IterOrder.stored _ _) items)) 7 =
        [loneItem.deliveryTo 1 1] ∧
      acceptedBy (newCalls b (publishEach env b items)) 7 = [loneItem.deliveryTo 1 1] := by
  have same := batch_refines_one_by_one acceptAll twoListeners (by decide) (by decide) oneSlot
    oneSlot_sticky (IterOrder.stored _ _) [loneItem, loneItem]
  refine ⟨?_, by decide⟩
  rw [same.1]
  decide

end ZetMQ.BatchRefinement
