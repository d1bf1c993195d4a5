import ZetMQ.SessionSteps

/-! What reaches a subscription that refuses nothing: all messages that match it, once
each and in order, or the turns of its group that choose it, whatever the others do.
What a broker does over several batches is what it would do over their
concatenation. -/
namespace ZetMQ.FullDelivery
open Utf8Text SubjectGrammar WildcardTrie KeyedTable Routing RoutingTable Delivery Registry Broker
open SubscriptionLedger RegistryRefinement DeliveryFrame BrokerRefinement RunRefinement
open DeliveryPlan LedgerDelivery BatchPlan BatchDelivery CallTargets SessionSteps

def Accepting (env : DeliveryPolicy) (l : Ledger) : Prop :=
  ∀ entry ∈ l.live, ∀ log message, env log entry.handle message = .delivered

def receipt (entry : LiveSub) (message : DeliveryMessage) : DeliverCall :=
  ⟨entry.handle, message, .delivered⟩

def receipts (items : List PublishItem) (entry : LiveSub) : List DeliverCall :=
  (bundle items entry).map (receipt entry)

theorem receipts_append (items more : List PublishItem) (entry : LiveSub) :
    receipts (items ++ more) entry = receipts items entry ++ receipts more entry := by
  simp only [receipts, bundle, List.filter_append, List.map_append]

variable {items : List PublishItem} {entry : LiveSub} {env : DeliveryPolicy} {b' : BrokerCore}

theorem id_of_mem_receipts {call : DeliverCall} (member : call ∈ receipts items entry) :
    call.message.subscriptionId = entry.id := by
  obtain ⟨message, inside, rfl⟩ := List.mem_map.mp member
  obtain ⟨item, -, rfl⟩ := List.mem_map.mp inside
  rfl

structure Reached (l : Ledger) (items : List PublishItem) (b b' : BrokerCore) : Prop where
  refines : Refines b' l
  calls : ∃ new, b'.calls = b.calls ++ new ∧
    (∀ entry ∈ l.live,
      new.filter (·.message.subscriptionId = entry.id) = receipts items entry) ∧
    ∀ call ∈ new, ∃ entry ∈ l.live, entry.id = call.message.subscriptionId

theorem settleUntil_accepting (accepting : ∀ log message, env log entry.handle message = .delivered)
    (log : List DeliverCall) (messages : List DeliveryMessage) :
    settleUntil env log (Parcel.offers (entry.handle, messages)) =
      messages.map (receipt entry) := by
  induction messages generalizing log with
  | nil => rfl
  | cons message messages ih =>
    rw [Parcel.offers] at ih ⊢
    simp only [List.map_cons, settleUntil, accepting, wasDelivered, decide_true, if_true, ih,
      receipt]

/-- A subscription that takes whatever it is offered. -/
def Accepts (env : DeliveryPolicy) (entry : LiveSub) : Prop :=
  ∀ log message, env log entry.handle message = .delivered

def callsFor (id : SubscriptionId) (log : List DeliverCall) : List DeliverCall :=
  log.filter (·.message.subscriptionId = id)

theorem callsFor_append (id : SubscriptionId) (first rest : List DeliverCall) :
    callsFor id (first ++ rest) = callsFor id first ++ callsFor id rest :=
  List.filter_append ..

def groupShare (live : List LiveSub) (groups : Groups) (items : List PublishItem)
    (entry : LiveSub) : List DeliverCall :=
  ((turns groups (batchDemand live items)).2.filter (·.2 = entry.id)).map fun turn =>
    receipt entry (turn.1.deliveryTo entry.id entry.conn)

def share (live : List LiveSub) (groups : Groups) (items : List PublishItem) (entry : LiveSub) :
    List DeliverCall :=
  if entry.group.isNone then receipts items entry else groupShare live groups items entry

theorem turns_append (groups : Groups) (first rest : List (Message × QueueGroupKey)) :
    turns groups (first ++ rest) =
      ((turns (turns groups first).1 rest).1,
        (turns groups first).2 ++ (turns (turns groups first).1 rest).2) := by
  induction first generalizing groups with
  | nil => rfl
  | cons turn first ih =>
    obtain ⟨message, key⟩ := turn
    simp only [List.cons_append, turns, ih, List.append_assoc]

theorem batchDemand_append (live : List LiveSub) (items more : List PublishItem) :
    batchDemand live (items ++ more) = batchDemand live items ++ batchDemand live more :=
  List.flatMap_append ..

theorem share_append (live : List LiveSub) (groups : Groups) (items more : List PublishItem)
    (entry : LiveSub) :
    share live groups (items ++ more) entry = share live groups items entry ++
      share live (turns groups (batchDemand live items)).1 more entry := by
  unfold share
  split
  · exact receipts_append items more entry
  · simp only [groupShare, batchDemand_append, turns_append, List.filter_append, List.map_append]

theorem settle_own (accepts : Accepts env entry) (log : List DeliverCall) {offers : List Offer}
    (own : ∀ o ∈ offers, o.2.subscriptionId = entry.id → o.1 = entry.handle) :
    callsFor entry.id (settle env log offers) =
      (offers.filter (·.2.subscriptionId = entry.id)).map fun o => receipt entry o.2 := by
  induction offers generalizing log with
  | nil => rfl
  | cons first rest ih =>
    obtain ⟨handle, message⟩ := first
    have later := ih (log ++ [⟨handle, message, env log handle message⟩])
      fun o member => own o (List.mem_cons_of_mem _ member)
    rw [callsFor] at later ⊢
    by_cases mine : message.subscriptionId = entry.id
    · have handled : handle = entry.handle := own (handle, message) (List.mem_cons_self ..) mine
      rw [settle, List.filter_cons_of_pos (by simpa using mine), later,
        List.filter_cons_of_pos (by simpa using mine), List.map_cons, handled, accepts, receipt]
    · rw [settle, List.filter_cons_of_neg (by simpa using mine), later,
        List.filter_cons_of_neg (by simpa using mine)]

section
variable {b : BrokerCore} {l : Ledger} (h : Refines b l)
include h

theorem offersTo_own (member : entry ∈ l.live) (chosen : List (Message × SubscriptionId)) :
    (chosen.flatMap fun turn => offersTo b.registry turn.1 turn.2).filter
        (·.2.subscriptionId = entry.id) =
      (chosen.filter (·.2 = entry.id)).map fun turn => copyFor turn.1 entry := by
  induction chosen with
  | nil => rfl
  | cons turn chosen ih =>
    rw [List.flatMap_cons, List.filter_append, ih]
    by_cases mine : turn.2 = entry.id
    · rw [List.filter_cons_of_pos (by simpa using mine), mine, offersTo_live h turn.1 member,
        List.filter_cons_of_pos (by simp [copyFor, Message.deliveryTo])]
      rfl
    · have none : (offersTo b.registry turn.1 turn.2).filter
          (·.2.subscriptionId = entry.id) = [] := by
        unfold offersTo
        split
        · rfl
        · exact List.filter_cons_of_neg (by
            rw [decide_eq_true_iff]
            exact mine)
      rw [none, List.filter_cons_of_neg (by simpa using mine), List.nil_append]

theorem groupShare_free (member : entry ∈ l.live) (free : entry.group = none)
    (items : List PublishItem) : groupShare l.live b.queueGroups items entry = [] := by
  obtain ⟨picked, agree, chosen⟩ := @turns_live l b.queueGroups (batchDemand l.live items) h.members
    (batchDemand_wanted l.live items)
  rw [groupShare, chosen, List.map_eq_nil_iff, List.filter_eq_nil_iff]
  clear chosen
  generalize batchDemand l.live items = demand at agree
  induction agree with
  | nil => exact nofun
  | @cons turn other demand picked here _ ih =>
    intro pair listed
    rcases List.mem_cons.mp listed with rfl | later
    · rw [decide_eq_true_iff]
      intro same
      have grouped := here.2
      rw [l.eq_of_id here.1 member same, LiveSub.groupKey, free] at grouped
      cases grouped
    · exact ih pair later

theorem serve_own (env : DeliveryPolicy) (items : List PublishItem) :
    ∃ new, (serve env b (batchDemand l.live items)).calls = b.calls ++ new ∧
      ∀ entry ∈ l.live, Accepts env entry →
        callsFor entry.id new = groupShare l.live b.queueGroups items entry := by
  refine ⟨_, rfl, fun entry member accepts => ?_⟩
  have own := offersTo_own h member (turns b.queueGroups (batchDemand l.live items)).2
  have copies := fun (o : Offer) (listed : o ∈ ((turns b.queueGroups
      (batchDemand l.live items)).2.flatMap fun turn => offersTo b.registry turn.1 turn.2))
      (mine : o.2.subscriptionId = entry.id) =>
    own ▸ List.mem_filter.mpr ⟨listed, decide_eq_true mine⟩
  rw [settle_own accepts _ fun o listed mine => by
    obtain ⟨turn, -, rfl⟩ := List.mem_map.mp (copies o listed mine)
    rfl, own, List.map_map]
  rfl

end

theorem settleUntil_other (env : DeliveryPolicy) (log : List DeliverCall) (items : List PublishItem)
    {id : SubscriptionId} (other : entry.id ≠ id) :
    callsFor id (settleUntil env log (Parcel.offers (parcelFor items entry))) = [] := by
  refine List.filter_eq_nil_iff.mpr fun call member => ?_
  have listed := (settleUntil_initial env log (Parcel.offers (parcelFor items entry))).subset
    (List.mem_map_of_mem (f := offered) member)
  obtain ⟨message, bundled, isOffer⟩ := List.mem_map.mp listed
  obtain ⟨item, -, rfl⟩ := List.mem_map.mp bundled
  have addressed : entry.id = call.message.subscriptionId := congrArg (·.2.subscriptionId) isOffer
  rwa [decide_eq_true_iff, ← addressed]

theorem foldl_push_own (env : DeliveryPolicy) {l : Ledger} {entries : List LiveSub}
    (live : ∀ entry ∈ entries, entry ∈ l.live) (nodup : entries.Nodup) (items : List PublishItem)
    (b : BrokerCore) :
    let b' := (entries.map (parcelFor items)).foldl (push env) b
    b'.queueGroups = b.queueGroups ∧
      b'.metrics.messagesPublished = b.metrics.messagesPublished ∧
      ∃ new, b'.calls = b.calls ++ new ∧ ∀ entry ∈ l.live, Accepts env entry →
        (entry ∈ entries → callsFor entry.id new = receipts items entry) ∧
        (entry ∉ entries → callsFor entry.id new = []) := by
  induction entries generalizing b with
  | nil => exact ⟨rfl, rfl, [], (List.append_nil _).symm, fun _ _ _ => ⟨nofun, fun _ => rfl⟩⟩
  | cons first entries ih =>
    obtain ⟨absent, nodup⟩ := List.nodup_cons.mp nodup
    obtain ⟨groups, published, new, calls, own⟩ := ih
      (fun other member => live other (List.mem_cons_of_mem _ member)) nodup
      (push env b (parcelFor items first))
    refine ⟨groups, published,
      settleUntil env b.calls (Parcel.offers (parcelFor items first)) ++ new, ?_,
      fun entry member accepts => ?_⟩
    · rw [List.map_cons, List.foldl_cons, calls, push, List.append_assoc]
    · obtain ⟨mine, none⟩ := own entry member accepts
      rw [callsFor_append]
      by_cases here : first = entry
      · rw [here] at absent ⊢
        have all : callsFor entry.id (receipts items entry) = receipts items entry :=
          List.filter_eq_self.mpr fun call listed => by simpa using id_of_mem_receipts listed
        rw [none absent, List.append_nil, parcelFor, settleUntil_accepting accepts, ← receipts, all]
        exact ⟨fun _ => rfl, fun outside => absurd (List.mem_cons_self ..) outside⟩
      · have other : first.id ≠ entry.id := fun same =>
          here (l.eq_of_id (live first (List.mem_cons_self ..)) member same)
        rw [settleUntil_other env _ items other, List.nil_append]
        refine ⟨fun inside => mine ?_, fun outside => none (mt (List.mem_cons_of_mem _) outside)⟩
        exact (List.mem_cons.mp inside).resolve_left (Ne.symm here)

/-- Between two brokers the live subscriptions stay the same and nobody else is
called. The groups have taken the turns that the items demand, and each subscription
that accepts what it is offered has got its share. -/
structure Shared (env : DeliveryPolicy) (l : Ledger) (items : List PublishItem)
    (b b' : BrokerCore) : Prop where
  refines : Refines b' l
  groups : b'.queueGroups = (turns b.queueGroups (batchDemand l.live items)).1
  calls : ∃ new, b'.calls = b.calls ++ new ∧
    (∀ entry ∈ l.live, Accepts env entry →
      callsFor entry.id new = share l.live b.queueGroups items entry) ∧
    ∀ call ∈ new, ∃ entry ∈ l.live, entry.id = call.message.subscriptionId

theorem Shared.of_quiet {l : Ledger} {b : BrokerCore} (h : Refines b l) (quiet : Quiet b b')
    (groups : b'.queueGroups = b.queueGroups) : Shared env l [] b b' := by
  refine ⟨h.frame quiet.same, groups, [], by rw [quiet.calls, List.append_nil], ?_, nofun⟩
  intro entry _ _
  rw [share]
  split <;> rfl

theorem Shared.trans {l : Ledger} {more : List PublishItem} {b b'' : BrokerCore}
    (first : Shared env l items b b') (second : Shared env l more b' b'') :
    Shared env l (items ++ more) b b'' := by
  obtain ⟨new, calls, own, inside⟩ := first.calls
  obtain ⟨new', calls', own', inside'⟩ := second.calls
  refine ⟨second.refines, ?_, new ++ new', by rw [calls', calls, List.append_assoc], ?_, ?_⟩
  · rw [second.groups, first.groups, batchDemand_append, turns_append]
  · intro entry member accepts
    rw [callsFor_append, own entry member accepts, own' entry member accepts, first.groups,
      share_append]
  · intro call member
    rcases List.mem_append.mp member with old | late
    · exact inside call old
    · exact inside' call late

theorem publishBatch_shared (env : DeliveryPolicy) {l : Ledger} {b : BrokerCore} (h : Refines b l)
    (order : PendingOrder) (items : List PublishItem) :
    Shared env l items b (b.publishBatch env order items) ∧
      (b.publishBatch env order items).metrics.messagesPublished =
        b.metrics.messagesPublished + items.length := by
  obtain ⟨entries, perm, isBatch⟩ := publishBatch_live h env order items
  have live : ∀ entry ∈ entries, entry ∈ l.live :=
    fun entry listed => List.mem_of_mem_filter (perm.subset listed)
  have counts : Refines (counted b items.length) l :=
    h.frame (SameSubscriptions.traffic.incPublishedBy b items.length)
  obtain ⟨served, groupCalls, ownTurns⟩ := serve_own counts env items
  obtain ⟨groups, published, pushed, parcelCalls, ownParcels⟩ := foldl_push_own env live
    (perm.symm.nodup ((live_nodup l).filter _)) items
    (serve env (counted b items.length) (batchDemand l.live items))
  rw [← isBatch] at groups published parcelCalls
  obtain ⟨new, grown, sent⟩ := publishBatch_sent h env order items
  have isNew : new = served ++ pushed := by
    refine List.append_cancel_left (grown.symm.trans ?_)
    rw [parcelCalls, groupCalls, List.append_assoc]
    rfl
  have framed := h.frame (SameSubscriptions.traffic.publishBatch env order b items)
  refine ⟨⟨framed, groups, new, grown, ?_, ?_⟩, published⟩
  · intro entry member accepts
    obtain ⟨inside, outside⟩ := ownParcels entry member accepts
    rw [isNew, callsFor_append, ownTurns entry member accepts, share]
    split
    · rename_i isFree
      have free := Option.isNone_iff_eq_none.mp isFree
      have none : groupShare l.live (counted b items.length).queueGroups items entry = [] :=
        groupShare_free counts member free items
      rw [none, List.nil_append]
      by_cases wanted : receives items entry = true
      · exact inside (perm.symm.subset (List.mem_filter.mpr ⟨member, wanted⟩))
      · rw [outside fun listed => wanted (List.mem_filter.mp (perm.subset listed)).2, receipts,
          bundle_of_not_receives free (Bool.not_eq_true _ |>.mp wanted), List.map_nil]
    · rename_i grouped
      have unlisted : entry ∉ entries := fun listed => by
        have wanted := (List.mem_filter.mp (perm.subset listed)).2
        rw [receives, Bool.and_eq_true] at wanted
        exact grouped wanted.1
      rw [outside unlisted, List.append_nil]
      rfl
  · intro call member
    obtain ⟨item, -, entry, listed, -, isOffer⟩ := sent call member
    exact ⟨entry, listed, (congrArg (·.2.subscriptionId) isOffer).symm⟩

theorem Shared.reached {l : Ledger} (accepting : Accepting env l)
    (free : ∀ entry ∈ l.live, entry.group = none) {b : BrokerCore}
    (shared : Shared env l items b b') : Reached l items b b' := by
  obtain ⟨new, calls, own, inside⟩ := shared.calls
  refine ⟨shared.refines, new, calls, fun entry member => ?_, inside⟩
  have isShare := own entry member (accepting entry member)
  rw [share, if_pos (Option.isNone_iff_eq_none.mpr (free entry member))] at isShare
  exact isShare

end ZetMQ.FullDelivery
