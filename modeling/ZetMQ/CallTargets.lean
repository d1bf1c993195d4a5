import ZetMQ.BatchDelivery
import ZetMQ.QueueGroups

/-! Whom the broker calls. Every `deliver` call of every operation goes to a
subscription that is live at that moment, carries its id and its owner, and holds
a message whose subject the subscription's pattern accepts. -/
namespace ZetMQ.CallTargets
open Utf8Text SubjectGrammar WildcardTrie KeyedTable Routing RoutingTable Delivery Registry Broker
open SubscriptionLedger RegistryRefinement DeliveryFrame BrokerRefinement RunRefinement
open DeliveryPlan LedgerDelivery BatchPlan BatchDelivery QueueGroups

/-- The call hands `message` to a live subscription that wants it. -/
def Sent (live : List LiveSub) (message : Message) (call : DeliverCall) : Prop :=
  ∃ entry ∈ live, entry.pattern.matches message.subject = true ∧
    offered call = copyFor message entry

theorem sent_of_offers {live : List LiveSub} {env : DeliveryPolicy} {log : List DeliverCall}
    {offers : List Offer} {messages : List Message}
    (wanted : ∀ o ∈ offers, ∃ message ∈ messages, ∃ entry ∈ live,
      entry.pattern.matches message.subject = true ∧ o = copyFor message entry) :
    ∀ call ∈ settle env log offers, ∃ message ∈ messages, Sent live message call := by
  intro call member
  have listed : offered call ∈ offers := by
    rw [← offered_settle env log offers]
    exact List.mem_map_of_mem member
  exact wanted _ listed

theorem strSlots_wanted {input : Str} {subject : Subject}
    (parsed : Subject.parse input = .ok subject) {live : List LiveSub} {entry : LiveSub}
    (member : entry ∈ entriesAt live (strSlots input subject)) :
    entry ∈ live ∧ entry.pattern.matches subject = true := by
  obtain ⟨listed, place⟩ := mem_entriesAt.mp member
  refine ⟨listed, (slotOf_mem_slotsFor _ _).mp ?_⟩
  rcases List.mem_cons.mp place with here | wild
  · have spelled : entry.pattern.raw = input := by
      unfold slotOf at here
      split_ifs at here
      exact Slot.exact.inj here
    rw [here, slotsFor, Subject.parse_raw parsed, ← spelled, entry.pattern.trimmed]
    exact List.mem_cons_self ..
  · exact List.mem_cons_of_mem _ wild

theorem subscribe_calls (b : BrokerCore) (conn : ConnectionId) (pattern : SubjectPattern)
    (group : Option QueueGroupName) (handle : DeliveryHandle) :
    (b.subscribe conn pattern group handle).1.calls = b.calls := by
  obtain ⟨groups, keys, next, key, after⟩ := subscribe_eq b conn pattern group handle
  rw [after]

theorem unsubscribe_calls (b : BrokerCore) (conn : ConnectionId) (id : SubscriptionId) :
    (b.unsubscribe conn id).calls = b.calls := by
  unfold BrokerCore.unsubscribe
  split <;> rfl

theorem removeConnection_calls (b : BrokerCore) (conn : ConnectionId) :
    (b.removeConnection conn).calls = b.calls := by
  have left := foldl_leaveGroup ((b.registry.removeAllForConnection conn).2.map (·.id))
    (b.registry.removeAllForConnection conn).2
    { b with registry := (b.registry.removeAllForConnection conn).1 }
  have calls := congrArg BrokerCore.calls left.rest
  exact calls

theorem foldl_push_calls (env : DeliveryPolicy) (parcels : List Parcel) (b : BrokerCore) :
    ∃ new, (parcels.foldl (push env) b).calls = b.calls ++ new ∧
      ∀ call ∈ new, ∃ parcel ∈ parcels, offered call ∈ Parcel.offers parcel := by
  induction parcels generalizing b with
  | nil => exact ⟨[], by simp, by simp⟩
  | cons parcel parcels ih =>
    obtain ⟨new, calls, inside⟩ := ih (push env b parcel)
    refine ⟨settleUntil env b.calls (Parcel.offers parcel) ++ new, ?_, ?_⟩
    · rw [List.foldl_cons, calls, push, List.append_assoc]
    · intro call member
      rcases List.mem_append.mp member with here | later
      · exact ⟨parcel, List.mem_cons_self .., (settleUntil_initial env b.calls _).subset
          (List.mem_map_of_mem here)⟩
      · obtain ⟨other, listed, found⟩ := inside call later
        exact ⟨other, List.mem_cons_of_mem _ listed, found⟩

section
variable {b : BrokerCore} {l : Ledger} (h : Refines b l) (env : DeliveryPolicy)
include h

theorem serve_sent (demand : List (Message × QueueGroupKey))
    (wanted : ∀ turn ∈ demand, ∃ entry ∈ l.live, entry.groupKey = some turn.2 ∧
      entry.pattern.matches turn.1.subject = true) :
    ∃ new, (serve env b demand).calls = b.calls ++ new ∧
      ∀ call ∈ new, ∃ message ∈ demand.map Prod.fst, Sent l.live message call := by
  obtain ⟨groups, picked, agree, served⟩ := serve_live h env demand (by
    intro turn member
    obtain ⟨entry, listed, grouped, -⟩ := wanted turn member
    exact List.ne_nil_of_mem (mem_memberIds.mpr ⟨entry, listed, rfl, grouped⟩))
  refine ⟨_, by rw [served]; rfl, sent_of_offers ?_⟩
  clear served
  induction agree with
  | nil => simp
  | @cons turn entry demand picked here _ ih =>
    intro o member
    rcases List.mem_cons.mp member with rfl | later
    · obtain ⟨other, -, grouped, accepted⟩ := wanted turn (List.mem_cons_self ..)
      refine ⟨turn.1, List.mem_cons_self .., entry, here.1, ?_, rfl⟩
      rwa [pattern_of_groupKey here.2 grouped]
    · obtain ⟨message, listed, rest⟩ :=
        ih (fun turn member => wanted turn (List.mem_cons_of_mem _ member)) o later
      exact ⟨message, List.mem_cons_of_mem _ listed, rest⟩

theorem deliverMatches_sent (message : Message) {entries : List LiveSub}
    (wanted : ∀ entry ∈ entries, entry ∈ l.live ∧ entry.pattern.matches message.subject = true) :
    ∃ new, (b.deliverMatches env message (entries.map LiveSub.id)).calls = b.calls ++ new ∧
      ∀ call ∈ new, Sent l.live message call := by
  obtain ⟨served, calls, sent⟩ := serve_sent h env
    (((entries.filterMap LiveSub.groupKey).destutter (· ≠ ·)).map (message, ·)) (by
      intro turn member
      obtain ⟨key, listed, rfl⟩ := List.mem_map.mp member
      rw [AdjacentRuns.mem_destutter_iff] at listed
      obtain ⟨entry, present, grouped⟩ := List.mem_filterMap.mp listed
      exact ⟨entry, (wanted entry present).1, grouped, (wanted entry present).2⟩)
  rw [deliverMatches_live h env message fun entry member => (wanted entry member).1]
  refine ⟨served ++ settle env (b.calls ++ served)
    ((entries.filter (·.group.isNone)).map (copyFor message)), ?_, ?_⟩
  · rw [offer, calls, List.append_assoc]
  · intro call member
    rcases List.mem_append.mp member with group | fanout
    · obtain ⟨other, listed, here⟩ := sent call group
      obtain ⟨turn, present, rfl⟩ := List.mem_map.mp listed
      obtain ⟨key, -, rfl⟩ := List.mem_map.mp present
      exact here
    · have copies : ∀ o ∈ (entries.filter (·.group.isNone)).map (copyFor message),
          ∃ other ∈ [message], ∃ entry ∈ l.live,
            entry.pattern.matches other.subject = true ∧ o = copyFor other entry := by
        intro o listed
        obtain ⟨entry, present, rfl⟩ := List.mem_map.mp listed
        have present := List.mem_of_mem_filter present
        exact ⟨message, by simp, entry, (wanted entry present).1, (wanted entry present).2, rfl⟩
      obtain ⟨other, listed, here⟩ := sent_of_offers copies call fanout
      rwa [List.mem_singleton.mp listed] at here

theorem publish_sent (message : Message) :
    ∃ new, (b.publish env message).calls = b.calls ++ new ∧
      ∀ call ∈ new, Sent l.live message call := by
  have counts : Refines (counted b 1) l := h.frame (SameSubscriptions.traffic.incPublishedBy b 1)
  have sent := deliverMatches_sent counts env message
    fun entry (member : entry ∈ matched l.live message.subject) => mem_matched.mp member
  rw [← matchSubject_ids counts] at sent
  exact sent

theorem publishWithStr_sent (subject : Str) (payload : Bytes) (replyTo : Option Subject)
    (headers : Option HeaderMap) :
    ∃ new, (b.publishWithStr env subject payload replyTo headers).calls = b.calls ++ new ∧
      ∀ call ∈ new, ∃ parsed, Subject.parse subject = .ok parsed ∧
        Sent l.live ⟨0, parsed, payload, headers, replyTo, 0⟩ call := by
  obtain ⟨b', same, -, calls, -, sending⟩ :=
    publishWithStr_live h env subject payload replyTo headers
  rw [sending, ← calls]
  split
  · exact ⟨[], (List.append_nil _).symm, by simp⟩
  · rename_i parsed ok
    obtain ⟨new, grown, sent⟩ := deliverMatches_sent (h.frame same) env
      ⟨0, parsed, payload, headers, replyTo, 0⟩ fun entry member => strSlots_wanted ok member
    exact ⟨new, grown, fun call member => ⟨parsed, ok, sent call member⟩⟩

theorem publishBatch_sent (order : PendingOrder) (items : List PublishItem) :
    ∃ new, (b.publishBatch env order items).calls = b.calls ++ new ∧
      ∀ call ∈ new, ∃ item ∈ items, Sent l.live item.toMessage call := by
  have counts : Refines (counted b items.length) l :=
    h.frame (SameSubscriptions.traffic.incPublishedBy b items.length)
  obtain ⟨entries, perm, batch⟩ := publishBatch_live h env order items
  obtain ⟨served, groupCalls, groupSent⟩ := serve_sent counts env (batchDemand l.live items) (by
    intro turn member
    obtain ⟨item, listed, inside⟩ := List.mem_flatMap.mp member
    obtain ⟨key, turned, rfl⟩ := List.mem_map.mp inside
    obtain ⟨entry, present, grouped⟩ := List.mem_filterMap.mp turned
    exact ⟨entry, (mem_matched.mp present).1, grouped, (mem_matched.mp present).2⟩)
  obtain ⟨pushed, parcelCalls, inside⟩ := foldl_push_calls env (entries.map (parcelFor items))
    (serve env (counted b items.length) (batchDemand l.live items))
  refine ⟨served ++ pushed, ?_, ?_⟩
  · rw [batch, parcelCalls, groupCalls, List.append_assoc]
    rfl
  · intro call member
    rcases List.mem_append.mp member with group | parcel
    · obtain ⟨message, listed, sent⟩ := groupSent call group
      obtain ⟨turn, present, rfl⟩ := List.mem_map.mp listed
      obtain ⟨item, ofBatch, turned⟩ := List.mem_flatMap.mp present
      obtain ⟨key, -, rfl⟩ := List.mem_map.mp turned
      exact ⟨item, ofBatch, sent⟩
    · obtain ⟨parcel, listed, found⟩ := inside call parcel
      obtain ⟨entry, present, rfl⟩ := List.mem_map.mp listed
      obtain ⟨message, bundled, isOffer⟩ := List.mem_map.mp found
      obtain ⟨item, filtered, rfl⟩ := List.mem_map.mp bundled
      obtain ⟨ofBatch, accepted⟩ := List.mem_filter.mp filtered
      exact ⟨item, ofBatch, entry, List.mem_of_mem_filter (perm.subset present), accepted,
        isOffer.symm⟩

/-- One step of the broker only adds calls to subscriptions that are live then. -/
theorem step_sent (op : BrokerOp) :
    ∃ new, (op.apply env b).calls = b.calls ++ new ∧
      ∀ call ∈ new, ∃ message, Sent l.live message call := by
  have silent {b' : BrokerCore} (same : b'.calls = b.calls) :
      ∃ new, b'.calls = b.calls ++ new ∧ ∀ call ∈ new, ∃ message, Sent l.live message call :=
    ⟨[], by rw [same, List.append_nil], by simp⟩
  cases op with
  | subscribe conn pattern group handle => exact silent (subscribe_calls b ..)
  | unsubscribe conn id => exact silent (unsubscribe_calls b conn id)
  | removeConnection conn => exact silent (removeConnection_calls b conn)
  | publish message =>
    obtain ⟨new, calls, sent⟩ := publish_sent h env message
    exact ⟨new, calls, fun call member => ⟨message, sent call member⟩⟩
  | publishWithStr subject payload replyTo headers =>
    obtain ⟨new, calls, sent⟩ := publishWithStr_sent h env subject payload replyTo headers
    refine ⟨new, calls, fun call member => ?_⟩
    obtain ⟨parsed, -, here⟩ := sent call member
    exact ⟨_, here⟩
  | publishBatch order items =>
    obtain ⟨new, calls, sent⟩ := publishBatch_sent h env order items
    refine ⟨new, calls, fun call member => ?_⟩
    obtain ⟨item, -, here⟩ := sent call member
    exact ⟨_, here⟩
  | parseSubject input => exact silent (parseSubject_traffic b input).2

end

end ZetMQ.CallTargets
