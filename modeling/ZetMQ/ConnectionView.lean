import ZetMQ.BatchDelivery

/-! What one connection sees of the traffic. Two brokers agree for a connection if
they have made the same calls to it and the cursors of the groups on some chosen
patterns stand alike; deliveries that differ elsewhere keep the agreement. -/
namespace ZetMQ.ConnectionView
open Utf8Text SubjectGrammar WildcardTrie KeyedTable Routing RoutingTable Delivery Registry Broker
open SubscriptionLedger RegistryRefinement DeliveryFrame BrokerRefinement RunRefinement
open DeliveryPlan LedgerDelivery BatchPlan BatchDelivery

def callsOf (conn : ConnectionId) (log : List DeliverCall) : List DeliverCall :=
  log.filter (·.message.connectionId = conn)

/-- Every connection has channels of its own: an answer depends on the earlier
calls to the same connection only. -/
def PerConnection (env : DeliveryPolicy) : Prop :=
  ∀ log handle message,
    env log handle message = env (callsOf message.connectionId log) handle message

def offersOf (conn : ConnectionId) (offers : List Offer) : List Offer :=
  offers.filter (·.2.connectionId = conn)

theorem callsOf_append (conn : ConnectionId) (first rest : List DeliverCall) :
    callsOf conn (first ++ rest) = callsOf conn first ++ callsOf conn rest :=
  List.filter_append ..

theorem settle_view {env : DeliveryPolicy} (perConn : PerConnection env) (conn : ConnectionId)
    (log : List DeliverCall) (offers : List Offer) :
    callsOf conn (settle env log offers) =
      settle env (callsOf conn log) (offersOf conn offers) := by
  induction offers generalizing log with
  | nil => rfl
  | cons first rest ih =>
    obtain ⟨handle, message⟩ := first
    rw [settle, callsOf, List.filter_cons, ← callsOf, ih, callsOf_append]
    by_cases mine : message.connectionId = conn
    · have answer := perConn log handle message
      rw [mine, callsOf] at answer
      simp [offersOf, callsOf, settle, mine, ← answer]
    · simp [offersOf, callsOf, mine]

variable {offers : List Offer} {key : QueueGroupKey}

theorem settleUntil_view {env : DeliveryPolicy} (perConn : PerConnection env) (conn : ConnectionId)
    (log : List DeliverCall) (mine : ∀ o ∈ offers, o.2.connectionId = conn) :
    callsOf conn (settleUntil env log offers) = settleUntil env (callsOf conn log) offers := by
  induction offers generalizing log with
  | nil => rfl
  | cons first rest ih =>
    obtain ⟨handle, message⟩ := first
    have here : message.connectionId = conn := mine _ (List.mem_cons_self ..)
    have answer := perConn log handle message
    rw [here] at answer
    have later := @ih (log ++ [⟨handle, message, env log handle message⟩])
      fun o member => mine o (List.mem_cons_of_mem _ member)
    rw [callsOf_append] at later
    rw [settleUntil, settleUntil, callsOf, List.filter_cons_of_pos (by simpa using here), ← callsOf,
      ← answer]
    congr 1
    split_ifs
    · rw [later]
      simp [callsOf, here]
    · rfl

theorem settleUntil_view_other (env : DeliveryPolicy) {conn : ConnectionId} (log : List DeliverCall)
    (others : ∀ o ∈ offers, o.2.connectionId ≠ conn) :
    callsOf conn (settleUntil env log offers) = [] := by
  refine List.filter_eq_nil_iff.mpr fun call member => ?_
  have listed := (settleUntil_initial env log offers).subset
    (List.mem_map_of_mem (f := offered) member)
  have other : call.message.connectionId ≠ conn := others _ listed
  simpa using other

/-- Two brokers that look the same to `conn`, as far as the groups on the
patterns in `focus` decide what it gets. -/
structure Agree (focus : List Str) (conn : ConnectionId) (s s' : BrokerCore) : Prop where
  groups : ∀ key, key.1 ∈ focus → s'.queueGroups.lookup key = s.queueGroups.lookup key
  calls : callsOf conn s'.calls = callsOf conn s.calls

namespace Agree
variable {focus : List Str} {conn : ConnectionId} {s s' s'' : BrokerCore}

theorem refl (s : BrokerCore) : Agree focus conn s s := ⟨fun _ _ => rfl, rfl⟩

theorem symm (h : Agree focus conn s s') : Agree focus conn s' s :=
  ⟨fun key inside => (h.groups key inside).symm, h.calls.symm⟩

theorem trans (h : Agree focus conn s s') (h' : Agree focus conn s' s'') :
    Agree focus conn s s'' :=
  ⟨fun key inside => (h'.groups key inside).trans (h.groups key inside), h'.calls.trans h.calls⟩

theorem offer {env : DeliveryPolicy} (perConn : PerConnection env) (h : Agree focus conn s s')
    {offers' : List Offer} (same : offersOf conn offers' = offersOf conn offers) :
    Agree focus conn (offer env s offers) (DeliveryPlan.offer env s' offers') := by
  refine ⟨h.groups, ?_⟩
  rw [DeliveryPlan.offer, DeliveryPlan.offer, callsOf_append, callsOf_append,
    settle_view perConn, settle_view perConn, h.calls, same]

end Agree

theorem rotate_other (groups : Groups) {other : QueueGroupKey} (different : other ≠ key) :
    (rotate groups key).1.lookup other = groups.lookup other := by
  unfold rotate
  cases groups.lookup key with
  | none => rfl
  | some group =>
    dsimp only
    split_ifs
    · rfl
    · rw [lookup_insert_ite, if_neg different]

theorem rotate_congr {groups groups' : Groups} (same : groups'.lookup key = groups.lookup key) :
    (rotate groups' key).2 = (rotate groups key).2 ∧
      (rotate groups' key).1.lookup key = (rotate groups key).1.lookup key := by
  unfold rotate
  rw [same]
  cases found : groups.lookup key with
  | none => exact ⟨rfl, same⟩
  | some group =>
    dsimp only
    split_ifs
    · exact ⟨rfl, same⟩
    · simp only [lookup_insert_ite, if_true, and_self]

theorem rotate_mem {groups : Groups} {id : SubscriptionId}
    (chosen : (rotate groups key).2 = some id) : id ∈ membersOf groups key := by
  unfold rotate at chosen
  cases found : groups.lookup key with
  | none => simp [found] at chosen
  | some group =>
    rw [membersOf, found]
    simp only [found] at chosen
    split_ifs at chosen
    exact List.mem_of_getElem? chosen

theorem serve_single (env : DeliveryPolicy) (s : BrokerCore) (message : Message)
    (key : QueueGroupKey) :
    serve env s [(message, key)] =
      offer env { s with queueGroups := (rotate s.queueGroups key).1 }
        ((rotate s.queueGroups key).2.toList.flatMap (offersTo s.registry message)) := by
  simp only [serve, turns, List.append_nil, List.flatMap_map]

theorem chosen_live {s : BrokerCore} {l : Ledger} (h : Refines s l) {id : SubscriptionId}
    (chosen : (rotate s.queueGroups key).2 = some id) :
    ∃ entry ∈ l.live, entry.id = id ∧ entry.groupKey = some key := by
  have member : id ∈ groupMembers s key := rotate_mem chosen
  rwa [h.members, mem_memberIds] at member

/-- The groups that a connection takes part in are in focus. -/
def InFocus (focus : List Str) (conn : ConnectionId) (l : Ledger) : Prop :=
  ∀ entry ∈ l.live, entry.conn = conn → entry.group.isSome → entry.pattern.raw ∈ focus

theorem groupKey_fst {entry : LiveSub} (grouped : entry.groupKey = some key) :
    entry.group.isSome ∧ key.1 = entry.pattern.raw := by
  rw [LiveSub.groupKey, Option.map_eq_some_iff] at grouped
  obtain ⟨name, found, rfl⟩ := grouped
  exact ⟨by rw [found]; rfl, rfl⟩

section
variable {env : DeliveryPolicy} (perConn : PerConnection env) {focus : List Str}
  {conn : ConnectionId} {s s' : BrokerCore} {l l' : Ledger} (h : Refines s l) (h' : Refines s' l')
include perConn h

theorem serve_outside (seen : InFocus focus conn l) (message : Message) (outside : key.1 ∉ focus) :
    Agree focus conn s (serve env s [(message, key)]) := by
  rw [serve_single]
  have moved : Agree focus conn s
      { s with queueGroups := (rotate s.queueGroups key).1 } := by
    refine ⟨fun other inside => rotate_other _ ?_, rfl⟩
    rintro rfl
    exact outside inside
  refine moved.trans ?_
  have unseen : offersOf conn ((rotate s.queueGroups key).2.toList.flatMap
      (offersTo s.registry message)) = offersOf conn [] := by
    cases chosen : (rotate s.queueGroups key).2 with
    | none => rfl
    | some id =>
      obtain ⟨entry, member, rfl, grouped⟩ := chosen_live h chosen
      have other : entry.conn ≠ conn := by
        intro mine
        obtain ⟨inGroup, same⟩ := groupKey_fst grouped
        exact outside (same ▸ seen entry member mine inGroup)
      rw [Option.toList_some, List.flatMap_singleton, offersTo_live h message member]
      simpa [offersOf, copyFor, Message.deliveryTo] using other
  have same : Agree focus conn { s with queueGroups := (rotate s.queueGroups key).1 }
      { s with queueGroups := (rotate s.queueGroups key).1 } := .refl _
  have quiet := same.offer perConn unseen
  rwa [offer_nil] at quiet

include h' in
theorem serve_inside (sub : ∀ entry ∈ l'.live, entry ∈ l.live) (agree : Agree focus conn s s')
    (message : Message) (inside : key.1 ∈ focus) :
    Agree focus conn (serve env s [(message, key)]) (serve env s' [(message, key)]) := by
  obtain ⟨sameChoice, sameState⟩ := rotate_congr (agree.groups key inside)
  rw [serve_single, serve_single, sameChoice]
  have moved : Agree focus conn { s with queueGroups := (rotate s.queueGroups key).1 }
      { s' with queueGroups := (rotate s'.queueGroups key).1 } := by
    refine ⟨fun other inFocus => ?_, agree.calls⟩
    by_cases same : other = key
    · rw [same]
      exact sameState
    · exact (rotate_other _ same).trans
        ((agree.groups other inFocus).trans (rotate_other _ same).symm)
  refine moved.offer perConn ?_
  cases chosen : (rotate s.queueGroups key).2 with
  | none => rfl
  | some id =>
    obtain ⟨entry, member, rfl, -⟩ := chosen_live h' (sameChoice.trans chosen)
    rw [Option.toList_some, List.flatMap_singleton, List.flatMap_singleton,
      offersTo_live h message (sub entry member), offersTo_live h' message member]

include h' in
theorem serve_focus (sub : ∀ entry ∈ l'.live, entry ∈ l.live) (seen : InFocus focus conn l)
    (agree : Agree focus conn s s') (demand : List (Message × QueueGroupKey)) :
    Agree focus conn (serve env s demand) (serve env s' (demand.filter (·.2.1 ∈ focus))) := by
  induction demand generalizing s s' with
  | nil => rwa [List.filter_nil, serve_nil, serve_nil]
  | cons turn demand ih =>
    obtain ⟨message, key⟩ := turn
    have served := h.frame (serve_frame env s [(message, key)])
    rw [serve_cons env s]
    by_cases inside : key.1 ∈ focus
    · rw [List.filter_cons_of_pos (by simpa using inside), serve_cons env s']
      exact ih served (h'.frame (serve_frame env s' _))
        (serve_inside perConn h h' sub agree message inside)
    · rw [List.filter_cons_of_neg (by simpa using inside)]
      exact ih served h' ((serve_outside perConn h seen message inside).symm.trans agree)

include h' in
theorem serve_agree (sub : ∀ entry ∈ l'.live, entry ∈ l.live) (seen : InFocus focus conn l)
    (agree : Agree focus conn s s') {demand demand' : List (Message × QueueGroupKey)}
    (same : demand'.filter (·.2.1 ∈ focus) = demand.filter (·.2.1 ∈ focus)) :
    Agree focus conn (serve env s demand) (serve env s' demand') := by
  have left := serve_focus perConn h h' sub seen agree demand
  have right := serve_focus perConn h' h' (fun _ => id)
    (fun entry member => seen entry (sub entry member)) (.refl s') demand'
  rw [same] at right
  exact left.trans right.symm

end

theorem push_own {env : DeliveryPolicy} (perConn : PerConnection env) {focus : List Str}
    {conn : ConnectionId} {s s' : BrokerCore} (agree : Agree focus conn s s') {parcel : Parcel}
    (mine : ∀ message ∈ parcel.2, message.connectionId = conn) :
    Agree focus conn (push env s parcel) (push env s' parcel) := by
  have owned : ∀ o ∈ Parcel.offers parcel, o.2.connectionId = conn := by
    intro o member
    obtain ⟨message, listed, rfl⟩ := List.mem_map.mp member
    exact mine message listed
  refine ⟨agree.groups, ?_⟩
  rw [push, push, callsOf_append, callsOf_append, settleUntil_view perConn conn _ owned,
    settleUntil_view perConn conn _ owned, agree.calls]

theorem push_other (env : DeliveryPolicy) (focus : List Str) {conn : ConnectionId}
    (s : BrokerCore) {parcel : Parcel}
    (others : ∀ message ∈ parcel.2, message.connectionId ≠ conn) :
    Agree focus conn s (push env s parcel) := by
  have unowned : ∀ o ∈ Parcel.offers parcel, o.2.connectionId ≠ conn := by
    intro o member
    obtain ⟨message, listed, rfl⟩ := List.mem_map.mp member
    exact others message listed
  refine ⟨fun _ _ => rfl, ?_⟩
  rw [push, callsOf_append, settleUntil_view_other env _ unowned, List.append_nil]

theorem bundle_conn {items : List PublishItem} {entry : LiveSub} :
    ∀ message ∈ bundle items entry, message.connectionId = entry.conn := by
  intro message member
  obtain ⟨item, -, rfl⟩ := List.mem_map.mp member
  rfl

theorem foldl_push_focus {env : DeliveryPolicy} (perConn : PerConnection env) {focus : List Str}
    {conn : ConnectionId} {s s' : BrokerCore} (agree : Agree focus conn s s')
    (items : List PublishItem) (entries : List LiveSub) :
    Agree focus conn ((entries.map (parcelFor items)).foldl (push env) s)
      (((entries.filter (·.conn = conn)).map (parcelFor items)).foldl (push env) s') := by
  induction entries generalizing s s' with
  | nil => exact agree
  | cons entry entries ih =>
    rw [List.map_cons, List.foldl_cons]
    by_cases mine : entry.conn = conn
    · rw [List.filter_cons_of_pos (by simpa using mine), List.map_cons, List.foldl_cons]
      exact ih (push_own perConn agree fun message member =>
        (bundle_conn message member).trans mine)
    · rw [List.filter_cons_of_neg (by simpa using mine)]
      refine ih ((push_other env focus s fun message member => ?_).symm.trans agree)
      rwa [bundle_conn message member]

theorem foldl_push_agree {env : DeliveryPolicy} (perConn : PerConnection env) {focus : List Str}
    {conn : ConnectionId} {s s' : BrokerCore} (agree : Agree focus conn s s')
    (items : List PublishItem) {entries entries' : List LiveSub}
    (same : entries'.filter (·.conn = conn) = entries.filter (·.conn = conn)) :
    Agree focus conn ((entries.map (parcelFor items)).foldl (push env) s)
      ((entries'.map (parcelFor items)).foldl (push env) s') := by
  have left := foldl_push_focus perConn agree items entries
  have right := foldl_push_focus perConn (Agree.refl s' : Agree focus conn s' s') items entries'
  rw [same] at right
  exact left.trans right.symm

end ZetMQ.ConnectionView
