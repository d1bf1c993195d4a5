import ZetMQ.ConnectionView

/-! Two brokers side by side, one of which has lost subscriptions that a chosen
connection cannot notice. Every call to both keeps them alike for that connection. -/
namespace ZetMQ.QuietRemovals
open Utf8Text SubjectGrammar WildcardTrie KeyedTable Routing RoutingTable Delivery Registry Broker
open SubscriptionLedger RegistryRefinement DeliveryFrame BrokerRefinement RunRefinement
open DeliveryPlan LedgerDelivery BatchPlan BatchDelivery ConnectionView

/-- The subscriptions that decide what a connection gets: its own, and those in
queue groups on the patterns where it is in a group itself. -/
def noticed (focus : List Str) (conn : ConnectionId) (entry : LiveSub) : Bool :=
  entry.conn = conn || (entry.group.isSome && entry.pattern.raw ∈ focus)

structure Shadow (focus : List Str) (conn : ConnectionId) (l l' : Ledger) : Prop where
  nextId : l'.nextId = l.nextId
  sub : l'.live.Sublist l.live
  kept : ∀ entry ∈ l.live, noticed focus conn entry = true → entry ∈ l'.live

theorem filter_eq_of_sublist {α : Type} {whole part : List α} (nodup : whole.Nodup)
    (sub : part.Sublist whole) {test : α → Bool}
    (kept : ∀ a ∈ whole, test a = true → a ∈ part) : part.filter test = whole.filter test := by
  refine (sub.filter test).eq_of_length_le (List.subperm_of_subset (nodup.filter test) ?_).length_le
  intro a member
  obtain ⟨listed, passes⟩ := List.mem_filter.mp member
  exact List.mem_filter.mpr ⟨kept a listed passes, passes⟩

section
variable {focus : List Str} {conn : ConnectionId} {l l' : Ledger} (shadow : Shadow focus conn l l')
include shadow

theorem filter_noticed {test : LiveSub → Bool}
    (seen : ∀ entry, test entry = true → noticed focus conn entry = true) :
    l'.live.filter test = l.live.filter test :=
  filter_eq_of_sublist (live_nodup l) shadow.sub
    fun entry member passes => shadow.kept entry member (seen entry passes)

theorem filter_present : l.live.filter (· ∈ l'.live) = l'.live := by
  rw [← filter_eq_of_sublist (live_nodup l) shadow.sub fun _ _ => of_decide_eq_true]
  exact List.filter_eq_self.mpr fun _ member => decide_eq_true member

theorem entriesAt_noticed {test : LiveSub → Bool}
    (seen : ∀ entry, test entry = true → noticed focus conn entry = true) (slots : List Slot) :
    (entriesAt l'.live slots).filter test = (entriesAt l.live slots).filter test := by
  rw [entriesAt, entriesAt, List.filter_flatMap, List.filter_flatMap]
  congr 1
  funext slot
  rw [List.filter_filter, List.filter_filter]
  refine filter_noticed shadow fun entry passes => seen entry ?_
  rw [Bool.and_eq_true] at passes
  exact passes.1

theorem keys_in_focus (slots : List Slot) :
    ((entriesAt l'.live slots).filterMap LiveSub.groupKey).filter (·.1 ∈ focus) =
      ((entriesAt l.live slots).filterMap LiveSub.groupKey).filter (·.1 ∈ focus) := by
  have swap (entries : List LiveSub) : (entries.filterMap LiveSub.groupKey).filter (·.1 ∈ focus) =
      (entries.filter fun entry => entry.group.isSome && entry.pattern.raw ∈ focus).filterMap
        LiveSub.groupKey := by
    rw [List.filter_filterMap, List.filterMap_filter]
    refine List.filterMap_congr fun entry _ => ?_
    cases grouped : entry.group <;> simp [LiveSub.groupKey, grouped, Option.filter]
  rw [swap, swap, entriesAt_noticed shadow]
  intro entry passes
  rw [noticed, passes, Bool.or_true]

end

theorem filter_destutter {K : Type} [DecidableEq K] {test : K → Bool} {block : List K}
    (uniform : ∀ k ∈ block, ∀ k' ∈ block, test k = test k') :
    (block.destutter (· ≠ ·)).filter test = (block.filter test).destutter (· ≠ ·) := by
  cases block with
  | nil => rfl
  | cons first rest =>
    have same : ∀ k ∈ first :: rest, test k = test first :=
      fun k member => uniform k member first (List.mem_cons_self ..)
    have runs : ∀ k ∈ (first :: rest).destutter (· ≠ ·), test k = test first :=
      fun k member => same k ((AdjacentRuns.mem_destutter_iff k _).mp member)
    cases verdict : test first with
    | true =>
      rw [List.filter_eq_self.mpr fun k member => (runs k member).trans verdict,
        List.filter_eq_self.mpr fun k member => (same k member).trans verdict]
    | false =>
      rw [List.filter_eq_nil_iff.mpr fun k member => by simp [runs k member, verdict],
        List.filter_eq_nil_iff.mpr fun k member => by simp [same k member, verdict]]
      rfl

theorem key_pattern {live : List LiveSub} {slot : Slot} {key : QueueGroupKey}
    (member : key ∈ (entriesAt live [slot]).filterMap LiveSub.groupKey) :
    ∃ pattern, slotOf pattern = slot ∧ key.1 = pattern.raw := by
  obtain ⟨entry, listed, grouped⟩ := List.mem_filterMap.mp member
  have place := (mem_entriesAt.mp listed).2
  exact ⟨entry.pattern, List.mem_singleton.mp place, (groupKey_fst grouped).2⟩

theorem turns_by_slot (live : List LiveSub) {slots : List Slot} (nodup : slots.Nodup)
    (focus : List Str) :
    (((entriesAt live slots).filterMap LiveSub.groupKey).destutter (· ≠ ·)).filter (·.1 ∈ focus) =
      slots.flatMap fun slot => (((entriesAt live [slot]).filterMap LiveSub.groupKey).filter
        (·.1 ∈ focus)).destutter (· ≠ ·) := by
  have blocks : (entriesAt live slots).filterMap LiveSub.groupKey =
      slots.flatMap fun slot => (entriesAt live [slot]).filterMap LiveSub.groupKey := by
    rw [entriesAt, List.filterMap_flatMap]
    simp only [entriesAt, List.flatMap_singleton]
  have apart : slots.Pairwise fun a b =>
      ∀ k ∈ (entriesAt live [a]).filterMap LiveSub.groupKey,
        k ∉ (entriesAt live [b]).filterMap LiveSub.groupKey := by
    refine nodup.imp fun different k left right => different ?_
    obtain ⟨p, rfl, first⟩ := key_pattern left
    obtain ⟨q, rfl, second⟩ := key_pattern right
    rw [SubjectPattern.ext_raw (first.symm.trans second)]
  rw [blocks, AdjacentRuns.destutter_flatMap _ apart, List.filter_flatMap]
  congr 1
  funext slot
  refine filter_destutter fun k member k' member' => ?_
  obtain ⟨p, here, first⟩ := key_pattern member
  obtain ⟨q, there, second⟩ := key_pattern member'
  rw [first, second, slotOf_injective (here.trans there.symm)]

theorem strSlots_nodup (input : Str) (subject : Subject) : (strSlots input subject).Nodup := by
  have tail := (List.nodup_cons.mp (slotsFor_nodup subject)).2
  exact List.nodup_cons.mpr ⟨by simp, tail⟩

/-- Two brokers, the second one without some subscriptions that `conn` does not
notice. -/
structure Alike (focus : List Str) (conn : ConnectionId) (s s' : BrokerCore) (l l' : Ledger) :
    Prop where
  left : Refines s l
  right : Refines s' l'
  shadow : Shadow focus conn l l'
  seen : InFocus focus conn l
  agree : Agree focus conn s s'

section
variable {env : DeliveryPolicy} (perConn : PerConnection env) {focus : List Str}
  {conn : ConnectionId} {s s' : BrokerCore} {l l' : Ledger} (alike : Alike focus conn s s' l l')
include alike

theorem Alike.traffic {t t' : BrokerCore} (same : SameSubscriptions s t)
    (same' : SameSubscriptions s' t') (agree : Agree focus conn t t') :
    Alike focus conn t t' l l' :=
  ⟨alike.left.frame same, alike.right.frame same', alike.shadow, alike.seen, agree⟩

theorem Alike.counted (n : ℕ) : Alike focus conn (counted s n) (BatchPlan.counted s' n) l l' :=
  alike.traffic (SameSubscriptions.traffic.incPublishedBy s n)
    (SameSubscriptions.traffic.incPublishedBy s' n)
    ⟨alike.agree.groups, alike.agree.calls⟩

include perConn

theorem serve_alike {demand demand' : List (Message × QueueGroupKey)}
    (same : demand'.filter (·.2.1 ∈ focus) = demand.filter (·.2.1 ∈ focus)) :
    Alike focus conn (serve env s demand) (serve env s' demand') l l' :=
  alike.traffic (serve_frame env s demand) (serve_frame env s' demand')
    (serve_agree perConn alike.left alike.right (fun _ => (alike.shadow.sub.subset ·)) alike.seen
      alike.agree same)

theorem deliver_agree (message : Message) {slots : List Slot} (nodup : slots.Nodup) :
    Agree focus conn (s.deliverMatches env message ((entriesAt l.live slots).map LiveSub.id))
      (s'.deliverMatches env message ((entriesAt l'.live slots).map LiveSub.id)) := by
  rw [deliverMatches_live alike.left env message fun _ member => (mem_entriesAt.mp member).1,
    deliverMatches_live alike.right env message fun _ member => (mem_entriesAt.mp member).1]
  have keys : (((entriesAt l'.live slots).filterMap LiveSub.groupKey).destutter (· ≠ ·)).filter
        (·.1 ∈ focus) =
      (((entriesAt l.live slots).filterMap LiveSub.groupKey).destutter (· ≠ ·)).filter
        (·.1 ∈ focus) := by
    rw [turns_by_slot _ nodup, turns_by_slot _ nodup]
    simp only [keys_in_focus alike.shadow]
  have copies (entries : List LiveSub) :
      offersOf conn ((entries.filter (·.group.isNone)).map (copyFor message)) =
        (entries.filter fun entry => entry.conn = conn && entry.group.isNone).map
          (copyFor message) := by
    rw [offersOf, List.filter_map, List.filter_filter]
    rfl
  refine (serve_alike perConn alike ?_).agree.offer perConn ?_
  · rw [List.filter_map, List.filter_map]
    exact congrArg (List.map (message, ·)) keys
  · rw [copies, copies, entriesAt_noticed alike.shadow]
    intro entry passes
    rw [Bool.and_eq_true] at passes
    rw [noticed, passes.1, Bool.true_or]

theorem publish_agree (message : Message) :
    Agree focus conn (s.publish env message) (s'.publish env message) := by
  have counts := alike.counted 1
  have delivered := deliver_agree perConn counts message (slotsFor_nodup message.subject)
  have ids := matchSubject_ids counts.left message.subject
  have ids' := matchSubject_ids counts.right message.subject
  rw [matched, ← entriesAt] at ids ids'
  rwa [← ids, ← ids'] at delivered

theorem publishWithStr_agree (input : Str) (payload : Bytes) (replyTo : Option Subject)
    (headers : Option HeaderMap) :
    Agree focus conn (s.publishWithStr env input payload replyTo headers)
      (s'.publishWithStr env input payload replyTo headers) := by
  obtain ⟨t, same, groups, calls, -, sending⟩ :=
    publishWithStr_live alike.left env input payload replyTo headers
  obtain ⟨t', same', groups', calls', -, sending'⟩ :=
    publishWithStr_live alike.right env input payload replyTo headers
  have unmoved : Agree focus conn t t' := by
    refine ⟨fun key inside => ?_, ?_⟩
    · rw [groups, groups']
      exact alike.agree.groups key inside
    · rw [calls, calls']
      exact alike.agree.calls
  rw [sending, sending']
  cases Subject.parse input with
  | error _ => exact unmoved
  | ok subject =>
    exact deliver_agree perConn (alike.traffic same same' unmoved)
      ⟨0, subject, payload, headers, replyTo, 0⟩ (strSlots_nodup input subject)

theorem parcels_agree (items : List PublishItem) {entries entries' : List LiveSub}
    (same : entries'.filter (·.conn = conn) = entries.filter (·.conn = conn)) :
    Agree focus conn
      ((entries.map (parcelFor items)).foldl (push env)
        (serve env (counted s items.length) (batchDemand l.live items)))
      ((entries'.map (parcelFor items)).foldl (push env)
        (serve env (counted s' items.length) (batchDemand l'.live items))) := by
  have counts := alike.counted items.length
  refine foldl_push_agree perConn (serve_alike perConn counts ?_).agree items same
  rw [batchDemand, batchDemand, List.filter_flatMap, List.filter_flatMap]
  congr 1
  funext item
  rw [List.filter_map, List.filter_map]
  exact congrArg (List.map (item.toMessage, ·)) (keys_in_focus alike.shadow (slotsFor item.subject))

theorem publishBatch_forth (order : PendingOrder) (items : List PublishItem) :
    ∃ order', Agree focus conn (s.publishBatch env order items)
      (s'.publishBatch env order' items) := by
  obtain ⟨entries, perm, batch⟩ := publishBatch_live alike.left env order items
  have remaining : (entries.filter (· ∈ l'.live)).Perm (l'.live.filter (receives items)) := by
    have filtered := perm.filter (· ∈ l'.live)
    rwa [List.filter_comm, filter_present alike.shadow] at filtered
  obtain ⟨order', batch'⟩ := publishBatch_realizes alike.right env items remaining
  refine ⟨order', ?_⟩
  rw [batch, batch']
  refine parcels_agree perConn alike items ?_
  rw [List.filter_filter]
  refine List.filter_congr fun entry member => ?_
  by_cases mine : entry.conn = conn
  · have listed := List.mem_of_mem_filter (perm.subset member)
    have kept := alike.shadow.kept entry listed (by simp [noticed, mine])
    simp [mine, kept]
  · simp [mine]

theorem publishBatch_back (order' : PendingOrder) (items : List PublishItem) :
    ∃ order, Agree focus conn (s.publishBatch env order items)
      (s'.publishBatch env order' items) := by
  obtain ⟨entries', perm', batch'⟩ := publishBatch_live alike.right env order' items
  set gone := (l.live.filter (receives items)).filter (· ∉ l'.live) with isGone
  have present : (l.live.filter (receives items)).filter (· ∈ l'.live) =
      l'.live.filter (receives items) := by
    rw [List.filter_comm, filter_present alike.shadow]
  have complete : (entries' ++ gone).Perm (l.live.filter (receives items)) := by
    refine (perm'.append_right gone).trans ?_
    rw [← present, isGone]
    simpa using List.filter_append_perm (fun entry => decide (entry ∈ l'.live))
      (l.live.filter (receives items))
  obtain ⟨order, batch⟩ := publishBatch_realizes alike.left env items complete
  refine ⟨order, ?_⟩
  rw [batch, batch']
  refine parcels_agree perConn alike items ?_
  have unnoticed : gone.filter (·.conn = conn) = [] := by
    refine List.filter_eq_nil_iff.mpr fun entry member => ?_
    rw [isGone, List.mem_filter, decide_eq_true_eq] at member
    intro mine
    exact member.2 (alike.shadow.kept entry (List.mem_of_mem_filter member.1)
      (by rw [noticed, mine, Bool.true_or]))
  rw [List.filter_append, unnoticed, List.append_nil]

end

end ZetMQ.QuietRemovals
