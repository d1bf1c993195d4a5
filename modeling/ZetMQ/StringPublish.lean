import ZetMQ.QueueGroups

/-! Publishing by the text of a subject. The exact half of the router is asked for the
text as it came in, the plain publish for the trimmed subject; so the two part where
surrounding whitespace hides an exact subscription. -/
namespace ZetMQ.StringPublish
open Utf8Text SubjectGrammar WildcardTrie KeyedTable Routing RoutingTable Delivery Registry Broker
open SubscriptionLedger RegistryRefinement DeliveryFrame BrokerRefinement RunRefinement
open DeliveryPlan LedgerDelivery QueueGroups

structure SameTraffic (b b' : BrokerCore) : Prop where
  calls : b.calls = b'.calls
  published : b.metrics.messagesPublished = b'.metrics.messagesPublished
  delivered : b.metrics.messagesDelivered = b'.metrics.messagesDelivered
  dropped : b.metrics.messagesDropped = b'.metrics.messagesDropped

theorem deliverMatches_traffic (env : DeliveryPolicy) (message : Message)
    (ids : List SubscriptionId) {b b' : BrokerCore} (registry : b.registry = b'.registry)
    (groups : b.queueGroups = b'.queueGroups) (calls : b.calls = b'.calls)
    (metrics : b.metrics = b'.metrics) :
    SameTraffic (b.deliverMatches env message ids) (b'.deliverMatches env message ids) := by
  have same : (b.deliverMatches env message ids).calls =
        (b'.deliverMatches env message ids).calls ∧
      (b.deliverMatches env message ids).metrics = (b'.deliverMatches env message ids).metrics := by
    rw [deliverMatches_eq, deliverMatches_eq]
    simp only [offer, serve, registry, groups, calls, metrics, and_self]
  obtain ⟨sameCalls, sameMetrics⟩ := same
  exact ⟨sameCalls, by rw [sameMetrics], by rw [sameMetrics], by rw [sameMetrics]⟩

theorem deliverMatches_message (env : DeliveryPolicy) {message message' : Message}
    (same : message.deliveryTo = message'.deliveryTo) (b : BrokerCore)
    (ids : List SubscriptionId) :
    b.deliverMatches env message ids = b.deliverMatches env message' ids := by
  have single : ∀ (b : BrokerCore) id,
      b.deliverToSubscriber env id message = b.deliverToSubscriber env id message' := by
    intro b id
    rw [BrokerCore.deliverToSubscriber, BrokerCore.deliverToSubscriber, same]
  have flush : MatchLoop.flushGroup env message = MatchLoop.flushGroup env message' := by
    funext loop
    simp only [MatchLoop.flushGroup, BrokerCore.deliverQueueGroup, single]
  have step : MatchLoop.step env message = MatchLoop.step env message' := by
    funext loop id
    simp only [MatchLoop.step, flush]
  rw [BrokerCore.deliverMatches, BrokerCore.deliverMatches, step, flush, same]

theorem exists_of_forall₂ {α β : Type*} {R : α → β → Prop} {left : List α} {right : List β}
    (agree : List.Forall₂ R left right) {a : α} (member : a ∈ left) : ∃ b ∈ right, R a b := by
  induction agree with
  | nil => cases member
  | cons here _ ih =>
    rcases List.mem_cons.mp member with rfl | later
    · exact ⟨_, List.mem_cons_self .., here⟩
    · obtain ⟨b, listed, related⟩ := ih later
      exact ⟨b, List.mem_cons_of_mem _ listed, related⟩

section
variable {b : BrokerCore} {l : Ledger} (h : Refines b l) (env : DeliveryPolicy)
  (message : Message)
include h

theorem deliverMatches_patterns {entries : List LiveSub}
    (live : ∀ entry ∈ entries, entry ∈ l.live) :
    ∃ new, (b.deliverMatches env message (entries.map LiveSub.id)).calls = b.calls ++ new ∧
      (∀ call ∈ new, ∃ sub ∈ l.live, offered call = copyFor message sub ∧
        ∃ entry ∈ entries, sub.pattern = entry.pattern) ∧
      ∀ entry ∈ entries, ∃ call ∈ new, ∃ sub ∈ l.live, offered call = copyFor message sub ∧
        sub.pattern = entry.pattern := by
  obtain ⟨groups, picked, agree, result⟩ := deliverMatches_picks h env message live
  have turn (key : QueueGroupKey) :
      key ∈ (entries.filterMap LiveSub.groupKey).destutter (· ≠ ·) ↔
        ∃ entry ∈ entries, entry.groupKey = some key := by
    rw [AdjacentRuns.mem_destutter_iff, List.mem_filterMap]
  rw [result]
  refine ⟨_, rfl, ?_, ?_⟩
  · intro call member
    have listed := List.mem_map_of_mem (f := offered) member
    rw [offered_settle, List.mem_append, List.mem_map, List.mem_map] at listed
    rcases listed with ⟨sub, chosen, same⟩ | ⟨entry, free, same⟩
    · obtain ⟨key, served, present, grouped⟩ := exists_of_forall₂ agree.flip chosen
      obtain ⟨entry, here, held⟩ := (turn key).mp served
      exact ⟨sub, present, same.symm, entry, here, pattern_of_groupKey grouped held⟩
    · have here := List.mem_of_mem_filter free
      exact ⟨entry, live entry here, same.symm, entry, here, rfl⟩
  · intro entry member
    have settled (sub : LiveSub) (chosen : copyFor message sub ∈ picked.map (copyFor message) ++
        (entries.filter (·.group.isNone)).map (copyFor message)) :
        ∃ call ∈ settle env b.calls (picked.map (copyFor message) ++
          (entries.filter (·.group.isNone)).map (copyFor message)),
          offered call = copyFor message sub := by
      rw [← offered_settle env b.calls (_ ++ _)] at chosen
      exact List.mem_map.mp chosen
    cases held : entry.groupKey with
    | none =>
      rw [← Option.isNone_iff_eq_none, groupKey_isNone] at held
      obtain ⟨call, here, same⟩ := settled entry (List.mem_append_right _
        (List.mem_map_of_mem (List.mem_filter.mpr ⟨member, held⟩)))
      exact ⟨call, here, entry, live entry member, same, rfl⟩
    | some key =>
      obtain ⟨sub, chosen, present, grouped⟩ :=
        exists_of_forall₂ agree ((turn key).mpr ⟨entry, member, held⟩)
      obtain ⟨call, here, same⟩ :=
        settled sub (List.mem_append_left _ (List.mem_map_of_mem chosen))
      exact ⟨call, here, sub, present, same, pattern_of_groupKey grouped held⟩

end

theorem strSlots_entries {live : List LiveSub} {input : Str} {subject : Subject}
    (parsed : Subject.parse input = .ok subject)
    (found : trim input = input ∨ ∀ entry ∈ live, hasWildcard entry.pattern = false →
      entry.pattern.raw ≠ trim input) :
    entriesAt live (strSlots input subject) = matched live subject := by
  have raw := Subject.parse_raw parsed
  by_cases same : trim input = input
  · rw [entriesAt, matched, strSlots, slotsFor, raw, same]
  have unlisted {text : Str} (away : ∀ entry ∈ live, hasWildcard entry.pattern = false →
      entry.pattern.raw ≠ text) : live.filter (slotOf ·.pattern = .exact text) = [] := by
    rw [List.filter_eq_nil_iff]
    intro entry member
    have apart := away entry member
    unfold slotOf
    split_ifs with wild <;> simp_all
  have missed : ∀ entry ∈ live, hasWildcard entry.pattern = false →
      entry.pattern.raw ≠ input := by
    intro entry _ _ spelled
    rw [← spelled, entry.pattern.trimmed] at same
    exact same rfl
  rw [entriesAt, matched, strSlots, slotsFor, raw, List.flatMap_cons, List.flatMap_cons,
    unlisted missed, unlisted (found.resolve_left same)]

theorem no_str_delivery {l : Ledger} {input : Str} {subject : Subject}
    (parsed : Subject.parse input = .ok subject) (spaced : trim input ≠ input)
    {b b' : BrokerCore} (h : Refines b l) (h' : Refines b' l) (env : DeliveryPolicy)
    (message : Message) (calls : b'.calls = b.calls) {entry : LiveSub}
    (listed : entry ∈ l.live) (literal : hasWildcard entry.pattern = false)
    (spelled : entry.pattern.raw = trim input) :
    (b'.deliverMatches env message
        ((entriesAt l.live (strSlots input subject)).map LiveSub.id)).calls ≠
      (b.deliverMatches env message ((matched l.live subject).map LiveSub.id)).calls := by
  intro agree
  have slot : slotOf entry.pattern = .exact (trim input) := by
    rw [slotOf, literal, if_neg Bool.false_ne_true, spelled]
  have wanted : entry ∈ matched l.live subject := by
    rw [mem_matched, ← slotOf_mem_slotsFor, slot, slotsFor, Subject.parse_raw parsed]
    exact ⟨listed, List.mem_cons_self ..⟩
  obtain ⟨new, sent, -, served⟩ := deliverMatches_patterns h env message
    fun entry (member : entry ∈ matched l.live subject) => (mem_matched.mp member).1
  obtain ⟨new', sent', targets, -⟩ := deliverMatches_patterns h' env message
    fun entry (member : entry ∈ entriesAt l.live (strSlots input subject)) =>
      (mem_entriesAt.mp member).1
  rw [sent, sent', calls, List.append_cancel_left_eq] at agree
  obtain ⟨call, here, sub, present, copy, pattern⟩ := served entry wanted
  obtain ⟨sub', present', copy', other, found, pattern'⟩ := targets call (agree ▸ here)
  have sameId : sub.id = sub'.id :=
    congrArg (fun o : Offer => o.2.subscriptionId) (copy.symm.trans copy')
  have place := (mem_entriesAt.mp found).2
  rw [← pattern', ← Ledger.eq_of_id present present' sameId, pattern, slot, strSlots] at place
  simp only [List.mem_cons, Slot.exact.injEq, List.mem_map, reduceCtorEq, and_false,
    exists_false, or_false] at place
  exact spaced place

/-- The two paths agree where no live exact subscription hides behind the whitespace. -/
theorem str_path_agrees_iff (env : DeliveryPolicy) (ops : List BrokerOp) (input : Str)
    (payload : Bytes) (replyTo : Option Subject) (headers : Option HeaderMap) :
    (∀ subject, Subject.parse input = .ok subject → ∀ id timestampNs,
        SameTraffic ((run env ops).publishWithStr env input payload replyTo headers)
          ((run env ops).publish env ⟨id, subject, payload, headers, replyTo, timestampNs⟩)) ∧
      (∀ e, Subject.parse input = .error e →
        ((run env ops).publishWithStr env input payload replyTo headers).calls =
          (run env ops).calls) ↔
      ∀ subject, Subject.parse input = .ok subject → trim input = input ∨
        ∀ entry ∈ (ledgerOf ops).live, hasWildcard entry.pattern = false →
          entry.pattern.raw ≠ trim input := by
  have h := run_refines env ops
  obtain ⟨b, same, groups, calls, metrics, sending⟩ :=
    publishWithStr_live h env input payload replyTo headers
  have counted := h.frame (SameSubscriptions.traffic.incPublishedBy (run env ops) 1)
  have plain (message : Message) : (run env ops).publish env message =
      { run env ops with metrics := (run env ops).metrics.incPublishedBy 1 }.deliverMatches env
        message ((matched (ledgerOf ops).live message.subject).map LiveSub.id) := by
    rw [← matchSubject_ids counted]
    rfl
  constructor
  · rintro ⟨agree, -⟩ subject parsed
    rw [or_iff_not_imp_left]
    intro spaced entry listed literal spelled
    have traffic := (agree subject parsed 0 0).calls
    rw [sending, parsed, plain] at traffic
    exact no_str_delivery parsed spaced counted (h.frame same) env _ calls listed literal spelled
      traffic
  · intro found
    constructor
    · intro subject parsed id timestampNs
      have copies : (⟨0, subject, payload, headers, replyTo, 0⟩ : Message).deliveryTo =
          (⟨id, subject, payload, headers, replyTo, timestampNs⟩ : Message).deliveryTo := rfl
      rw [sending, parsed, plain, ← strSlots_entries parsed (found subject parsed)]
      dsimp only
      rw [deliverMatches_message env copies]
      exact deliverMatches_traffic env _ _ same.registry groups calls metrics
    · intro e failed
      rw [sending, failed]
      exact calls

def oneListener : List BrokerOp := [.subscribe 1 ordersNew none 7]

theorem plain_text_agrees :
    Subject.parse "orders.new".toList = .ok newOrder ∧
      SameTraffic
        ((run acceptAll oneListener).publishWithStr acceptAll "orders.new".toList [1] none none)
        ((run acceptAll oneListener).publish acceptAll ⟨1, newOrder, [1], none, none, 0⟩) := by
  have parsed : Subject.parse "orders.new".toList = .ok newOrder := by decide
  have agree := (str_path_agrees_iff acceptAll oneListener "orders.new".toList [1] none none).mpr
    fun _ _ => Or.inl (by decide)
  exact ⟨parsed, agree.1 newOrder parsed 1 0⟩

set_option maxRecDepth 4000 in
/-- A leading blank: the plain publish has one subscriber, the text finds none. -/
theorem spaced_text_is_not_delivered :
    Subject.parse " orders.new".toList = .ok newOrder ∧
      ((run acceptAll oneListener).publish acceptAll
        ⟨1, newOrder, [1], none, none, 0⟩).calls.map (·.message.subscriptionId) = [1] ∧
      ((run acceptAll oneListener).publishWithStr acceptAll " orders.new".toList [1] none
        none).calls = [] := by decide

end ZetMQ.StringPublish
