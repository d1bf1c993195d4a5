import ZetMQ.CallTargets

/-! Fan-out over whole histories: each publication reaches every subscription
without a queue group that is live and matches, once, and a subscription that has
been removed is never called again. -/
namespace ZetMQ.FanoutRuns
open Utf8Text SubjectGrammar WildcardTrie KeyedTable Delivery Registry Broker
open SubscriptionLedger BrokerRefinement RunRefinement DeliveryPlan LedgerDelivery QueueGroups
open CallTargets

theorem run_append (env : DeliveryPolicy) (ops later : List BrokerOp) :
    run env (ops ++ later) = later.foldl (BrokerOp.apply env) (run env ops) :=
  List.foldl_append

theorem ledgerOf_append (ops later : List BrokerOp) :
    ledgerOf (ops ++ later) = later.foldl BrokerOp.track (ledgerOf ops) :=
  List.foldl_append

/-- An id that was given out and is no longer in use. -/
def Retired (l : Ledger) (id : SubscriptionId) : Prop :=
  id < l.nextId ∧ ∀ entry ∈ l.live, entry.id ≠ id

theorem retired_track {l : Ledger} {id : SubscriptionId} (h : Retired l id) (op : BrokerOp) :
    Retired (op.track l) id := by
  refine ⟨h.1.trans_le (nextId_le_track l op), fun entry member same => ?_⟩
  rcases mem_track member with old | ⟨fresh, -⟩
  · exact h.2 entry old same
  · exact h.1.ne (same.symm.trans fresh)

theorem retired_calls (env : DeliveryPolicy) {b : BrokerCore} {l : Ledger} (h : Refines b l)
    {id : SubscriptionId} (gone : Retired l id) (later : List BrokerOp) :
    ∃ new, (later.foldl (BrokerOp.apply env) b).calls = b.calls ++ new ∧
      ∀ call ∈ new, call.message.subscriptionId ≠ id := by
  induction later generalizing b l with
  | nil => exact ⟨[], by simp, by simp⟩
  | cons op later ih =>
    obtain ⟨first, calls, sent⟩ := step_sent h env op
    obtain ⟨rest, calls', others⟩ := ih (step_refines env h op) (retired_track gone op)
    refine ⟨first ++ rest, ?_, ?_⟩
    · rw [List.foldl_cons, calls', calls, List.append_assoc]
    · intro call member
      rcases List.mem_append.mp member with here | there
      · obtain ⟨message, entry, listed, -, isCopy⟩ := sent call here
        have addressed : call.message.subscriptionId = entry.id :=
          congrArg (·.2.subscriptionId) isCopy
        rw [addressed]
        exact gone.2 entry listed
      · exact others call there

theorem fanout_copies_for (l : Ledger) (message : Message) {entry : LiveSub}
    (member : entry ∈ l.live) (free : entry.group = none) :
    (fanoutCopies l.live message).filter (·.2.subscriptionId ∈ [entry.id]) =
      if entry.pattern.matches message.subject = true then [copyFor message entry] else [] := by
  have own : ((matched l.live message.subject).filter (·.group.isNone)).filter
        (fun other => (copyFor message other).2.subscriptionId ∈ [entry.id]) =
      ((matched l.live message.subject).filter (·.group.isNone)).filter (· = entry) := by
    refine List.filter_congr fun other listed => ?_
    have present := (mem_matched.mp (List.mem_of_mem_filter listed)).1
    have same : other.id = entry.id ↔ other = entry :=
      ⟨l.eq_of_id present member, fun same => same ▸ rfl⟩
    simp only [copyFor, Message.deliveryTo, List.mem_singleton, same]
  have here : entry ∈ (matched l.live message.subject).filter (·.group.isNone) ↔
      entry.pattern.matches message.subject = true := by
    rw [List.mem_filter, mem_matched, free]
    exact ⟨fun present => present.1.2, fun accepted => ⟨⟨member, accepted⟩, rfl⟩⟩
  have nodup := (matched_nodup (live_nodup l) message.subject).filter (·.group.isNone)
  rw [fanoutCopies, List.filter_map]
  simp only [Function.comp_def]
  rw [own, List.filter_eq, nodup.count]
  simp only [here]
  split_ifs <;> rfl

theorem picked_outside {l : Ledger} {keys : List QueueGroupKey} {picked : List LiveSub}
    (message : Message)
    (agree : List.Forall₂ (fun key entry => entry ∈ l.live ∧ entry.groupKey = some key) keys picked)
    {entry : LiveSub} (member : entry ∈ l.live) (free : entry.group = none) :
    (picked.map (copyFor message)).filter (·.2.subscriptionId ∈ [entry.id]) = [] := by
  induction agree with
  | nil => rfl
  | @cons key other keys picked here _ ih =>
    have different : other.id ≠ entry.id := by
      intro same
      have grouped := here.2
      rw [l.eq_of_id here.1 member same, LiveSub.groupKey, free] at grouped
      cases grouped
    rw [List.map_cons, List.filter_cons_of_neg (by simpa [copyFor, Message.deliveryTo]), ih]

/-- Each publication of a history calls every live subscription without a queue
group whose pattern accepts the subject exactly once, with its id, its owner and
the message unchanged, and calls nobody who is not live; once removed, a
subscription is never called again. -/
theorem fanout_exact (env : DeliveryPolicy) (ops : List BrokerOp) :
    (∀ message,
      let calls := newCalls (run env ops) ((run env ops).publish env message)
      (∀ entry ∈ (ledgerOf ops).live, entry.group = none →
        (toMembers calls [entry.id]).map offered =
          if entry.pattern.matches message.subject = true then [copyFor message entry] else []) ∧
      ∀ call ∈ calls, ∃ entry ∈ (ledgerOf ops).live, offered call = copyFor message entry) ∧
    ∀ entry ∈ (ledgerOf ops).live, ∀ conn later, ∀ removal : BrokerOp,
      removal = .unsubscribe conn entry.id ∨ removal = .removeConnection entry.conn →
      ∀ call ∈ newCalls (run env (ops ++ [removal])) (run env (ops ++ removal :: later)),
        call.message.subscriptionId ≠ entry.id := by
  have h := run_refines env ops
  refine ⟨fun message => ⟨fun entry member free => ?_, fun call listed => ?_⟩, ?_⟩
  · obtain ⟨groups, picked, agree, published⟩ := publish_live h env message
    have calls : ((run env ops).publish env message).calls = (run env ops).calls ++
        settle env (run env ops).calls
          (picked.map (copyFor message) ++ fanoutCopies (ledgerOf ops).live message) := by
      rw [published]
      rfl
    rw [offered_toMembers, newCalls_of_append calls, offered_settle, List.filter_append,
      picked_outside message agree member free, List.nil_append,
      fanout_copies_for _ message member free]
  · obtain ⟨new, calls, sent⟩ := publish_sent h env message
    rw [newCalls_of_append calls] at listed
    obtain ⟨entry, member, -, isCopy⟩ := sent call listed
    exact ⟨entry, member, isCopy⟩
  · intro entry member conn later removal removes
    have gone : Retired (ledgerOf (ops ++ [removal])) entry.id := by
      rw [ledgerOf_append]
      refine ⟨?_, fun other listed same => ?_⟩
      · rcases removes with rfl | rfl <;> exact (ledgerOf ops).bounded entry member
      · rcases removes with rfl | rfl
        · have kept := (List.mem_filter.mp listed).2
          simp [same] at kept
        · obtain ⟨present, kept⟩ := List.mem_filter.mp listed
          rw [(ledgerOf ops).eq_of_id present member same] at kept
          simp at kept
    obtain ⟨new, calls, others⟩ := retired_calls env (run_refines env (ops ++ [removal])) gone later
    have whole : ops ++ removal :: later = ops ++ [removal] ++ later := by simp
    rw [whole, run_append env (ops ++ [removal]), newCalls_of_append calls]
    exact others

end ZetMQ.FanoutRuns
