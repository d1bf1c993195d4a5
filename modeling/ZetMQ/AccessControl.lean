import ZetMQ.SessionSteps

/-! Permissions over whole runs of a session, with any other sessions at work on the
same broker: what is published through it and what is delivered to its
subscriptions stays within the patterns it held at that time. -/
namespace ZetMQ.AccessControl
open Utf8Text ByteBuffer Frames KeyedTable SubjectGrammar WildcardTrie RoutingTable Delivery
open Registry Broker SubscriptionLedger DeliveryFrame BrokerRefinement RunRefinement DeliveryPlan
open LedgerDelivery QueueGroups CallTargets Commands Permissions PubFastPath SessionLoop
  SessionSteps

theorem sent_subject {live : List LiveSub} {message : Message} {call : DeliverCall}
    (sent : Sent live message call) : call.message.subject = message.subject := by
  obtain ⟨entry, -, -, isCopy⟩ := sent
  exact congrArg (·.2.subject) isCopy

variable {ctx : AuthContext} {env : DeliveryPolicy} {h : Host}

theorem permitted_calls (env : DeliveryPolicy) {b : BrokerCore} {l : Ledger} (h : Refines b l)
    {conn : ConnectionId} {op : BrokerOp} (permitted : Permitted ctx conn op) :
    ∃ new, (op.apply env b).calls = b.calls ++ new ∧
      ∀ call ∈ new, ctx.canPublish call.message.subject = true := by
  have silent {b' : BrokerCore} (same : b'.calls = b.calls) :
      ∃ new, b'.calls = b.calls ++ new ∧
        ∀ call ∈ new, ctx.canPublish call.message.subject = true :=
    ⟨[], by rw [same, List.append_nil], fun _ none => by cases none⟩
  cases op with
  | subscribe c pattern group handle => exact silent (subscribe_calls b ..)
  | unsubscribe c id => exact silent (unsubscribe_calls b c id)
  | publishWithStr input payload replyTo headers =>
    obtain ⟨new, calls, sent⟩ := publishWithStr_sent h env input payload replyTo headers
    refine ⟨new, calls, fun call member => ?_⟩
    obtain ⟨subject, parsed, here⟩ := sent call member
    rw [sent_subject here]
    exact permitted subject parsed
  | publishBatch order items =>
    obtain ⟨new, calls, sent⟩ := publishBatch_sent h env order items
    refine ⟨new, calls, fun call member => ?_⟩
    obtain ⟨item, listed, here⟩ := sent call member
    rw [sent_subject here]
    exact permitted item listed
  | _ => exact permitted.elim

structure Logged (b : BrokerCore) (l : Ledger) : Prop where
  refines : Refines b l
  given : ∀ call ∈ b.calls, call.message.subscriptionId < l.nextId

theorem sent_id {live : List LiveSub} {message : Message} {call : DeliverCall}
    (sent : Sent live message call) :
    ∃ entry ∈ live, call.message.subscriptionId = entry.id ∧
      entry.pattern.matches call.message.subject = true := by
  obtain ⟨entry, member, accepted, isCopy⟩ := sent
  refine ⟨entry, member, congrArg (·.2.subscriptionId) isCopy, ?_⟩
  rwa [show call.message.subject = message.subject from congrArg (·.2.subject) isCopy]

theorem Logged.call {b : BrokerCore} {l : Ledger} (h : Logged b l) (op : BrokerOp) :
    Logged (op.apply env b) (op.track l) := by
  refine ⟨step_refines env h.refines op, fun call member => ?_⟩
  obtain ⟨new, calls, sent⟩ := step_sent h.refines env op
  rw [calls] at member
  refine Nat.lt_of_lt_of_le ?_ (nextId_le_track l op)
  rcases List.mem_append.mp member with old | isNew
  · exact h.given call old
  · obtain ⟨message, here⟩ := sent call isNew
    obtain ⟨entry, listed, same, -⟩ := sent_id here
    rw [same]
    exact l.bounded entry listed

theorem Logged.quiet {b b' : BrokerCore} {l : Ledger} (h : Logged b l) (quiet : Quiet b b') :
    Logged b' l :=
  ⟨h.refines.frame quiet.same, fun call member => h.given call (quiet.calls ▸ member)⟩

theorem logged_run (env : DeliveryPolicy) (history : List BrokerOp) :
    Logged (run env history) (ledgerOf history) := by
  induction history using List.reverseRecOn with
  | nil => exact ⟨refines_new, fun _ none => by cases none⟩
  | append_singleton history op ih =>
    rw [run, ledgerOf, List.foldl_append, List.foldl_append]
    exact ih.call op

theorem step_acts {l : Ledger} (refines : Refines h.broker l) (env : DeliveryPolicy)
    (config : ServerConfig) (event : Event) :
    Acts env (fun _ => True) h.broker (h.step env config event).broker := by
  have nothing {b : BrokerCore} : Acts env (fun _ => True) b b := .inl (.refl b)
  cases event with
  | received bytes =>
    simp only [Host.step]
    split
    · exact nothing
    · split <;> exact nothing
  | readFailed =>
    simp only [Host.step]
    split <;> exact nothing
  | tick elapsed =>
    simp only [Host.step, Host.tick]
    split_ifs <;> exact nothing
  | shutdown late =>
    simp only [Host.step, Host.shutdown]
    split_ifs <;> exact nothing
  | turn order =>
    simp only [Host.step]
    split
    · exact (iterate_acts refines env config order).imp id
        fun ⟨b₁, op, before, _, after⟩ => ⟨b₁, op, before, trivial, after⟩
    · exact nothing
  | close =>
    simp only [Host.step]
    split
    · exact .inr ⟨_, .removeConnection h.flushPublished.session.connId, flushPublished_quiet h,
        trivial, .refl _⟩
    · exact nothing
  | elsewhere op => exact .inr ⟨h.broker, op, .refl _, trivial, .refl _⟩

theorem run_preserves {Inv : BrokerCore → Ledger → Prop} (refines : ∀ {b l}, Inv b l → Refines b l)
    (quiet : ∀ {b b' l}, Inv b l → Quiet b b' → Inv b' l)
    (call : ∀ {b l} (op : BrokerOp), Inv b l → Inv (op.apply env b) (op.track l))
    (config : ServerConfig) (events : List Event) {l : Ledger} (start : Inv h.broker l) :
    ∃ l', Inv (h.run env config events).broker l' := by
  induction events generalizing h l with
  | nil => exact ⟨l, start⟩
  | cons event events ih =>
    rcases step_acts (refines start) env config event with still | ⟨b₁, op, before, -, after⟩
    · exact ih (quiet start still)
    · exact ih (quiet (call op (quiet start before)) after)

structure Fenced (id : SubscriptionId) (pattern : SubjectPattern) (b : BrokerCore) (l : Ledger) :
    Prop where
  refines : Refines b l
  spent : id < l.nextId
  live : ∀ entry ∈ l.live, entry.id = id → entry.pattern = pattern
  calls : ∀ call ∈ b.calls, call.message.subscriptionId = id →
    pattern.matches call.message.subject = true

section
variable {id : SubscriptionId} {pattern : SubjectPattern} {b : BrokerCore} {l : Ledger}

theorem Fenced.quiet {b' : BrokerCore} (h : Fenced id pattern b l) (quiet : Quiet b b') :
    Fenced id pattern b' l :=
  ⟨h.refines.frame quiet.same, h.spent, h.live, quiet.calls ▸ h.calls⟩

theorem Fenced.call (h : Fenced id pattern b l) (op : BrokerOp) :
    Fenced id pattern (op.apply env b) (op.track l) := by
  refine ⟨step_refines env h.refines op, h.spent.trans_le (nextId_le_track l op), ?_, ?_⟩
  · intro entry member same
    rcases mem_track member with old | ⟨fresh, -⟩
    · exact h.live entry old same
    · exact absurd (same.symm.trans fresh) h.spent.ne
  · intro call member same
    obtain ⟨new, calls, sent⟩ := step_sent h.refines env op
    rw [calls] at member
    rcases List.mem_append.mp member with old | isNew
    · exact h.calls call old same
    · obtain ⟨message, here⟩ := sent call isNew
      obtain ⟨entry, listed, addressed, accepted⟩ := sent_id here
      rwa [h.live entry listed (addressed.symm.trans same)] at accepted

end

theorem created_fenced {config : ServerConfig} {l : Ledger} (logged : Logged h.broker l)
    (order : PendingOrder) {id : SubscriptionId} (absent : h.broker.registry.getRef id = none)
    (present : (h.iterate env config order).broker.registry.getRef id ≠ none) :
    ∃ pattern l', h.session.authCtx.canSubscribe pattern = true ∧
      Fenced id pattern (h.iterate env config order).broker l' := by
  rcases iterate_acts logged.refines env config order with still | ⟨b₁, op, before, permitted,
    after⟩
  · rw [still.same.registry] at present
    exact absurd absent present
  · have first := logged.quiet before
    have second : Logged (op.apply env b₁) (op.track l) := first.call op
    obtain ⟨sub, found⟩ := Option.ne_none_iff_exists'.mp present
    rw [after.same.registry] at found
    obtain ⟨rfl, member⟩ := second.refines.registry.of_lookup found
    rcases mem_track member with old | ⟨fresh, isSubscribe⟩
    · exact absurd rfl (logged.refines.registry.lookup_eq_none.mp absent _ old)
    · rw [isSubscribe] at permitted
      refine ⟨_, op.track l, permitted.2, after.same |> second.refines.frame,
        (op.track l).bounded _ member, fun entry listed same => ?_, fun call listed same => ?_⟩
      · rw [(op.track l).eq_of_id listed member same]
      · -- its id is fresh, so nothing in the log carries it yet
        rw [after.calls, isSubscribe, BrokerOp.apply, subscribe_calls] at listed
        exact absurd (same.trans fresh) (first.given call listed).ne

theorem exists_of_canPublish {subject : Subject} (restricted : ctx.publishPatterns ≠ [])
    (permitted : ctx.canPublish subject = true) :
    ∃ p ∈ ctx.publishPatterns, p.matches subject = true := by
  rw [AuthContext.canPublish, if_neg (by simpa using restricted)] at permitted
  exact List.any_eq_true.mp permitted

theorem exists_of_canSubscribe {pattern : SubjectPattern} {subject : Subject}
    (restricted : ctx.subscribePatterns ≠ []) (permitted : ctx.canSubscribe pattern = true)
    (accepted : pattern.matches subject = true) :
    ∃ p ∈ ctx.subscribePatterns, p.matches subject = true := by
  rw [AuthContext.canSubscribe, if_neg (by simpa using restricted)] at permitted
  obtain ⟨p, listed, covers⟩ := List.any_eq_true.mp permitted
  exact ⟨p, listed, matches_of_covered covers accepted⟩

/-- A session at any moment of any run, on a broker that other sessions use before
and meanwhile: what its next turn publishes is within its publish patterns, and
whatever is ever delivered to a subscription created in that turn is within its
subscribe patterns. -/
theorem rbac_end_to_end (env : DeliveryPolicy) (config : ServerConfig) (history : List BrokerOp)
    (conn : ConnectionId) (events : List Event) (order : PendingOrder) :
    let h := Host.run env config ⟨run env history, .start conn, .select⟩ events
    let h' := h.step env config (.turn order)
    (h.session.authCtx.publishPatterns ≠ [] →
      ∀ call ∈ newCalls h.broker h'.broker,
        ∃ p ∈ h.session.authCtx.publishPatterns, p.matches call.message.subject = true) ∧
    (h.session.authCtx.subscribePatterns ≠ [] →
      ∀ id, h.broker.registry.getRef id = none → h'.broker.registry.getRef id ≠ none →
      ∀ later, ∀ call ∈ (h'.run env config later).broker.calls,
        call.message.subscriptionId = id →
        ∃ p ∈ h.session.authCtx.subscribePatterns, p.matches call.message.subject = true) := by
  intro h h'
  obtain ⟨l, logged⟩ : ∃ l, Logged h.broker l :=
    run_preserves Logged.refines Logged.quiet (fun op inv => inv.call op) config events
      (logged_run env history)
  by_cases framing : h.position = .frames
  · have turned : h' = h.iterate env config order := if_pos framing
    refine ⟨fun restricted call member => ?_, fun restricted id absent present later => ?_⟩
    · rw [turned] at member
      rcases iterate_acts logged.refines env config order with
        still | ⟨b₁, op, before, permitted, after⟩
      · rw [newCalls_of_append (still.calls.trans (List.append_nil _).symm)] at member
        cases member
      · obtain ⟨new, calls, allowed⟩ := permitted_calls env
          (logged.refines.frame before.same) permitted
        rw [← after.calls, before.calls] at calls
        rw [newCalls_of_append calls] at member
        exact exists_of_canPublish restricted (allowed call member)
    · rw [turned] at present ⊢
      obtain ⟨pattern, l', permitted, fenced⟩ := created_fenced logged order absent present
      obtain ⟨l'', final⟩ := run_preserves Fenced.refines Fenced.quiet (fun op inv => inv.call op)
        config later fenced
      exact fun call member same =>
        exists_of_canSubscribe restricted permitted (final.calls call member same)
  · have idle : h' = h := if_neg framing
    refine ⟨fun _ call member => ?_, fun _ id absent present => ?_⟩
    · rw [idle, newCalls_of_append (List.append_nil _).symm] at member
      cases member
    · rw [idle] at present
      exact absurd absent present

def restrictedServer : ServerConfig :=
  ⟨2097152, 30, 60, 1000, ⟨"userpass".toList, none,
    [⟨"app".toList, "pw".toList, ⟨["orders.*".toList], []⟩⟩]⟩⟩

def connectAsApp : Bytes :=
  ((Frame.new .connect 1).withPayload
    (2 :: toBe 2 3 ++ encode "app".toList ++ toBe 2 2 ++ encode "pw".toList)).encode

/-- A `PUB` of one byte to `orders.new`, without a reply subject. -/
def pubFrame : Bytes :=
  ((Frame.new .pub 1).withPayload
    (toBe 2 10 ++ encode "orders.new".toList ++ toBe 2 0 ++ [1])).encode

set_option maxRecDepth 8000 in
theorem restricted_publish_is_delivered :
    let h := Host.run acceptAll restrictedServer
      ⟨run acceptAll [.subscribe 2 ordersNew none 7], .start 1, .select⟩
      [.received (connectAsApp ++ pubFrame), .turn (.stored _ _)]
    let h' := h.step acceptAll restrictedServer (.turn (.stored _ _))
    (newCalls h.broker h'.broker).length = 1 ∧
      ∀ call ∈ newCalls h.broker h'.broker,
        ∃ p ∈ h.session.authCtx.publishPatterns, p.matches call.message.subject = true :=
  ⟨by decide, (rbac_end_to_end acceptAll restrictedServer [.subscribe 2 ordersNew none 7] 1
    [.received (connectAsApp ++ pubFrame), .turn (.stored _ _)] (.stored _ _)).1 (by decide)⟩

end ZetMQ.AccessControl
