import ZetMQ.AdjacentRuns
import ZetMQ.DeliveryPlan
import ZetMQ.RunRefinement

/-! Deliveries in terms of the ledger. In a broker that refines a ledger the plan
of a publication is a function of the live subscriptions alone: who matches, in
which order, which groups take a turn, and what each subscription is offered. -/
namespace ZetMQ.LedgerDelivery
open Utf8Text SubjectGrammar WildcardTrie KeyedTable Routing RoutingTable Delivery Registry Broker
open SubscriptionLedger RegistryRefinement DeliveryFrame BrokerRefinement RunRefinement
open DeliveryPlan

def matched (live : List LiveSub) (subject : Subject) : List LiveSub :=
  (slotsFor subject).flatMap fun slot => live.filter (slotOf ·.pattern = slot)

variable {live entries : List LiveSub} {entry : LiveSub}

theorem mem_matched {subject : Subject} :
    entry ∈ matched live subject ↔ entry ∈ live ∧ entry.pattern.matches subject = true := by
  simp only [matched, List.mem_flatMap, List.mem_filter, decide_eq_true_eq,
    ← slotOf_mem_slotsFor]
  exact ⟨fun ⟨_, listed, member, here⟩ => ⟨member, here ▸ listed⟩,
    fun ⟨member, listed⟩ => ⟨_, listed, member, rfl⟩⟩

theorem matched_nodup (nodup : live.Nodup) (subject : Subject) : (matched live subject).Nodup := by
  rw [matched, List.nodup_flatMap]
  refine ⟨fun slot _ => nodup.filter _, (slotsFor_nodup subject).imp ?_⟩
  intro slot slot' different entry left right
  simp only [List.mem_filter, decide_eq_true_eq] at left right
  exact different (left.2.symm.trans right.2)

theorem live_nodup (l : Ledger) : l.live.Nodup := l.nodup_ids.of_map _

/-- What one subscription is offered for a message. -/
def copyFor (message : Message) (entry : LiveSub) : Offer :=
  (entry.handle, message.deliveryTo entry.id entry.conn)

def fanoutCopies (live : List LiveSub) (message : Message) : List Offer :=
  ((matched live message.subject).filter (·.group.isNone)).map (copyFor message)

def groupTurns (live : List LiveSub) (subject : Subject) : List QueueGroupKey :=
  ((matched live subject).filterMap LiveSub.groupKey).destutter (· ≠ ·)

theorem groupKey_isNone (entry : LiveSub) : entry.groupKey.isNone = entry.group.isNone := by
  rw [LiveSub.groupKey, Option.isNone_map]

section
variable {b : BrokerCore} {l : Ledger} (h : Refines b l)
include h

theorem matchSubject_ids (subject : Subject) :
    b.router.matchSubject subject = (matched l.live subject).map LiveSub.id := by
  rw [BrokerCore.router, matchSubject_eq h.registry.routes, matched, List.map_flatMap]
  congr 1
  funext slot
  rw [idsIn, routesOf, List.filter_map, List.map_map]
  rfl

theorem getRef_live (member : entry ∈ l.live) :
    ∃ sub, b.registry.getRef entry.id = some sub ∧ sub.connectionId = entry.conn ∧
      sub.delivery = entry.handle ∧ sub.queueGroupKey.map KeyArc.key = entry.groupKey := by
  obtain ⟨sub, found, rfl⟩ := h.registry.lookup_of_mem member
  exact ⟨sub, found, rfl, rfl, h.held _ sub found⟩

theorem heldKey_live (member : entry ∈ l.live) :
    (heldKey b.registry entry.id).map KeyArc.key = entry.groupKey := by
  obtain ⟨sub, found, -, -, held⟩ := getRef_live h member
  rw [heldKey, found, Option.bind_some, held]

theorem fanoutTarget_live (member : entry ∈ l.live) :
    fanoutTarget b.registry entry.id =
      if entry.group.isNone then some (entry.id, entry.conn, entry.handle) else none := by
  obtain ⟨sub, found, conn, handle, held⟩ := getRef_live h member
  have free : sub.queueGroupKey.isNone = entry.group.isNone := by
    rw [← groupKey_isNone, ← held, Option.isNone_map]
  rw [fanoutTarget, found, Option.bind_some, free, conn, handle]

theorem offersTo_live (message : Message) (member : entry ∈ l.live) :
    offersTo b.registry message entry.id = [copyFor message entry] := by
  obtain ⟨sub, found, conn, handle, -⟩ := getRef_live h member
  rw [offersTo, found]
  simp only [conn, handle, copyFor]

theorem fanoutOffers_live (message : Message) (live : ∀ entry ∈ entries, entry ∈ l.live) :
    fanoutOffers b.registry message (entries.map LiveSub.id) =
      (entries.filter (·.group.isNone)).map (copyFor message) := by
  rw [fanoutOffers, List.filterMap_map]
  induction entries with
  | nil => rfl
  | cons entry rest ih =>
    have first := fanoutTarget_live h (live entry (List.mem_cons_self ..))
    have later := ih fun other member => live other (List.mem_cons_of_mem _ member)
    by_cases free : entry.group.isNone = true
    · rw [if_pos free] at first
      rw [List.filter_cons_of_pos (by exact free), List.map_cons, ← later,
        List.filterMap_cons_some (by exact first)]
      rfl
    · rw [if_neg free] at first
      rw [List.filter_cons_of_neg (by exact free), ← later,
        List.filterMap_cons_none (by exact first)]

theorem groupRuns_keys (live : ∀ entry ∈ entries, entry ∈ l.live) :
    (groupRuns b.registry (entries.map LiveSub.id)).map KeyArc.key =
      (entries.filterMap LiveSub.groupKey).destutter (· ≠ ·) := by
  have keys : ((entries.map LiveSub.id).filterMap (heldKey b.registry)).map KeyArc.key =
      entries.filterMap LiveSub.groupKey := by
    rw [List.map_filterMap, List.filterMap_map]
    exact List.filterMap_congr fun entry member => heldKey_live h (live entry member)
  rw [groupRuns, ← keys]
  refine List.map_destutter fun arc member arc' member' => not_congr ?_
  obtain ⟨id, -, held⟩ := List.mem_filterMap.mp member
  obtain ⟨id', -, held'⟩ := List.mem_filterMap.mp member'
  obtain ⟨sub, found, holds⟩ := Option.bind_eq_some_iff.mp held
  obtain ⟨sub', found', holds'⟩ := Option.bind_eq_some_iff.mp held'
  exact h.pointer_eq found found' holds holds'

theorem deliverMatches_live (env : DeliveryPolicy) (message : Message)
    (live : ∀ entry ∈ entries, entry ∈ l.live) :
    b.deliverMatches env message (entries.map LiveSub.id) =
      offer env
        (serve env b (((entries.filterMap LiveSub.groupKey).destutter (· ≠ ·)).map (message, ·)))
        ((entries.filter (·.group.isNone)).map (copyFor message)) := by
  rw [deliverMatches_eq, fanoutOffers_live h message live, demandOf, ← groupRuns_keys h live,
    List.map_map]
  rfl

end

def membersOf (groups : Groups) (key : QueueGroupKey) : List SubscriptionId :=
  ((groups.lookup key).map QueueGroupState.members).getD []

theorem membersOf_rotate (groups : Groups) (key other : QueueGroupKey) :
    membersOf (rotate groups key).1 other = membersOf groups other := by
  unfold rotate
  cases found : groups.lookup key with
  | none => rfl
  | some group =>
    dsimp only
    split_ifs
    · rfl
    · simp only [membersOf, lookup_insert_ite]
      split_ifs with same
      · rw [same, found]
        rfl
      · rfl

theorem membersOf_turns (groups : Groups) (demand : List (Message × QueueGroupKey))
    (key : QueueGroupKey) : membersOf (turns groups demand).1 key = membersOf groups key := by
  induction demand generalizing groups with
  | nil => rfl
  | cons turn rest ih => exact (ih _).trans (membersOf_rotate groups turn.2 key)

theorem serve_frame (env : DeliveryPolicy) (b : BrokerCore)
    (demand : List (Message × QueueGroupKey)) : SameSubscriptions b (serve env b demand) :=
  ⟨rfl, rfl, rfl, rfl, rfl, membersOf_turns b.queueGroups demand, fun _ _ => .inl⟩

theorem rotate_chosen {groups : Groups} {key : QueueGroupKey} (some : membersOf groups key ≠ []) :
    ∃ id ∈ membersOf groups key, (rotate groups key).2 = .some id := by
  unfold rotate
  cases found : groups.lookup key with
  | none => simp [membersOf, found] at some
  | some group =>
    have members : membersOf groups key = group.members := by simp [membersOf, found]
    rw [members] at some ⊢
    have positive : 0 < group.members.length := List.length_pos_iff.mpr some
    have inside := Nat.mod_lt group.currentIndex positive
    dsimp only
    rw [if_neg positive.ne', List.getElem?_eq_getElem inside]
    exact ⟨_, List.getElem_mem inside, rfl⟩

theorem turns_live {l : Ledger} {groups : Groups} (demand : List (Message × QueueGroupKey))
    (members : ∀ key, membersOf groups key = memberIds l.live key)
    (wanted : ∀ turn ∈ demand, memberIds l.live turn.2 ≠ []) :
    ∃ picked : List LiveSub,
      List.Forall₂ (fun turn entry => entry ∈ l.live ∧ entry.groupKey = some turn.2)
        demand picked ∧
      (turns groups demand).2 = List.zipWith (fun turn entry => (turn.1, entry.id))
      demand picked := by
  induction demand generalizing groups with
  | nil => exact ⟨[], .nil, rfl⟩
  | cons turn rest ih =>
    obtain ⟨message, key⟩ := turn
    have first := wanted (message, key) (List.mem_cons_self ..)
    obtain ⟨id, member, chosen⟩ := rotate_chosen
      (show membersOf groups key ≠ [] by rwa [members])
    rw [members, mem_memberIds] at member
    obtain ⟨entry, listed, rfl, grouped⟩ := member
    obtain ⟨picked, agree, later⟩ := @ih (rotate groups key).1
      (fun other => (membersOf_rotate groups key other).trans (members other))
      (fun turn member => wanted turn (List.mem_cons_of_mem _ member))
    refine ⟨entry :: picked, .cons ⟨listed, grouped⟩ agree, ?_⟩
    simp only [turns, chosen, later, Option.toList_some, List.map_cons, List.map_nil,
      List.zipWith_cons_cons, List.cons_append, List.nil_append]

theorem serve_live {b : BrokerCore} {l : Ledger} (h : Refines b l) (env : DeliveryPolicy)
    (demand : List (Message × QueueGroupKey))
    (wanted : ∀ turn ∈ demand, memberIds l.live turn.2 ≠ []) :
    ∃ groups picked,
      List.Forall₂ (fun turn entry => entry ∈ l.live ∧ entry.groupKey = some turn.2)
        demand picked ∧
      serve env b demand = offer env { b with queueGroups := groups }
        (List.zipWith (fun turn entry => copyFor turn.1 entry) demand picked) := by
  obtain ⟨picked, agree, chosen⟩ := @turns_live l b.queueGroups demand h.members wanted
  refine ⟨(turns b.queueGroups demand).1, picked, agree, ?_⟩
  have offers : ((turns b.queueGroups demand).2.flatMap fun turn =>
      offersTo b.registry turn.1 turn.2) =
      List.zipWith (fun turn entry => copyFor turn.1 entry) demand picked := by
    rw [chosen]
    clear chosen wanted
    induction agree with
    | nil => rfl
    | cons here _ ih =>
      rw [List.zipWith_cons_cons, List.flatMap_cons, ih, offersTo_live h _ here.1]
      rfl
  rw [serve]
  dsimp only
  rw [offers]

theorem deliverMatches_picks {b : BrokerCore} {l : Ledger} (h : Refines b l) (env : DeliveryPolicy)
    (message : Message) (live : ∀ entry ∈ entries, entry ∈ l.live) :
    ∃ groups picked,
      List.Forall₂ (fun key entry => entry ∈ l.live ∧ entry.groupKey = some key)
        ((entries.filterMap LiveSub.groupKey).destutter (· ≠ ·)) picked ∧
      b.deliverMatches env message (entries.map LiveSub.id) =
        offer env { b with queueGroups := groups }
          (picked.map (copyFor message) ++
            (entries.filter (·.group.isNone)).map (copyFor message)) := by
  rw [deliverMatches_live h env message live]
  have wanted : ∀ key ∈ (entries.filterMap LiveSub.groupKey).destutter (· ≠ ·),
      memberIds l.live key ≠ [] := by
    intro key member
    rw [AdjacentRuns.mem_destutter_iff] at member
    obtain ⟨entry, listed, grouped⟩ := List.mem_filterMap.mp member
    exact List.ne_nil_of_mem (mem_memberIds.mpr ⟨entry, live entry listed, rfl, grouped⟩)
  generalize (entries.filterMap LiveSub.groupKey).destutter (· ≠ ·) = keys at wanted ⊢
  obtain ⟨groups, picked, agree, served⟩ := serve_live h env (keys.map (message, ·)) (by
    intro turn member
    obtain ⟨key, listed, rfl⟩ := List.mem_map.mp member
    exact wanted key listed)
  rw [List.forall₂_map_left_iff] at agree
  refine ⟨groups, picked, agree, ?_⟩
  have copies : List.zipWith (fun turn entry => copyFor turn.1 entry) (keys.map (message, ·))
      picked = picked.map (copyFor message) := by
    rw [List.zipWith_map_left]
    clear served wanted
    induction agree with
    | nil => rfl
    | cons _ _ ih => rw [List.zipWith_cons_cons, ih, List.map_cons]
  rw [served, copies, offer_append]

theorem publish_live {b : BrokerCore} {l : Ledger} (h : Refines b l) (env : DeliveryPolicy)
    (message : Message) :
    ∃ groups picked,
      List.Forall₂ (fun key entry => entry ∈ l.live ∧ entry.groupKey = some key)
        (groupTurns l.live message.subject) picked ∧
      b.publish env message = offer env
        { b with queueGroups := groups, metrics := b.metrics.incPublished }
        (picked.map (copyFor message) ++ fanoutCopies l.live message) := by
  have counted := h.frame (SameSubscriptions.traffic.incPublishedBy b 1)
  have ids := matchSubject_ids counted message.subject
  rw [BrokerCore.publish, show b.metrics.incPublished = b.metrics.incPublishedBy 1 from rfl, ids]
  exact deliverMatches_picks counted env message fun entry member => (mem_matched.mp member).1

/-- The live subscriptions at some places of the router. -/
def entriesAt (live : List LiveSub) (slots : List Slot) : List LiveSub :=
  slots.flatMap fun slot => live.filter (slotOf ·.pattern = slot)

/-- Where an unparsed subject is looked up: the exact half takes the text as it
is, the wildcard half takes the parsed subject. -/
def strSlots (input : Str) (subject : Subject) : List Slot :=
  .exact input :: (visited subject.tokens).map .trie

theorem mem_entriesAt {slots : List Slot} :
    entry ∈ entriesAt live slots ↔ entry ∈ live ∧ slotOf entry.pattern ∈ slots := by
  simp only [entriesAt, List.mem_flatMap, List.mem_filter, decide_eq_true_eq]
  exact ⟨fun ⟨_, listed, member, here⟩ => ⟨member, here ▸ listed⟩,
    fun ⟨member, listed⟩ => ⟨_, listed, member, rfl⟩⟩

theorem parseSubject_traffic (b : BrokerCore) (input : Str) :
    (b.parseSubject input).1.queueGroups = b.queueGroups ∧
      (b.parseSubject input).1.calls = b.calls := by
  unfold BrokerCore.parseSubject
  split
  · exact ⟨rfl, rfl⟩
  · split <;> exact ⟨rfl, rfl⟩

theorem parseSubject_metrics (b : BrokerCore) (input : Str) :
    (b.parseSubject input).1.metrics = b.metrics := by
  unfold BrokerCore.parseSubject
  split
  · rfl
  · split <;> rfl

section
variable {b : BrokerCore} {l : Ledger} (h : Refines b l)
include h

theorem strSlots_ids (input : Str) (subject : Subject) :
    (b.router.matchSubjectStr input).1 ++ b.router.matchWildcards subject =
      (entriesAt l.live (strSlots input subject)).map LiveSub.id := by
  have slotIds (slot : Slot) : idsIn (routesOf l.live) slot =
      (l.live.filter (slotOf ·.pattern = slot)).map LiveSub.id := by
    rw [idsIn, routesOf, List.filter_map, List.map_map]
    rfl
  have exactIds : (b.router.matchSubjectStr input).1 = idsIn (routesOf l.live) (.exact input) :=
    h.registry.routes.ids (.exact input)
  rw [exactIds, slotIds, BrokerCore.router, matchWildcards_eq h.registry.routes, entriesAt,
    strSlots,
    List.flatMap_cons, List.map_append, List.map_flatMap, funext slotIds]

theorem parseSubject_snd (input : Str) : (b.parseSubject input).2 = Subject.parse input := by
  unfold BrokerCore.parseSubject
  split
  · rename_i cached
    exact (h.cache _ _ cached).symm
  · split
    · rename_i failed
      exact failed.symm
    · rename_i parsed
      exact parsed.symm

theorem publishWithStr_live (env : DeliveryPolicy) (input : Str) (payload : Bytes)
    (replyTo : Option Subject) (headers : Option HeaderMap) :
    ∃ b', SameSubscriptions b b' ∧ b'.queueGroups = b.queueGroups ∧ b'.calls = b.calls ∧
      b'.metrics = b.metrics.incPublished ∧
      b.publishWithStr env input payload replyTo headers =
        match Subject.parse input with
        | .error _ => b'
        | .ok subject => b'.deliverMatches env ⟨0, subject, payload, headers, replyTo, 0⟩
            ((entriesAt l.live (strSlots input subject)).map LiveSub.id) := by
  have counts : Refines { b with metrics := b.metrics.incPublished } l :=
    h.frame (SameSubscriptions.traffic.incPublishedBy b 1)
  unfold BrokerCore.publishWithStr
  generalize start : { b with metrics := b.metrics.incPublished } = b₁ at counts ⊢
  have same : SameSubscriptions b b₁ := start ▸ SameSubscriptions.traffic.incPublishedBy b 1
  have groups : b₁.queueGroups = b.queueGroups := start ▸ rfl
  have calls : b₁.calls = b.calls := start ▸ rfl
  have metrics : b₁.metrics = b.metrics.incPublished := start ▸ rfl
  have ids := strSlots_ids counts input
  dsimp only
  split
  · rename_i early
    refine ⟨b₁, same, groups, calls, metrics, ?_⟩
    split
    · rfl
    · rename_i subject parsed
      rw [Bool.and_eq_true, Bool.not_eq_true', List.isEmpty_iff] at early
      have none : b₁.router.matchWildcards subject = [] := by
        rw [RoutingEngine.matchWildcards, if_neg]
        exact Bool.eq_false_iff.mp early.2
      rw [← ids, early.1, none]
      rfl
  · have parsing := parseSubject_snd counts input
    have kept := SameSubscriptions.traffic.parseSubject b₁ input
    have traffic := parseSubject_traffic b₁ input
    refine ⟨(b₁.parseSubject input).1, same.trans kept, traffic.1.trans groups,
      traffic.2.trans calls, (parseSubject_metrics b₁ input).trans metrics, ?_⟩
    split
    · rename_i found
      rw [found] at parsing ⊢
      rw [← parsing]
    · rename_i b₂ subject found
      rw [found] at parsing kept ⊢
      have sameRouter : b₂.router = b₁.router := congrArg SubscriptionRegistry.router kept.registry
      rw [← parsing]
      dsimp only
      rw [← ids, sameRouter]
      split_ifs with flag
      · rfl
      · have none : b₁.router.matchWildcards subject = [] := by
          rw [RoutingEngine.matchWildcards, if_neg]
          exact flag
        rw [none, List.append_nil]

end

end ZetMQ.LedgerDelivery
