import Mathlib.Data.List.Sort
import ZetMQ.LedgerDelivery

/-! How often a queue group is served by one publication. The match loop only
notices a change of group between neighbours, so a group whose members are
separated by a member of another group on the same pattern takes two turns. -/
namespace ZetMQ.QueueGroups
open Utf8Text SubjectGrammar WildcardTrie KeyedTable Routing RoutingTable Delivery Registry Broker
open SubscriptionLedger RegistryRefinement BrokerRefinement RunRefinement DeliveryPlan
open LedgerDelivery AdjacentRuns

/-- The `deliver` calls made between two states of the broker. -/
def newCalls (b b' : BrokerCore) : List DeliverCall := b'.calls.drop b.calls.length

theorem newCalls_of_append {b b' : BrokerCore} {new : List DeliverCall}
    (h : b'.calls = b.calls ++ new) : newCalls b b' = new := by
  rw [newCalls, h]
  exact List.drop_left

def toMembers (calls : List DeliverCall) (ids : List SubscriptionId) : List DeliverCall :=
  calls.filter (·.message.subscriptionId ∈ ids)

theorem offered_toMembers (calls : List DeliverCall) (ids : List SubscriptionId) :
    (toMembers calls ids).map offered =
      (calls.map offered).filter (·.2.subscriptionId ∈ ids) := by
  rw [toMembers, List.filter_map]
  rfl

/-- What a queue group is promised: one live member of each matching group is
offered the message, and nobody in a group that does not match. -/
def GroupContract (env : DeliveryPolicy) (b : BrokerCore) (live : List LiveSub)
    (message : Message) : Prop :=
  ∀ entry ∈ live, ∀ key, entry.groupKey = some key →
    let calls := toMembers (newCalls b (b.publish env message)) (memberIds live key)
    if entry.pattern.matches message.subject = true
    then ∃ chosen ∈ live, chosen.groupKey = some key ∧
      calls.map offered = [copyFor message chosen]
    else calls = []

def Interleaved (live : List LiveSub) (subject : Subject) : Prop :=
  ∃ x ∈ live, ∃ y ∈ live, ∃ z ∈ live, x.id < y.id ∧ y.id < z.id ∧
    x.pattern.matches subject = true ∧ y.pattern = x.pattern ∧ z.pattern = x.pattern ∧
    x.group.isSome ∧ z.group = x.group ∧ y.group.isSome ∧ y.group ≠ x.group

variable {live : List LiveSub} {key : QueueGroupKey} {entry : LiveSub} (l : Ledger)

theorem copies_to_members (message : Message) (key : QueueGroupKey) {entries : List LiveSub}
    (live : ∀ entry ∈ entries, entry ∈ l.live) :
    (entries.map (copyFor message)).filter (·.2.subscriptionId ∈ memberIds l.live key) =
      (entries.filter (·.groupKey = some key)).map (copyFor message) := by
  rw [List.filter_map]
  congr 1
  refine List.filter_congr fun entry member => ?_
  have same : entry.id ∈ memberIds l.live key ↔ entry.groupKey = some key := by
    rw [mem_memberIds]
    constructor
    · rintro ⟨other, listed, sameId, grouped⟩
      rwa [← l.eq_of_id listed (live entry member) sameId]
    · exact fun grouped => ⟨entry, live entry member, rfl, grouped⟩
  simp only [Function.comp_apply, copyFor, Message.deliveryTo, same]

theorem fanout_outside_groups (message : Message) (key : QueueGroupKey) :
    (fanoutCopies l.live message).filter (·.2.subscriptionId ∈ memberIds l.live key) = [] := by
  rw [fanoutCopies, copies_to_members l message key fun entry member =>
    (mem_matched.mp (List.mem_of_mem_filter member)).1, List.filter_filter, List.map_eq_nil_iff,
    List.filter_eq_nil_iff]
  intro entry _
  simp only [Bool.and_eq_true, decide_eq_true_eq, not_and, ← groupKey_isNone]
  intro grouped
  simp [grouped]

theorem count_turns {keys : List QueueGroupKey} {picked : List LiveSub}
    (agree : List.Forall₂ (fun key entry => entry ∈ live ∧ entry.groupKey = some key) keys picked)
    (key : QueueGroupKey) : (picked.filter (·.groupKey = some key)).length = keys.count key := by
  induction agree with
  | nil => rfl
  | @cons turn entry keys picked here _ ih =>
    by_cases same : turn = key
    · subst same
      rw [List.filter_cons_of_pos (by simpa using here.2), List.length_cons, ih,
        List.count_cons_self]
    · have other : ¬ entry.groupKey = some key := by simpa [here.2] using same
      rw [List.filter_cons_of_neg (by simpa using other), ih, List.count_cons_of_ne same]

theorem mem_of_turns {keys : List QueueGroupKey} {picked : List LiveSub}
    (agree : List.Forall₂ (fun key entry => entry ∈ live ∧ entry.groupKey = some key) keys picked) :
    ∀ entry ∈ picked, entry ∈ live := by
  induction agree with
  | nil => simp
  | cons here _ ih =>
    intro entry member
    rcases List.mem_cons.mp member with rfl | later
    · exact here.1
    · exact ih entry later

theorem group_calls {b : BrokerCore} {l : Ledger} (h : Refines b l) (env : DeliveryPolicy)
    (message : Message) :
    ∃ picked : List LiveSub, (∀ entry ∈ picked, entry ∈ l.live) ∧ ∀ key,
      (toMembers (newCalls b (b.publish env message)) (memberIds l.live key)).map offered =
        (picked.filter (·.groupKey = some key)).map (copyFor message) ∧
      (picked.filter (·.groupKey = some key)).length =
        (groupTurns l.live message.subject).count key := by
  obtain ⟨groups, picked, agree, published⟩ := publish_live h env message
  refine ⟨picked, mem_of_turns agree, fun key => ⟨?_, count_turns agree key⟩⟩
  have calls : (b.publish env message).calls = b.calls ++ settle env b.calls
      (picked.map (copyFor message) ++ fanoutCopies l.live message) := by
    rw [published]
    rfl
  rw [offered_toMembers, newCalls_of_append calls, offered_settle, List.filter_append,
    fanout_outside_groups, List.append_nil,
    copies_to_members l message key (mem_of_turns agree)]

theorem pattern_of_groupKey {a b : LiveSub} (ha : a.groupKey = some key)
    (hb : b.groupKey = some key) : a.pattern = b.pattern :=
  ((groupKey_eq_iff ha hb).mp rfl).1

theorem mem_groupTurns (member : entry ∈ live) (grouped : entry.groupKey = some key)
    (subject : Subject) : key ∈ groupTurns live subject ↔ entry.pattern.matches subject = true := by
  rw [groupTurns, mem_destutter_iff, List.mem_filterMap]
  constructor
  · rintro ⟨other, listed, same⟩
    rw [← pattern_of_groupKey same grouped]
    exact (mem_matched.mp listed).2
  · exact fun accepted => ⟨entry, mem_matched.mpr ⟨member, accepted⟩, grouped⟩

theorem split_matched_iff {subject : Subject} (grouped : entry.groupKey = some key)
    (accepted : entry.pattern.matches subject = true) :
    Split key ((matched live subject).filterMap LiveSub.groupKey) ↔
      Split key ((live.filter (·.pattern = entry.pattern)).filterMap LiveSub.groupKey) := by
  rw [matched, List.filterMap_flatMap,
    split_flatMap_iff (fun slot => (live.filter (slotOf ·.pattern = slot)).filterMap
      LiveSub.groupKey) (slotsFor_nodup subject) ((slotOf_mem_slotsFor _ _).mpr accepted)]
  · have same : live.filter (slotOf ·.pattern = slotOf entry.pattern) =
        live.filter (·.pattern = entry.pattern) := by
      refine List.filter_congr fun other _ => ?_
      have : slotOf other.pattern = slotOf entry.pattern ↔ other.pattern = entry.pattern :=
        ⟨slotOf_injective, fun same => same ▸ rfl⟩
      simp only [this]
    rw [same]
  · intro slot _ inside
    obtain ⟨other, listed, same⟩ := List.mem_filterMap.mp inside
    rw [List.mem_filter, decide_eq_true_eq] at listed
    rw [← listed.2, pattern_of_groupKey same grouped]

theorem sublist_three_iff (x y z : LiveSub) :
    [x, y, z].Sublist l.live ↔
      x ∈ l.live ∧ y ∈ l.live ∧ z ∈ l.live ∧ x.id < y.id ∧ y.id < z.id := by
  have ascending : l.live.Pairwise (·.id < ·.id) := List.pairwise_map.mp l.ascending
  constructor
  · intro sub
    have order := ascending.sublist sub
    simp only [List.pairwise_cons, List.mem_cons, forall_eq_or_imp] at order
    exact ⟨sub.subset (by simp), sub.subset (by simp), sub.subset (by simp), order.1.1, order.2.1.1⟩
  · rintro ⟨hx, hy, hz, xy, yz⟩
    have order : [x, y, z].Pairwise (·.id < ·.id) := by simp [xy, yz, xy.trans yz]
    have : Std.Antisymm fun a b : LiveSub => a.id < b.id :=
      ⟨fun _ _ less greater => absurd less (Nat.lt_asymm greater)⟩
    have nodup : [x, y, z].Nodup :=
      order.imp (S := (· ≠ ·)) fun {a b} less same => Nat.lt_irrefl b.id (same ▸ less)
    refine List.sublist_of_subperm_of_pairwise (List.subperm_of_subset nodup ?_) order ascending
    intro entry member
    simp only [List.mem_cons, List.not_mem_nil, or_false] at member
    rcases member with rfl | rfl | rfl <;> assumption

theorem groupKey_eq_some :
    entry.groupKey = some key ↔
      ∃ group, entry.group = some group ∧ (entry.pattern.raw, group.name) = key := by
  rw [LiveSub.groupKey, Option.map_eq_some_iff]

theorem interleaved_iff (subject : Subject) :
    Interleaved l.live subject ↔ ∃ entry ∈ l.live, ∃ key, entry.groupKey = some key ∧
      entry.pattern.matches subject = true ∧
      Split key ((matched l.live subject).filterMap LiveSub.groupKey) := by
  constructor
  · rintro ⟨x, hx, y, hy, z, hz, xy, yz, accepted, samey, samez, inGroup, groupz, inGroup', other⟩
    obtain ⟨group, isGroup⟩ := Option.isSome_iff_exists.mp inGroup
    obtain ⟨group', isGroup'⟩ := Option.isSome_iff_exists.mp inGroup'
    have keyx : x.groupKey = some (x.pattern.raw, group.name) := by simp [LiveSub.groupKey, isGroup]
    have keyz : z.groupKey = some (x.pattern.raw, group.name) := by
      simp [LiveSub.groupKey, groupz, isGroup, samez]
    have keyy : y.groupKey = some (x.pattern.raw, group'.name) := by
      simp [LiveSub.groupKey, isGroup', samey]
    refine ⟨x, hx, _, keyx, accepted, (split_matched_iff keyx accepted).mpr
      ⟨(x.pattern.raw, group'.name), ?_, ?_⟩⟩
    · intro same
      exact other ((groupKey_eq_iff keyy keyx).mp same).2
    · have three := (sublist_three_iff l x y z).mpr ⟨hx, hy, hz, xy, yz⟩
      have inSlot := (three.filter (·.pattern = x.pattern)).filterMap LiveSub.groupKey
      simpa [samey, samez, keyx, keyy, keyz] using inSlot
  · rintro ⟨entry, member, key, grouped, accepted, split⟩
    rw [split_matched_iff grouped accepted] at split
    obtain ⟨j, other, sub⟩ := split
    obtain ⟨inner, inside, keys⟩ := exists_sublist_of_filterMap sub
    obtain ⟨x, y, z, rfl⟩ : ∃ x y z, inner = [x, y, z] := by
      have length := congrArg List.length keys
      simp only [List.length_map] at length
      exact List.length_eq_three.mp length
    simp only [List.map_cons, List.map_nil, List.cons.injEq, and_true] at keys
    obtain ⟨keyx, keyy, keyz⟩ := keys
    obtain ⟨hx, hy, hz, xy, yz⟩ :=
      (sublist_three_iff l x y z).mp (inside.trans List.filter_sublist)
    have patternOf {e : LiveSub} (listed : e ∈ [x, y, z]) : e.pattern = entry.pattern := by
      simpa using (List.mem_filter.mp (inside.subset listed)).2
    have px := patternOf (e := x) (by simp)
    have isSome {e : LiveSub} {k : QueueGroupKey} (held : e.groupKey = some k) :
        e.group.isSome := by
      obtain ⟨group, found, -⟩ := groupKey_eq_some.mp held
      simp [found]
    refine ⟨x, hx, y, hy, z, hz, xy, yz, px ▸ accepted, ?_, ?_, isSome keyx, ?_, isSome keyy, ?_⟩
    · rw [patternOf (e := y) (by simp), px]
    · rw [patternOf (e := z) (by simp), px]
    · exact ((groupKey_eq_iff keyz keyx).mp rfl).2
    · intro same
      refine other ((groupKey_eq_iff keyy keyx).mpr ⟨?_, same⟩)
      rw [patternOf (e := y) (by simp), px]

theorem one_lt_groupTurns (live : List LiveSub) (subject : Subject) (key : QueueGroupKey) :
    1 < (groupTurns live subject).count key ↔
      Split key ((matched live subject).filterMap LiveSub.groupKey) :=
  one_lt_count_destutter key _

/-- In every reachable state a publication serves the queue groups as promised
exactly if no group is interleaved with another one. -/
theorem publish_serves_groups_iff (env : DeliveryPolicy) (ops : List BrokerOp)
    (message : Message) :
    GroupContract env (run env ops) (ledgerOf ops).live message ↔
      ¬Interleaved (ledgerOf ops).live message.subject := by
  obtain ⟨picked, live, calls⟩ := group_calls (run_refines env ops) env message
  rw [interleaved_iff]
  simp only [← one_lt_groupTurns, not_exists, not_and]
  refine forall₂_congr fun entry member => forall₂_congr fun key grouped => ?_
  obtain ⟨offers, turns⟩ := calls key
  have turned := mem_groupTurns member grouped message.subject
  dsimp only
  split_ifs with accepted
  · have positive := List.count_pos_iff.mpr (turned.mpr accepted)
    rw [offers]
    constructor
    · rintro ⟨chosen, -, -, single⟩ - twice
      have := congrArg List.length single
      rw [List.length_map, turns] at this
      exact absurd this twice.ne'
    · intro once
      have one : (groupTurns (ledgerOf ops).live message.subject).count key = 1 := by
        have := once accepted
        omega
      obtain ⟨chosen, single⟩ := List.length_eq_one_iff.mp (turns.trans one)
      have listed : chosen ∈ picked.filter (·.groupKey = some key) := by simp [single]
      obtain ⟨chosenOf, held⟩ := List.mem_filter.mp listed
      exact ⟨chosen, live chosen chosenOf, by simpa using held, by rw [single]; rfl⟩
  · have never : (groupTurns (ledgerOf ops).live message.subject).count key = 0 :=
      List.count_eq_zero.mpr fun listed => accepted (turned.mp listed)
    rw [never, List.length_eq_zero_iff] at turns
    rw [turns, List.map_nil, List.map_eq_nil_iff] at offers
    exact ⟨fun _ matches' => absurd matches' accepted, fun _ => offers⟩

def acceptAll : DeliveryPolicy := fun _ _ _ => .delivered

def workers : QueueGroupName := parsed (QueueGroupName.new "workers".toList) (by decide)
def auditors : QueueGroupName := parsed (QueueGroupName.new "auditors".toList) (by decide)

def auditorBetweenWorkers : List BrokerOp :=
  [.subscribe 1 ordersNew (some workers) 1, .subscribe 2 ordersNew (some auditors) 2,
    .subscribe 3 ordersNew (some workers) 3]

def orderMessage : Message := ⟨1, newOrder, [1], none, none, 0⟩

set_option maxRecDepth 4000 in
theorem workers_served_twice :
    ¬GroupContract acceptAll (run acceptAll auditorBetweenWorkers)
      (ledgerOf auditorBetweenWorkers).live orderMessage := by
  intro contract
  have served := contract ⟨1, 1, ordersNew, some workers, 1⟩ (by decide)
    ("orders.new".toList, "workers".toList) (by decide)
  have accepted : ordersNew.matches orderMessage.subject = true := by decide
  obtain ⟨chosen, -, -, single⟩ := (if_pos accepted).mp served
  have twice : (toMembers (newCalls (run acceptAll auditorBetweenWorkers)
      ((run acceptAll auditorBetweenWorkers).publish acceptAll orderMessage))
      (memberIds (ledgerOf auditorBetweenWorkers).live
        ("orders.new".toList, "workers".toList))).length = 2 := by decide
  have once := congrArg List.length single
  rw [List.length_map, twice] at once
  cases once

end ZetMQ.QueueGroups
