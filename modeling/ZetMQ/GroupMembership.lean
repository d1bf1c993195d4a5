import ZetMQ.GroupSteps

/-! Queue-group membership while calls overlap. Step by step the stages of the ids and
the marks of the steps account for the groups and the interned keys. So the marks tell,
whenever no call is in progress, who is a member of its group and who holds which key. -/
namespace ZetMQ.GroupMembership
open Utf8Text SubjectGrammar WildcardTrie KeyedTable Routing Delivery Registry Broker
open Interleaving ConcurrentBroker GroupMarks GroupStages GroupSteps

inductive Request where
  | subscribe (conn : ConnectionId) (pattern : SubjectPattern)
      (queueGroup : Option QueueGroupName) (delivery : DeliveryHandle)
  | unsubscribe (conn : ConnectionId) (id : SubscriptionId)
  | removeConnection (conn : ConnectionId)

def Request.task : Request → Task
  | .subscribe conn pattern queueGroup delivery => .subscribe conn pattern queueGroup delivery
  | .unsubscribe conn id => .unsubscribe conn id
  | .removeConnection conn => .removeConnection conn

theorem begin {s : Shared BrokerCore Task} {marks : List Mark} {stage : SubscriptionId → Stage}
    (h : Tracked s marks stage) (request : Request) :
    Tracked { s with pending := s.pending ++ [request.task] } marks stage :=
  have idle : holds request.task = none ∧ retired request.task = [] := by
    cases request <;> exact ⟨rfl, rfl⟩
  { h with
    linked := by
      have front : Linked (request.task :: s.pending) stage := by
        refine ⟨?_, List.pairwise_cons.mpr ⟨?_, h.linked.apart⟩, ?_⟩
        · simpa [idle] using h.linked.held
        · simp [idle]
        · simpa [idle] using h.linked.removed
      exact front.perm (List.perm_append_singleton ..).symm }

def scheduled (events : List (Event Request)) : List (Event Task) :=
  events.map (Event.map Request.task)

def ran (events : List (Event Request)) : Shared BrokerCore Task :=
  Shared.run next ⟨.new, []⟩ (scheduled events)

def marked (events : List (Event Request)) : List Mark :=
  marks (Shared.steps next ⟨.new, []⟩ (scheduled events))

theorem tracked_run (events : List (Event Request)) :
    ∃ stage, Tracked (ran events) (marked events) stage := by
  have start : ∃ stage, Tracked ⟨.new, []⟩ (marks []) stage := ⟨_, .start⟩
  refine @run_invariant _ _ next (fun s past => ∃ stage, Tracked s (marks past) stage)
    (fun call => ∃ request : Request, request.task = call) ?_ ?_ _ ?_ _ [] start
  · rintro s past _ ⟨request, rfl⟩ ⟨stage, h⟩
    exact ⟨stage, begin h request⟩
  · intro s past i call ⟨stage, h⟩ found
    have noted : marks (past ++ [(s.state, call)]) = marks past ++ (mark call).toList := by
      rw [marks, List.filterMap_append]
      cases here : mark call <;> simp [marks, here]
    rw [noted]
    exact advance h found
  · intro call begun
    obtain ⟨event, -, same⟩ := List.mem_map.mp begun
    cases event with
    | begin request =>
      cases same
      exact ⟨request, rfl⟩
    | advance i => cases same

def AllMembers (b : BrokerCore) : Prop :=
  ∀ id sub key, b.registry.subscriptions.lookup id = some sub → groupKey sub = some key →
    ∃ group, b.queueGroups.lookup key = some group ∧ id ∈ group.members

def OneKey (b : BrokerCore) : Prop :=
  ∀ id sub id' sub' key, b.registry.subscriptions.lookup id = some sub →
    b.registry.subscriptions.lookup id' = some sub' → groupKey sub = some key →
    groupKey sub' = some key → ∃ arc, sub.queueGroupKey = some arc ∧ sub'.queueGroupKey = some arc

def JoinsKept (b : BrokerCore) (marks : List Mark) : Prop :=
  ∀ id sub key, b.registry.subscriptions.lookup id = some sub → groupKey sub = some key →
    ¬DroppedAfterJoin marks key id

def KeysKept (b : BrokerCore) (marks : List Mark) : Prop :=
  ∀ id sub id' sub' key, b.registry.subscriptions.lookup id = some sub →
    b.registry.subscriptions.lookup id' = some sub' → groupKey sub = some key →
    groupKey sub' = some key → ¬DroppedBetween marks key id id'

theorem mem_membersOf {groups : Table QueueGroupKey QueueGroupState} {key : QueueGroupKey}
    {id : SubscriptionId} :
    id ∈ membersOf groups key ↔ ∃ group, groups.lookup key = some group ∧ id ∈ group.members := by
  rw [membersOf]
  cases groups.lookup key <;> simp

section
variable {s : Shared BrokerCore Task} {marks : List Mark} {stage : SubscriptionId → Stage}

theorem arc_of_live (h : Tracked s marks stage) {id : SubscriptionId} {sub : Subscription}
    {key : QueueGroupKey} (live : s.state.registry.subscriptions.lookup id = some sub)
    (grouped : groupKey sub = some key) :
    ∃ arc, arc.key = key ∧ sub.queueGroupKey = some arc ∧ (stage id).heldArc = some arc ∧
      (stage id).joinedArc = some arc := by
  have here := (h.live id sub).mp live
  have wellFormed := h.wellFormed id
  rw [here] at wellFormed
  obtain ⟨arc, held, same⟩ := Option.map_eq_some_iff.mp (wellFormed.2.trans grouped)
  rw [here]
  exact ⟨arc, same, held, held, held⟩

theorem allMembers_iff (h : Tracked s marks stage) :
    AllMembers s.state ↔ JoinsKept s.state marks := by
  refine forall₅_congr fun id sub key live grouped => ?_
  obtain ⟨arc, rfl, -, -, joined⟩ := arc_of_live h live grouped
  rw [← mem_membersOf, h.membership.member joined]

theorem oneKey_iff (h : Tracked s marks stage) :
    OneKey s.state ↔ KeysKept s.state marks := by
  have pair : ∀ {id sub id' sub' key}, s.state.registry.subscriptions.lookup id = some sub →
      s.state.registry.subscriptions.lookup id' = some sub' → groupKey sub = some key →
      groupKey sub' = some key →
      ((∃ arc, sub.queueGroupKey = some arc ∧ sub'.queueGroupKey = some arc) ↔
        ¬DroppedBetween marks key id id' ∧ ¬DroppedBetween marks key id' id) := by
    intro id sub id' sub' key live live' grouped grouped'
    obtain ⟨arc, rfl, holds, held, -⟩ := arc_of_live h live grouped
    obtain ⟨arc', same, holds', held', -⟩ := arc_of_live h live' grouped'
    rw [← h.interning.shared held held' same.symm, holds, holds']
    simp [eq_comm]
  constructor
  · intro one id sub id' sub' key live live' grouped grouped'
    exact ((pair live live' grouped grouped').mp
      (one id sub id' sub' key live live' grouped grouped')).1
  · intro kept id sub id' sub' key live live' grouped grouped'
    exact (pair live live' grouped grouped').mpr
      ⟨kept id sub id' sub' key live live' grouped grouped',
        kept id' sub' id sub key live' live grouped' grouped⟩

end

/-- Whatever the order of the steps: live subscriptions are members of their groups and
share their keys exactly if no group was dropped after one of them joined, and no key
between two of them. -/
theorem queue_groups_iff (events : List (Event Request)) :
    AllMembers (ran events).state ∧ OneKey (ran events).state ↔
      JoinsKept (ran events).state (marked events) ∧
        KeysKept (ran events).state (marked events) := by
  obtain ⟨stage, tracked⟩ := tracked_run events
  exact and_congr (allMembers_iff tracked) (oneKey_iff tracked)

private def jobs : SubjectPattern := parsed (SubjectPattern.parse "jobs".toList) (by decide)
private def pool : QueueGroupName := parsed (QueueGroupName.new "pool".toList) (by decide)
private def jobsPool : QueueGroupKey := ("jobs".toList, "pool".toList)

private def lostJoin : List (Event Request) :=
  [.begin (.subscribe 1 jobs (some pool) 1)] ++ List.replicate 7 (.advance 0) ++
  [.begin (.removeConnection 1)] ++ List.replicate 4 (.advance 0) ++
  [.begin (.subscribe 2 jobs (some pool) 2)] ++ List.replicate 7 (.advance 1) ++
  List.replicate 4 (.advance 0) ++
  [.begin (.subscribe 3 jobs (some pool) 3)] ++ List.replicate 7 (.advance 0)

private def lostJoinState : BrokerCore := (ran lostJoin).state

set_option maxRecDepth 8000 in
/-- Subscription 2 is live but not a member of its group, and holds another key than
subscription 3. -/
theorem join_lost_to_disconnect :
    (ran lostJoin).pending.length = 0 ∧
    (lostJoinState.registry.subscriptions.lookup 2).map groupKey = some (some jobsPool) ∧
    (lostJoinState.registry.subscriptions.lookup 3).map groupKey = some (some jobsPool) ∧
    (lostJoinState.queueGroups.lookup jobsPool).map (·.members) = some [3] ∧
    (lostJoinState.registry.subscriptions.lookup 2).bind (·.queueGroupKey) ≠
      (lostJoinState.registry.subscriptions.lookup 3).bind (·.queueGroupKey) := by
  decide

end ZetMQ.GroupMembership
