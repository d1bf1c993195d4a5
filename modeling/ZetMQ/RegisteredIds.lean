import ZetMQ.BrokerRefinement
import ZetMQ.GroupMembership

/-! The tables of the broker while subscribe and unsubscribe calls overlap. A registered id is
listed by the router, is a member of its group and holds the interned key of the group:
subscribe enters the registry last, and unsubscribe leaves it first. -/
namespace ZetMQ.RegisteredIds
open Utf8Text SubjectGrammar WildcardTrie KeyedTable Routing RoutingTable Delivery Registry Broker
open Interleaving ConcurrentBroker GroupMarks GroupStages GroupSteps GroupMembership
open DeliveryFrame BrokerRefinement

def carries : Task → Option Subscription
  | .intern sub _ => some sub
  | .join sub _ => some sub
  | .insert sub => some sub
  | .route _ rest => carries rest
  | _ => none

/-- What is left of subscribe and unsubscribe calls, and what the router lists for them. -/
inductive Proper (router : RoutingEngine) : Task → Prop where
  | subscribe (conn : ConnectionId) (pattern : SubjectPattern)
      (group : Option QueueGroupName) (handle : DeliveryHandle) :
      Proper router (.subscribe conn pattern group handle)
  | intern (sub : Subscription) (key : QueueGroupKey) : Proper router (.intern sub key)
  | join (sub : Subscription) (arc : KeyArc) : Proper router (.join sub arc)
  | routeIn (sub : Subscription) :
      Proper router (.route (.insert sub.pattern sub.id) (.insert sub))
  | flagIn (sub : Subscription) (listed : sub.id ∈ router.idsAt (slotOf sub.pattern)) :
      Proper router (.route .setFlag (.insert sub))
  | insert (sub : Subscription) (listed : sub.id ∈ router.idsAt (slotOf sub.pattern)) :
      Proper router (.insert sub)
  | list (sub : Subscription) : Proper router (.list sub)
  | incSubscriptions : Proper router .incSubscriptions
  | unsubscribe (conn : ConnectionId) (id : SubscriptionId) :
      Proper router (.unsubscribe conn id)
  | routeOut (pattern : SubjectPattern) (id : SubscriptionId) (sub : Subscription) :
      Proper router (.route (.remove pattern id) (.unlist id sub))
  | testOut (id : SubscriptionId) (sub : Subscription) :
      Proper router (.route .testEmpty (.unlist id sub))
  | flagOut (id : SubscriptionId) (sub : Subscription) :
      Proper router (.route .clearFlag (.unlist id sub))
  | unlist (id : SubscriptionId) (sub : Subscription) : Proper router (.unlist id sub)
  | leave (id : SubscriptionId) (key : QueueGroupKey) : Proper router (.leave id key)
  | decSubscriptions : Proper router .decSubscriptions

theorem Proper.mono {router router' : RoutingEngine} {task : Task} (proper : Proper router task)
    (listed : ∀ sub, carries task = some sub → sub.id ∈ router.idsAt (slotOf sub.pattern) →
      sub.id ∈ router'.idsAt (slotOf sub.pattern)) : Proper router' task := by
  cases proper with
  | flagIn sub here => exact .flagIn sub (listed sub rfl here)
  | insert sub here => exact .insert sub (listed sub rfl here)
  | _ => constructor

theorem Proper.mark_ne {router : RoutingEngine} {task : Task} (proper : Proper router task)
    (key : QueueGroupKey) :
    mark task ≠ some (.dropGroup key) ∧ mark task ≠ some (.dropKey key) := by
  cases proper <;> simp [mark]

section
variable (router : RoutingEngine)

theorem idsAt_next_insert (pattern : SubjectPattern) (id : SubscriptionId) (slot : Slot) :
    (WildcardFlag.next router (.insert pattern id)).1.idsAt slot =
      if slotOf pattern = slot then router.idsAt slot ++ [id] else router.idsAt slot := by
  rw [← idsAt_insert, WildcardFlag.next, RoutingEngine.insert]
  cases hasWildcard pattern <;> cases slot <;> rfl

theorem idsAt_next_remove (pattern : SubjectPattern) (id : SubscriptionId) (slot : Slot) :
    (WildcardFlag.next router (.remove pattern id)).1.idsAt slot =
      if slotOf pattern = slot then (router.idsAt slot).filter (· ≠ id)
      else router.idsAt slot := by
  rw [← idsAt_remove, WildcardFlag.next, RoutingEngine.remove]
  cases hasWildcard pattern <;> cases slot <;> rfl

theorem idsAt_flag (flag : Bool) (slot : Slot) :
    { router with hasWildcards := flag }.idsAt slot = router.idsAt slot := by
  cases slot <;> rfl

end

theorem carries_holds {task : Task} {sub : Subscription} (carried : carries task = some sub) :
    ∃ stage, holds task = some (sub.id, stage) := by
  induction task with
  | route _ _ ih => exact ih carried
  | intern | join | insert =>
    cases carried
    exact ⟨_, rfl⟩
  | _ => cases carried

theorem retired_gone {s : Shared BrokerCore Task} {marks : List Mark}
    {stage : SubscriptionId → Stage} (h : Tracked s marks stage) {task : Task}
    (member : task ∈ s.pending) {id : SubscriptionId} (out : id ∈ retired task) :
    (∀ sub, s.state.registry.subscriptions.lookup id ≠ some sub) ∧
      ∀ other ∈ s.pending, ∀ sub, carries other = some sub → sub.id ≠ id := by
  have gone := h.linked.removed task member id out
  refine ⟨h.absent (by rw [gone]; exact nofun), ?_⟩
  rintro other listed sub carried rfl
  obtain ⟨st, held⟩ := carries_holds carried
  have rank := holds_rank held
  rw [← h.linked.held other listed _ st held, gone] at rank
  exact absurd rank.2 (by simp [Stage.rank])

structure Sound (s : Shared BrokerCore Task) : Prop where
  tracked : ∃ marks stage, Tracked s marks stage ∧
    ∀ key, .dropGroup key ∉ marks ∧ .dropKey key ∉ marks
  proper : ∀ task ∈ s.pending, Proper s.state.router task
  interned : Interned s.state.queueGroupKeys s.state.nextAddr
  registered : ∀ id sub, s.state.registry.subscriptions.lookup id = some sub →
    id ∈ s.state.router.idsAt (slotOf sub.pattern)

theorem sound_new : Sound ⟨.new, []⟩ where
  tracked := ⟨[], _, .start, by simp⟩
  proper := by simp
  interned := refines_new.interned
  registered := by simp [BrokerCore.new, SubscriptionRegistry.new]

section
variable {s : Shared BrokerCore Task} {i : ℕ} {call : Task}

section
variable (h : Sound s)
include h

section
variable (found : s.pending[i]? = some call)
  (interned : Interned (next s.state call).1.queueGroupKeys (next s.state call).1.nextAddr)
  (rest : ∀ task, (next s.state call).2 = some task → Proper (next s.state call).1.router task)
include found interned rest

theorem Sound.step (kept : ∀ slot id, id ∈ s.state.router.idsAt slot →
      id ∈ (next s.state call).1.router.idsAt slot ∨ id ∈ retired call)
    (registered : ∀ id sub, (next s.state call).1.registry.subscriptions.lookup id = some sub →
      s.state.registry.subscriptions.lookup id = some sub ∨
        id ∈ (next s.state call).1.router.idsAt (slotOf sub.pattern)) :
    Sound (s.advance next i call) := by
  obtain ⟨marks, stage, tracked, undropped⟩ := h.tracked
  have here := List.mem_of_getElem? found
  have gone {id : SubscriptionId} (out : id ∈ retired call) := retired_gone tracked here out
  refine ⟨?_, fun task member => ?_, interned, fun id sub lookup => ?_⟩
  · obtain ⟨stage', after⟩ := advance tracked found
    refine ⟨_, stage', after, fun key => ?_⟩
    have marked := (h.proper call here).mark_ne key
    simp only [List.mem_append, Option.mem_toList, not_or]
    exact ⟨⟨(undropped key).1, marked.1⟩, (undropped key).2, marked.2⟩
  · rcases mem_of_mem_advance next found member with new | old
    · exact rest task new
    · refine (h.proper task old).mono fun sub carried listed => ?_
      exact (kept _ _ listed).resolve_right fun out => (gone out).2 task old sub carried rfl
  · rcases registered id sub lookup with old | new
    · exact (kept _ _ (h.registered id sub old)).resolve_right fun out => (gone out).1 sub old
    · exact new

theorem Sound.quiet
    (router : ∀ slot, (next s.state call).1.router.idsAt slot = s.state.router.idsAt slot)
    (subscriptions : ∀ id sub, (next s.state call).1.registry.subscriptions.lookup id = some sub →
      s.state.registry.subscriptions.lookup id = some sub) : Sound (s.advance next i call) :=
  h.step found interned rest (fun slot _ listed => .inl (router slot ▸ listed))
    fun id sub lookup => .inl (subscriptions id sub lookup)

end

theorem advance_intern {sub : Subscription} {key : QueueGroupKey}
    (found : s.pending[i]? = some (.intern sub key)) :
    Sound (s.advance next i (.intern sub key)) := by
  obtain ⟨keys, addr, arc, interning, -, -, -, interned⟩ := internKey_spec s.state key h.interned
  have moved : next s.state (.intern sub key) =
      ({ s.state with queueGroupKeys := keys, nextAddr := addr },
        some (.join { sub with queueGroupKey := some arc } arc)) := by
    rw [next, interning]
  refine h.quiet found ?_ ?_ (fun slot => ?_) ?_ <;> rw [moved]
  · exact interned
  · intro task left
    cases left
    exact .join _ _
  · rfl
  · exact fun _ _ lookup => lookup

theorem advance_routeIn {sub : Subscription}
    (found : s.pending[i]? = some (.route (.insert sub.pattern sub.id) (.insert sub))) :
    Sound (s.advance next i (.route (.insert sub.pattern sub.id) (.insert sub))) := by
  have listed : sub.id ∈ (WildcardFlag.next s.state.router
      (.insert sub.pattern sub.id)).1.idsAt (slotOf sub.pattern) := by
    rw [idsAt_next_insert, if_pos rfl]
    simp
  have remains : (next s.state (.route (.insert sub.pattern sub.id) (.insert sub))).2 =
      some (if hasWildcard sub.pattern then .route .setFlag (.insert sub) else .insert sub) := by
    rw [next, WildcardFlag.next]
    cases hasWildcard sub.pattern <;> rfl
  refine h.step found h.interned (fun task left => ?_) (fun slot id old => ?_) fun _ _ => .inl
  · rw [remains] at left
    cases left
    split_ifs
    exacts [.flagIn sub listed, .insert sub listed]
  · change id ∈ (WildcardFlag.next s.state.router (.insert sub.pattern sub.id)).1.idsAt slot ∨ _
    rw [idsAt_next_insert]
    split_ifs
    exacts [.inl (List.mem_append_left _ old), .inl old]

theorem advance_routeOut {pattern : SubjectPattern} {id : SubscriptionId} {sub : Subscription}
    (found : s.pending[i]? = some (.route (.remove pattern id) (.unlist id sub))) :
    Sound (s.advance next i (.route (.remove pattern id) (.unlist id sub))) := by
  have remains : (next s.state (.route (.remove pattern id) (.unlist id sub))).2 =
      some (if hasWildcard pattern then .route .testEmpty (.unlist id sub)
        else .unlist id sub) := by
    rw [next, WildcardFlag.next]
    cases hasWildcard pattern <;> rfl
  refine h.step found h.interned (fun task left => ?_) (fun slot other listed => ?_) fun _ _ => .inl
  · rw [remains] at left
    cases left
    split_ifs
    exacts [.testOut id sub, .unlist id sub]
  · change other ∈ (WildcardFlag.next s.state.router (.remove pattern id)).1.idsAt slot ∨ _
    rw [idsAt_next_remove]
    by_cases here : other = id
    · exact .inr (List.mem_singleton.mpr here)
    · split_ifs
      exacts [.inl (List.mem_filter.mpr ⟨listed, by simpa using here⟩), .inl listed]

theorem advance_insert {sub : Subscription} (found : s.pending[i]? = some (.insert sub))
    (listed : sub.id ∈ s.state.router.idsAt (slotOf sub.pattern)) :
    Sound (s.advance next i (.insert sub)) := by
  refine h.step found h.interned (fun task left => ?_) (fun _ _ => .inl) fun id sub' lookup => ?_
  · cases left
    exact .list sub
  · rw [next, lookup_insert_eq_some] at lookup
    obtain ⟨rfl, rfl⟩ | ⟨-, old⟩ := lookup
    exacts [.inr listed, .inl old]

theorem advance_unsubscribe {conn : ConnectionId} {id : SubscriptionId}
    (found : s.pending[i]? = some (.unsubscribe conn id)) :
    Sound (s.advance next i (.unsubscribe conn id)) := by
  cases lookup : s.state.registry.subscriptions.lookup id with
  | none =>
    have moved : next s.state (.unsubscribe conn id) = (s.state, none) := by rw [next, lookup]
    refine h.quiet found ?_ ?_ (fun slot => ?_) ?_ <;> rw [moved]
    · exact h.interned
    · exact fun _ left => by cases left
    · exact fun _ _ same => same
  | some sub =>
    have moved : next s.state (.unsubscribe conn id) =
        ({ s.state with registry := { s.state.registry with
            subscriptions := s.state.registry.subscriptions.erase id } },
          some (.route (.remove sub.pattern id) (.unlist id sub))) := by rw [next, lookup]
    refine h.quiet found ?_ ?_ (fun slot => ?_) ?_ <;> rw [moved]
    · exact h.interned
    · intro task left
      cases left
      exact .routeOut _ _ _
    · rfl
    · exact fun _ _ same => (lookup_erase_eq_some.mp same).2

theorem Sound.advance (found : s.pending[i]? = some call) : Sound (s.advance next i call) := by
  have quiet (interned : (next s.state call).1.queueGroupKeys = s.state.queueGroupKeys ∧
      (next s.state call).1.nextAddr = s.state.nextAddr)
      (router : ∀ slot, (next s.state call).1.router.idsAt slot = s.state.router.idsAt slot)
      (registry : (next s.state call).1.registry.subscriptions = s.state.registry.subscriptions)
      (rest : ∀ task, (next s.state call).2 = some task →
        Proper (next s.state call).1.router task) :
      Sound (s.advance next i call) := by
    refine h.quiet found ?_ rest router fun id sub lookup => registry ▸ lookup
    rw [interned.1, interned.2]
    exact h.interned
  cases h.proper call (List.mem_of_getElem? found) with
  | subscribe conn pattern group handle =>
    refine quiet ⟨rfl, rfl⟩ (fun _ => rfl) rfl fun task left => ?_
    cases group <;> cases left
    exacts [.routeIn _, .intern _ _]
  | intern sub key => exact advance_intern h found
  | join sub arc =>
    refine quiet ⟨rfl, rfl⟩ (fun _ => rfl) rfl fun task left => ?_
    cases left
    exact .routeIn _
  | routeIn sub => exact advance_routeIn h found
  | flagIn sub listed =>
    refine quiet ⟨rfl, rfl⟩ (idsAt_flag _ true) rfl fun task left => ?_
    cases left
    exact .insert sub (idsAt_flag .. ▸ listed)
  | insert sub listed => exact advance_insert h found listed
  | list sub =>
    refine quiet ⟨rfl, rfl⟩ (fun _ => rfl) rfl fun task left => ?_
    cases left
    exact .incSubscriptions
  | unsubscribe conn id => exact advance_unsubscribe h found
  | routeOut pattern id sub => exact advance_routeOut h found
  | testOut id sub =>
    refine quiet ⟨rfl, rfl⟩ (fun _ => rfl) rfl fun task left => ?_
    have remains : (next s.state (.route .testEmpty (.unlist id sub))).2 =
        some (if s.state.router.wildcardTrie.isEmpty then .route .clearFlag (.unlist id sub)
          else .unlist id sub) := by
      rw [next, WildcardFlag.next]
      cases s.state.router.wildcardTrie.isEmpty <;> rfl
    rw [remains] at left
    cases left
    split_ifs
    exacts [.flagOut id sub, .unlist id sub]
  | flagOut id sub =>
    refine quiet ⟨rfl, rfl⟩ (idsAt_flag _ false) rfl fun task left => ?_
    cases left
    exact .unlist id sub
  | unlist id sub =>
    refine quiet ⟨rfl, rfl⟩ (fun _ => rfl) rfl fun task left => ?_
    rw [next] at left
    cases key : sub.queueGroupKey with
    | none =>
      simp only [key, Option.some.injEq] at left
      exact left ▸ .decSubscriptions
    | some arc =>
      simp only [key, Option.some.injEq] at left
      exact left ▸ .leave id arc.key
  | leave id key =>
    refine quiet ⟨rfl, rfl⟩ (fun _ => rfl) rfl fun task left => ?_
    cases left
    exact .decSubscriptions
  | incSubscriptions | decSubscriptions =>
    refine quiet ⟨rfl, rfl⟩ (fun _ => rfl) rfl fun task left => ?_
    cases left

end

/-- The calls that change the members of groups one at a time. -/
inductive Change where
  | subscribe (conn : ConnectionId) (pattern : SubjectPattern) (group : Option QueueGroupName)
      (handle : DeliveryHandle)
  | unsubscribe (conn : ConnectionId) (id : SubscriptionId)

def Change.request : Change → Request
  | .subscribe conn pattern group handle => .subscribe conn pattern group handle
  | .unsubscribe conn id => .unsubscribe conn id

def Change.task (change : Change) : Task := change.request.task

theorem Sound.begin (h : Sound s) (change : Change) :
    Sound { s with pending := s.pending ++ [change.task] } := by
  obtain ⟨marks, stage, tracked, undropped⟩ := h.tracked
  refine ⟨⟨marks, stage, GroupMembership.begin tracked change.request, undropped⟩,
    fun task member => ?_, h.interned, h.registered⟩
  rcases List.mem_append.mp member with old | new
  · exact h.proper task old
  · rw [List.mem_singleton.mp new]
    cases change <;> constructor

theorem Sound.frame {b : BrokerCore} (h : Sound s) (same : SameSubscriptions s.state b) :
    Sound ⟨b, s.pending⟩ := by
  obtain ⟨marks, stage, tracked, undropped⟩ := h.tracked
  refine ⟨⟨marks, stage, ?_, undropped⟩, ?_, ?_, ?_⟩
  · exact {
      linked := tracked.linked
      live := same.registry ▸ tracked.live
      fresh := same.nextId ▸ tracked.fresh
      wellFormed := tracked.wellFormed
      interned := tracked.interned
      joined := tracked.joined
      interning := by
        rw [same.keys, same.nextAddr]
        exact tracked.interning
      membership := tracked.membership.retain fun id arc _ => by
        rw [show membersOf b.queueGroups arc.key = membersOf s.state.queueGroups arc.key from
          same.members arc.key] }
  · rw [BrokerCore.router, same.registry]
    exact h.proper
  · rw [same.keys, same.nextAddr]
    exact h.interned
  · rw [BrokerCore.router, same.registry]
    exact h.registered

variable {id : SubscriptionId} {sub : Subscription}

theorem Sound.live_arc (h : Sound s)
    (found : s.state.registry.subscriptions.lookup id = some sub) {arc : KeyArc}
    (held : sub.queueGroupKey = some arc) : s.state.queueGroupKeys.lookup arc.key = some arc := by
  obtain ⟨marks, stage, tracked, undropped⟩ := h.tracked
  have holds : (stage id).heldArc = some arc := by
    rw [(tracked.live id sub).mp found]
    exact held
  rw [tracked.interning.current holds]
  exact fun dropped => (undropped arc.key).2 (dropped.subset (by simp))

theorem Sound.live_member (h : Sound s)
    (found : s.state.registry.subscriptions.lookup id = some sub) {key : QueueGroupKey}
    (grouped : groupKey sub = some key) :
    (∃ arc, sub.queueGroupKey = some arc ∧ arc.key = key) ∧
      id ∈ membersOf s.state.queueGroups key := by
  obtain ⟨marks, stage, tracked, undropped⟩ := h.tracked
  obtain ⟨arc, rfl, held, -, joined⟩ := arc_of_live tracked found grouped
  refine ⟨⟨arc, held, rfl⟩, (tracked.membership.member joined).mpr ?_⟩
  exact fun dropped => (undropped arc.key).1 (dropped.subset (by simp))

end

end ZetMQ.RegisteredIds
