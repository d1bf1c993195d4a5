import ZetMQ.GroupStages

/-! The steps of the calls that change queue groups, one after another: each moves at most
one id to its next stage, and the stages and marks account for the groups and the
interned keys as before. -/
namespace ZetMQ.GroupSteps
open Utf8Text SubjectGrammar WildcardTrie KeyedTable Routing Delivery Registry Broker
open Interleaving ConcurrentBroker GroupMarks GroupStages

variable {s : Shared BrokerCore Task} {marks : List Mark} {stage : SubscriptionId → Stage}

variable {i : ℕ} {sub : Subscription} {key : QueueGroupKey} {id : SubscriptionId} {call rest : Task}

section
variable (h : Tracked s marks stage)
include h

theorem advance_subscribe {conn : ConnectionId} {pattern : SubjectPattern}
    {queueGroup : Option QueueGroupName} {delivery : DeliveryHandle}
    (found : s.pending[i]? = some (.subscribe conn pattern queueGroup delivery)) :
    ∃ stage', Tracked (s.advance next i (.subscribe conn pattern queueGroup delivery))
      (marks ++ []) stage' := by
  have unborn := h.fresh s.state.subIdGen le_rfl
  -- the stage that the new id comes to, with or without a group
  suffices born : ∃ st : Stage, st.WellFormed s.state.subIdGen ∧ st.heldArc = none ∧
      st.joinedArc = none ∧ (∀ sub, st ≠ .live sub) ∧
      ∃ task, (next s.state (.subscribe conn pattern queueGroup delivery)).2 = some task ∧
        holds task = some (s.state.subIdGen, st) ∧ retired task = [] by
    obtain ⟨st, wellFormed, unheld, unjoined, notLive, task, rest, held, kept⟩ := born
    refine ⟨_, @Tracked.move _ _ _ h _ _ found s.state.subIdGen st ?_⟩
    exact
      { free := .inr (.inl unborn)
        higher := by simp [unborn, Stage.rank]
        wellFormed := wellFormed
        ids := Nat.le_succ _
        inside := Nat.lt_succ_self _
        frame := fun _ _ => rfl
        live := fun sub => iff_of_false (h.absent (by simp [unborn]) sub) (notLive sub)
        held := by
          simp only [rest, Option.some.injEq, forall_eq', held, Prod.mk.injEq, and_imp]
          exact fun _ _ here there => ⟨here.symm, there⟩
        removed := by simp [rest, kept]
        interns := by simp [mark]
        joins := by simp [mark]
        interning := h.heldArc_same rfl (by rw [unheld, unborn]; rfl)
        membership := h.joinedArc_same rfl (by rw [unjoined, unborn]; rfl) }
  cases queueGroup with
  | none => exact ⟨.joined _, ⟨rfl, rfl⟩, rfl, rfl, by simp, _, rfl, rfl, rfl⟩
  | some group => exact ⟨.starting _ _, ⟨rfl, rfl⟩, rfl, rfl, by simp, _, rfl, rfl, rfl⟩

theorem advance_intern (found : s.pending[i]? = some (.intern sub key)) :
    ∃ stage', Tracked (s.advance next i (.intern sub key)) (marks ++ [.intern key sub.id])
      stage' := by
  have starting : stage sub.id = .starting sub key := h.holding found rfl
  have wellFormed := h.wellFormed sub.id
  rw [starting] at wellFormed
  have new : .intern key sub.id ∉ marks := by
    intro noted
    have rank := h.interned key sub.id noted
    simp [starting, Stage.rank] at rank
  obtain ⟨same, interning⟩ := h.interning.internKey new
  have kept : (s.state.internKey key).1.registry = s.state.registry ∧
      (s.state.internKey key).1.subIdGen = s.state.subIdGen ∧
      (s.state.internKey key).1.queueGroups = s.state.queueGroups := by
    rw [BrokerCore.internKey]
    cases s.state.queueGroupKeys.lookup key <;> exact ⟨rfl, rfl, rfl⟩
  obtain ⟨registry, ids, groups⟩ := kept
  refine ⟨_, @Tracked.move _ _ _ h _ _ found sub.id (.interned
    { sub with queueGroupKey := some (s.state.internKey key).2 } (s.state.internKey key).2) ?_⟩
  exact
    { free := .inl ⟨_, rfl⟩
      higher := by simp [starting, Stage.rank]
      wellFormed := ⟨rfl, rfl, by rw [same]; exact wellFormed.2⟩
      ids := ids.ge
      inside := by
        change _ < (s.state.internKey key).1.subIdGen
        rw [ids]
        exact h.inside (by simp [starting])
      frame := fun other _ => by
        change (s.state.internKey key).1.registry.subscriptions.lookup other = _
        rw [registry]
      live := fun sub' => by
        change (s.state.internKey key).1.registry.subscriptions.lookup sub.id = _ ↔ _
        rw [registry]
        exact iff_of_false (h.absent (by simp [starting]) sub') (by simp)
      held := by simp [next, holds]
      removed := by simp [next, retired]
      interns := by simp [mark, Stage.rank]
      joins := by simp [mark]
      interning := interning
      membership := by
        change Membership (s.state.internKey key).1.queueGroups _ _
        rw [groups]
        have same : (fun other => (stage other).joinedArc) sub.id = none := by
          simp [starting, Stage.joinedArc]
        rw [show Stage.joinedArc _ = none from rfl, ← same, Function.update_eq_self]
        exact h.membership.keyMark (by simp) }

theorem advance_join {arc : KeyArc} (found : s.pending[i]? = some (.join sub arc)) :
    ∃ stage', Tracked (s.advance next i (.join sub arc)) (marks ++ [.join arc.key sub.id])
      stage' := by
  have interned : stage sub.id = .interned sub arc := h.holding found rfl
  have wellFormed := h.wellFormed sub.id
  rw [interned] at wellFormed
  obtain ⟨-, held, key⟩ := wellFormed
  have new : .join arc.key sub.id ∉ marks := by
    intro noted
    have rank := h.joined arc.key sub.id noted
    simp [interned, Stage.rank] at rank
  refine ⟨_, @Tracked.move _ _ _ h _ _ found sub.id (.joined sub) ?_⟩
  exact
    { free := .inl ⟨_, rfl⟩
      higher := by simp [interned, Stage.rank]
      wellFormed := ⟨rfl, by rw [held, key]; rfl⟩
      ids := le_rfl
      inside := h.inside (by simp [interned])
      frame := fun _ _ => rfl
      live := fun sub' => iff_of_false (h.absent (by simp [interned]) sub') (by simp)
      held := by simp [next, holds, Task.adding]
      removed := by simp [next, retired, Task.adding]
      interns := by simp [mark]
      joins := by simp [mark, Stage.rank]
      interning := by
        have same : (Stage.joined sub).heldArc = (stage sub.id).heldArc := by
          rw [interned]
          exact held
        rw [same, Function.update_eq_self]
        exact h.interning.groupMark (by simp) (by simp)
      membership := by
        change Membership _ (Function.update _ sub.id sub.queueGroupKey) _
        rw [held]
        refine h.membership.join sub.id new fun key' => ?_
        change membersOf (upsert arc.key ⟨[], 0⟩ _ s.state.queueGroups) key' = _
        rw [membersOf, lookup_upsert]
        split
        · rename_i here
          rw [here, membersOf]
          cases s.state.queueGroups.lookup arc.key <;> rfl
        · rfl }

theorem advance_insert (found : s.pending[i]? = some (.insert sub)) :
    ∃ stage', Tracked (s.advance next i (.insert sub)) (marks ++ []) stage' := by
  have joined : stage sub.id = .joined sub := h.holding found rfl
  have wellFormed := h.wellFormed sub.id
  rw [joined] at wellFormed
  refine ⟨_, @Tracked.move _ _ _ h _ _ found sub.id (.live sub) ?_⟩
  exact
    { free := .inl ⟨_, rfl⟩
      higher := by simp [joined, Stage.rank]
      wellFormed := wellFormed
      ids := le_rfl
      inside := h.inside (by simp [joined])
      frame := fun _ => AList.lookup_insert_ne
      live := fun sub' => by
        change (s.state.registry.subscriptions.insert sub.id sub).lookup sub.id = _ ↔ _
        rw [AList.lookup_insert, Option.some.injEq, Stage.live.injEq]
      held := by simp [next, holds]
      removed := by simp [next, retired]
      interns := by simp [mark]
      joins := by simp [mark]
      interning := h.heldArc_same rfl (by rw [joined]; rfl)
      membership := h.joinedArc_same rfl (by rw [joined]; rfl) }

end

theorem of_update_none {arcs : SubscriptionId → Option KeyArc} {other : SubscriptionId}
    {arc : KeyArc} (held : Function.update arcs id none other = some arc) :
    arcs other = some arc := by
  by_cases here : other = id
  · simp [here] at held
  · rwa [Function.update_of_ne here] at held

section
variable (h : Tracked s marks stage)
include h

/-- A call that takes a live subscription out of the table. -/
theorem advance_erase (found : s.pending[i]? = some call)
    (present : s.state.registry.subscriptions.lookup id = some sub)
    (moved : next s.state call = ({ s.state with registry := { s.state.registry with
      subscriptions := s.state.registry.subscriptions.erase id } }, some rest))
    (unmarked : mark call = none) (unheld : holds rest = none)
    (removed : ∀ other ∈ retired rest, other ∈ retired call ∨ other = id) :
    ∃ stage', Tracked (s.advance next i call) (marks ++ (mark call).toList) stage' := by
  have live := (h.live id sub).mp present
  refine ⟨_, @Tracked.move _ _ _ h _ _ found id .gone ?_⟩
  exact
    { free := .inr (.inr ⟨sub, live⟩)
      higher := by simp [live, Stage.rank]
      wellFormed := trivial
      ids := by rw [moved]
      inside := by
        rw [moved]
        exact h.inside (by simp [live])
      frame := fun _ different => by
        rw [moved]
        exact AList.lookup_erase_ne different
      live := fun sub' => by
        rw [moved]
        simp
      held := by simp [moved, unheld]
      removed := by simpa [moved] using removed
      interns := by simp [unmarked]
      joins := by simp [unmarked]
      interning := by
        rw [moved, unmarked, Option.toList_none, List.append_nil]
        exact h.interning.fewer fun _ _ => of_update_none
      membership := by
        rw [moved, unmarked, Option.toList_none, List.append_nil]
        exact h.membership.fewer fun _ _ => of_update_none }

theorem advance_unsubscribe {conn : ConnectionId}
    (found : s.pending[i]? = some (.unsubscribe conn id)) :
    ∃ stage', Tracked (s.advance next i (.unsubscribe conn id)) (marks ++ []) stage' := by
  cases present : s.state.registry.subscriptions.lookup id with
  | none =>
    have moved : next s.state (.unsubscribe conn id) = (s.state, none) := by rw [next, present]
    refine ⟨stage, h.quiet found rfl ?_ ?_ ?_ ?_ ?_ ?_ ?_⟩
    all_goals simp [moved]
  | some sub =>
    exact advance_erase h found present (by rw [next, present]) rfl rfl (by simp [retired])

theorem advance_remove {ids : List SubscriptionId} {removed : List Subscription}
    (found : s.pending[i]? = some (.remove id ids removed)) :
    ∃ stage', Tracked (s.advance next i (.remove id ids removed)) (marks ++ []) stage' := by
  cases present : s.state.registry.subscriptions.lookup id with
  | none =>
    have moved : next s.state (.remove id ids removed) =
        (s.state, some (.removing removed ids)) := by rw [next, present]
    refine ⟨stage, h.quiet found rfl ?_ ?_ ?_ ?_ ?_ ?_ ?_⟩
    case refine_7 => simpa [moved, retired] using retired_removing removed ids
    all_goals simp [moved, holds]
  | some sub =>
    have wellFormed := h.wellFormed id
    rw [(h.live id sub).mp present] at wellFormed
    have moved : next s.state (.remove id ids removed) =
        ({ s.state with registry := { s.state.registry with
          subscriptions := s.state.registry.subscriptions.erase id } },
        some (.route (.remove sub.pattern id) (.removing (removed ++ [sub]) ids))) := by
      rw [next, present]
    refine advance_erase h found present moved rfl (holds_removing ..) fun other out => ?_
    have member := retired_removing (removed ++ [sub]) ids out
    rw [List.map_append, List.mem_append, List.map_singleton, wellFormed.1,
      List.mem_singleton] at member
    exact member

/-- A step that only takes members that are gone out of one group. -/
theorem advance_retain (key : QueueGroupKey) (out : List SubscriptionId)
    {groups : Table QueueGroupKey QueueGroupState} (found : s.pending[i]? = some call)
    (unmarked : mark call = none)
    (moved : next s.state call = ({ s.state with queueGroups := groups }, some rest))
    (members : ∀ key', membersOf groups key' = if key' = key then
      (membersOf s.state.queueGroups key).filter (· ∉ out) else membersOf s.state.queueGroups key')
    (gone : out ⊆ retired call) (held : holds rest = holds call)
    (removed : retired rest ⊆ retired call) :
    Tracked (s.advance next i call) (marks ++ (mark call).toList) stage := by
  refine h.stay found (by rw [moved]) (by rw [moved]) (by simpa [moved] using held)
    (by simpa [moved] using removed) (by simp [unmarked]) (by simp [unmarked]) ?_ ?_
  · rw [moved, unmarked, Option.toList_none, List.append_nil]
    exact h.interning
  · rw [moved, unmarked, Option.toList_none, List.append_nil]
    refine h.membership.retain fun id arc joined => ?_
    have stays : id ∉ out := by
      intro leaves
      have left := h.linked.removed call (List.mem_of_getElem? found) id (gone leaves)
      simp [left, Stage.joinedArc] at joined
    rw [members]
    split
    · rename_i here
      simp [here, stays]
    · rfl

theorem advance_leave (found : s.pending[i]? = some (.leave id key)) :
    Tracked (s.advance next i (.leave id key)) (marks ++ []) stage := by
  refine advance_retain h key [id] found rfl rfl (fun key' => ?_) (by simp [retired]) rfl
    (by simp [retired])
  rw [membersOf, lookup_modify]
  split
  · rw [membersOf]
    cases s.state.queueGroups.lookup key <;> simp
  · rfl

theorem advance_retainAll {removed rest : List Subscription}
    (found : s.pending[i]? = some (.retain key removed rest)) :
    Tracked (s.advance next i (.retain key removed rest)) (marks ++ []) stage := by
  have cleaned := retired_cleaning removed rest
  cases present : s.state.queueGroups.lookup key with
  | none =>
    have moved : next s.state (.retain key removed rest) =
        (s.state, some (.cleaning removed rest)) := by rw [next, present]
    refine h.quiet found rfl ?_ ?_ ?_ ?_ ?_ ?_ ?_
    case refine_7 => simpa [moved, retired] using cleaned
    all_goals simp [moved, holds]
  | some group =>
    refine advance_retain h key (removed.map (·.id)) found rfl (by rw [next, present])
      (fun key' => ?_) (by simp [retired]) ?_ ?_
    · rw [membersOf, lookup_insert_ite]
      split
      · rw [membersOf, present]
        rfl
      · rfl
    · split
      · rfl
      · exact holds_cleaning ..
    · split
      · exact List.Subset.refl _
      · exact cleaned

theorem advance_unlist (found : s.pending[i]? = some (.unlist id sub)) :
    Tracked (s.advance next i (.unlist id sub)) (marks ++ []) stage := by
  refine h.quiet found rfl rfl rfl rfl rfl rfl ?_ ?_
  all_goals
    rw [next]
    cases sub.queueGroupKey <;> simp [holds, retired]

theorem advance_route {step : WildcardFlag.Call} (found : s.pending[i]? = some (.route step rest)) :
    Tracked (s.advance next i (.route step rest)) (marks ++ []) stage := by
  refine h.quiet found rfl rfl rfl rfl rfl rfl ?_ ?_
  all_goals
    simp only [next]
    cases (WildcardFlag.next s.state.router step).2 <;> simp [holds, retired]

theorem advance (found : s.pending[i]? = some call) :
    ∃ stage', Tracked (s.advance next i call) (marks ++ (mark call).toList) stage' := by
  cases call with
  | subscribe => exact advance_subscribe h found
  | intern => exact advance_intern h found
  | join => exact advance_join h found
  | insert => exact advance_insert h found
  | unsubscribe => exact advance_unsubscribe h found
  | remove => exact advance_remove h found
  | leave => exact ⟨stage, advance_leave h found⟩
  | retain => exact ⟨stage, advance_retainAll h found⟩
  | dropGroup key removed rest =>
    exact ⟨stage, h.stay found rfl rfl (by simp [next, holds]) (by simp [next, retired])
      (by simp [mark]) (by simp [mark]) (h.interning.groupMark (by simp) (by simp))
      (h.membership.dropGroup key)⟩
  | dropKey key removed rest =>
    refine ⟨stage, h.stay found rfl rfl (by simp [next, holds]) ?_
      (by simp [mark]) (by simp [mark]) (h.interning.dropKey key)
      (h.membership.keyMark (by simp))⟩
    simpa [next, retired] using retired_cleaning removed rest
  | route => exact ⟨stage, advance_route h found⟩
  | unlist => exact ⟨stage, advance_unlist h found⟩
  | removeConnection conn =>
    refine ⟨stage, h.quiet found rfl rfl rfl rfl rfl rfl (by simp [next, holds]) ?_⟩
    simpa [next, retired] using retired_removing [] _
  | list | uncount =>
    exact ⟨stage, h.quiet found rfl rfl rfl rfl rfl rfl (by simp [next, holds])
      (by simp [next, retired])⟩
  | incSubscriptions | decSubscriptions | decActiveConnections =>
    exact ⟨stage, h.quiet found rfl rfl rfl rfl rfl rfl (by simp [next]) (by simp [next])⟩

end

end ZetMQ.GroupSteps
