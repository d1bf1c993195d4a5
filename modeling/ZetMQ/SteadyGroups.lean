import ZetMQ.PublishScene
import ZetMQ.QueueGroups
import Mathlib.Data.List.Infix

/-! A queue group with a member that stays registered while a message is published. The
publish takes one turn of the group. A subscribe that has joined the group and is not yet in
the registry, or an unsubscribe that has left the registry and is still in the group, loses
the message if the turn is its own; whose turn it is tells the round-robin index. -/
namespace ZetMQ.SteadyGroups
open Utf8Text SubjectGrammar WildcardTrie KeyedTable Routing RoutingTable Delivery Registry Broker
open Interleaving ConcurrentBroker ConcurrentPublish GroupMarks GroupStages
open RegisteredIds PublishScene QueueGroups

def indexOf (b : BrokerCore) (key : QueueGroupKey) : Option ℕ :=
  (b.queueGroups.lookup key).map (·.currentIndex)

def turnOf (b : BrokerCore) (key : QueueGroupKey) : Option SubscriptionId :=
  (b.queueGroups.lookup key).bind fun group =>
    group.members[group.currentIndex % group.members.length]?

theorem mem_of_turnOf {b : BrokerCore} {key : QueueGroupKey} {member : SubscriptionId}
    (turn : turnOf b key = some member) : member ∈ membersOf b.queueGroups key := by
  obtain ⟨group, found, here⟩ := Option.bind_eq_some_iff.mp turn
  rw [membersOf, found]
  exact List.mem_of_getElem? here

theorem indexOf_calls {b : BrokerCore} {call : Task} (proper : Proper b.router call)
    {key : QueueGroupKey} {index : ℕ} (here : indexOf b key = some index) :
    indexOf (ConcurrentBroker.next b call).1 key = some index := by
  obtain ⟨group, found, rfl⟩ := Option.map_eq_some_iff.mp here
  cases proper with
  | intern sub own =>
    rw [ConcurrentBroker.next, BrokerCore.internKey]
    cases b.queueGroupKeys.lookup own <;> exact here
  | join sub arc =>
    rw [ConcurrentBroker.next, BrokerCore.joinGroup, indexOf, lookup_upsert]
    split_ifs with own
    · subst own
      simp [found]
    · simp [found]
  | unsubscribe conn id =>
    rw [ConcurrentBroker.next]
    cases b.registry.subscriptions.lookup id <;> exact here
  | leave id own =>
    rw [ConcurrentBroker.next, indexOf, lookup_modify]
    split_ifs with same
    · subst same
      simp [found]
    · simp [found]
  | _ => exact here

theorem indexOf_publish (env : DeliveryPolicy) (message : Message) (b : BrokerCore)
    {key : QueueGroupKey} {left : Publishing} (other : ∀ loop, left ≠ .pick key loop) :
    indexOf (ConcurrentPublish.next env message b left).1 key = indexOf b key := by
  cases left with
  | pick turn loop =>
    have apart : key ≠ turn := fun same => other loop (same ▸ rfl)
    rw [ConcurrentPublish.next]
    cases b.queueGroups.lookup turn with
    | none => rfl
    | some group =>
      dsimp only
      split_ifs
      · rfl
      · exact congrArg _ (AList.lookup_insert_ne apart)
  | _ => rfl

theorem calls_next (b : BrokerCore) (call : Task) :
    (ConcurrentBroker.next b call).1.calls = b.calls := by
  cases call with
  | intern sub key =>
    rw [ConcurrentBroker.next, BrokerCore.internKey]
    cases b.queueGroupKeys.lookup key <;> rfl
  | unsubscribe conn id =>
    rw [ConcurrentBroker.next]
    cases b.registry.subscriptions.lookup id <;> rfl
  | remove id ids removed =>
    rw [ConcurrentBroker.next]
    cases b.registry.subscriptions.lookup id <;> rfl
  | retain key removed rest =>
    rw [ConcurrentBroker.next]
    cases b.queueGroups.lookup key <;> rfl
  | _ => rfl

theorem called_proceed (env : DeliveryPolicy) (message : Message) {scene : Scene}
    {id : SubscriptionId} (sent : id ∈ scene.called) (left : Publishing) :
    id ∈ (scene.proceed env message left).called := by
  cases left with
  | send target loop =>
    rw [Scene.called, Scene.proceed, ConcurrentPublish.next]
    exact List.map_append ▸ List.mem_append_left _ sent
  | pick key loop =>
    rw [Scene.called, Scene.broker, Scene.proceed, ConcurrentPublish.next]
    cases scene.broker.queueGroups.lookup key with
    | none => exact sent
    | some group =>
      dsimp only
      split_ifs <;> exact sent
  | _ => exact sent

section
variable (id : SubscriptionId) (sub : Subscription) (key : QueueGroupKey)

def DueLoop (loop : Loop) : Prop :=
  id ∈ loop.rest ∨ loop.members ≠ [] ∧ ∃ arc, loop.lastKey = some arc ∧ arc.key = key

def DueStage : Publishing → Prop
  | .start => True
  | .exact => True
  | .flag ids => hasWildcard sub.pattern = false → id ∈ ids
  | .trie ids => hasWildcard sub.pattern = false → id ∈ ids
  | .visit other loop => other = id ∨ DueLoop id key loop
  | .pick turn loop => turn = key ∨ DueLoop id key loop
  | .lookup _ _ loop => DueLoop id key loop
  | .send _ loop => DueLoop id key loop
  | .count _ loop => DueLoop id key loop

variable {id sub key} {loop : Loop}

theorem DueLoop.resume (due : DueLoop id key loop) :
    ∃ left, loop.resume = some left ∧ DueStage id sub key left := by
  obtain ⟨rest, fanout, members, lastKey⟩ := loop
  cases rest with
  | cons other rest =>
    refine ⟨_, rfl, ?_⟩
    rcases due with ahead | held
    · exact (List.mem_cons.mp ahead).imp Eq.symm .inl
    · exact .inr (.inr held)
  | nil =>
    obtain ⟨filled, arc, rfl, rfl⟩ := due.resolve_left List.not_mem_nil
    cases members with
    | nil => exact absurd rfl filled
    | cons member members => exact ⟨_, rfl, .inl rfl⟩

theorem DueLoop.enter {other : SubscriptionId} {arc : KeyArc}
    (due : arc.key = key ∨ DueLoop id key loop)
    (distinct : ∀ last, loop.lastKey = some last → last.addr = arc.addr → last = arc) :
    ∃ left, loop.enter other arc = some left ∧ DueStage id sub key left := by
  have opened (members : List SubscriptionId) (filled : members ≠ [])
      (due : arc.key = key ∨ id ∈ loop.rest) :
      DueLoop id key { loop with members := members, lastKey := some arc } :=
    due.elim (fun own => .inr ⟨filled, arc, rfl, own⟩) .inl
  rw [Loop.enter]
  cases last : loop.lastKey with
  | none =>
    refine (opened _ (by simp) (due.imp_right fun due => due.resolve_right ?_)).resume
    simp [last]
  | some last' =>
    by_cases same : last'.addr = arc.addr
    · cases distinct last' last same
      simp only [beq_self_eq_true, if_true]
      refine DueLoop.resume ?_
      rcases due with own | ahead | ⟨-, arc', held, own⟩
      · exact .inr ⟨by simp, arc, rfl, own⟩
      · exact .inl ahead
      · exact .inr ⟨by simp, arc', last ▸ held, own⟩
    · simp only [beq_iff_eq, if_neg same]
      cases empty : loop.members.isEmpty with
      | true =>
        refine (opened [other] (by simp) (due.imp_right fun due => due.resolve_right ?_)).resume
        simp [List.isEmpty_iff.mp empty]
      | false =>
        refine ⟨_, rfl, ?_⟩
        rcases due with own | ahead | ⟨-, arc', held, own⟩
        · exact .inr (opened [other] (by simp) (.inl own))
        · exact .inr (opened [other] (by simp) (.inr ahead))
        · cases last.symm.trans held
          exact .inl own

section
variable {scene : Scene} {message : Message}

theorem listed (message : Message) (kept : Kept scene)
    (found : scene.broker.registry.getRef id = some sub)
    (wanted : sub.pattern.matches message.subject = true) :
    (hasWildcard sub.pattern = true →
      id ∈ scene.broker.router.wildcardTrie.matchSubject message.subject) ∧
    (hasWildcard sub.pattern = false →
      id ∈ (scene.broker.router.exact.lookup message.subject.raw).getD []) := by
  have routed : id ∈ scene.broker.router.idsAt (slotOf sub.pattern) :=
    kept.sound.registered id sub found
  have slot := (slotOf_mem_slotsFor sub.pattern message.subject).mpr wanted
  constructor
  · intro wild
    simp only [slotOf, wild, if_true, slotsFor, List.mem_cons, reduceCtorEq, false_or,
      List.mem_map, Slot.trie.injEq, exists_eq_right] at routed slot
    rw [SubjectTrie.matchSubject, matchRecursive_eq]
    exact List.mem_append_right _ (List.mem_flatMap.mpr ⟨_, slot, routed⟩)
  · intro literal
    simp only [slotOf, literal, Bool.false_eq_true, if_false, slotsFor, List.mem_cons,
      Slot.exact.injEq, List.mem_map, reduceCtorEq, and_false, exists_false,
      or_false] at routed slot
    rw [← slot]
    exact routed

theorem pick_own (kept : Kept scene) (found : scene.broker.registry.getRef id = some sub)
    (grouped : groupKey sub = some key) (env : DeliveryPolicy) (message : Message) (loop : Loop) :
    ∃ member, turnOf scene.broker key = some member ∧
      (ConcurrentPublish.next env message scene.broker (.pick key loop)).2 =
        some (.lookup key member loop) := by
  have member : id ∈ membersOf scene.broker.queueGroups key :=
    (kept.sound.live_member found grouped).2
  rw [membersOf] at member
  rw [ConcurrentPublish.next, turnOf]
  cases group : scene.broker.queueGroups.lookup key with
  | none => simp [group] at member
  | some state =>
    have filled : 0 < state.members.length := by
      refine @List.length_pos_of_mem _ id _ ?_
      simpa [group] using member
    have inside := Nat.mod_lt state.currentIndex filled
    refine ⟨state.members[state.currentIndex % state.members.length], ?_⟩
    simp only [Option.bind_some, if_neg filled.ne', List.getElem?_eq_getElem inside, and_self]

theorem DueLoop.pick (due : DueLoop id key loop) (turn : QueueGroupKey) (env : DeliveryPolicy)
    (message : Message) (b : BrokerCore) :
    ∃ left, (ConcurrentPublish.next env message b (.pick turn loop)).2 = some left ∧
      DueStage id sub key left := by
  rw [ConcurrentPublish.next]
  cases b.queueGroups.lookup turn with
  | none => exact due.resume
  | some group =>
    by_cases empty : group.members.length = 0
    · simp only [empty, if_true]
      exact due.resume
    · simp only [empty, if_false]
      cases group.members[group.currentIndex % group.members.length]? with
      | none => exact due.resume
      | some chosen => exact ⟨_, rfl, due⟩

theorem due_visit (kept : Kept scene)
    (found : scene.broker.registry.getRef id = some sub)
    (grouped : groupKey sub = some key) (env : DeliveryPolicy) {other : SubscriptionId}
    (here : scene.publish = some (.visit other loop)) (due : other = id ∨ DueLoop id key loop) :
    ∃ left, (ConcurrentPublish.next env message scene.broker (.visit other loop)).2 =
      some left ∧ DueStage id sub key left := by
  obtain ⟨⟨arc, held, own⟩, -⟩ := kept.sound.live_member found grouped
  rw [ConcurrentPublish.next]
  cases visited : scene.broker.registry.getRef other with
  | none =>
    refine (due.resolve_left ?_).resume
    rintro rfl
    cases visited.symm.trans found
  | some sub' =>
    cases held' : sub'.queueGroupKey with
    | none =>
      have ahead : DueLoop id key loop := by
        refine due.resolve_left ?_
        rintro rfl
        cases visited.symm.trans found
        cases held'.symm.trans held
      simp only [held']
      exact DueLoop.resume ahead
    | some arc' =>
      simp only [held']
      refine DueLoop.enter (due.imp_left ?_) ?_
      · rintro rfl
        cases visited.symm.trans found
        cases held'.symm.trans held
        exact own
      · intro last lastKey same
        have interned := kept.last _ last here lastKey
        exact kept.sound.interned.distinct _ _ last arc' interned
          (kept.sound.live_arc visited held') same

theorem due_next (kept : Kept scene) (found : scene.broker.registry.getRef id = some sub)
    (grouped : groupKey sub = some key) (wanted : sub.pattern.matches message.subject = true)
    (up : hasWildcard sub.pattern = true → scene.broker.router.hasWildcards = true)
    (env : DeliveryPolicy) {left : Publishing} (here : scene.publish = some left)
    (due : DueStage id sub key left) :
    (∃ loop, left = .pick key loop) ∨
      ∃ left', (ConcurrentPublish.next env message scene.broker left).2 = some left' ∧
        DueStage id sub key left' := by
  have reads := listed message kept found wanted
  cases left with
  | start => exact .inr ⟨_, rfl, trivial⟩
  | exact => exact .inr ⟨_, rfl, reads.2⟩
  | flag ids =>
    refine .inr ?_
    rw [ConcurrentPublish.next]
    cases flag : scene.broker.router.hasWildcards with
    | true => exact ⟨_, rfl, due⟩
    | false =>
      refine DueLoop.resume (.inl (due ?_))
      rw [← Bool.not_eq_true]
      intro wild
      cases flag.symm.trans (up wild)
  | trie ids =>
    refine .inr (DueLoop.resume (.inl (List.mem_append.mpr ?_)))
    cases wild : hasWildcard sub.pattern with
    | true => exact .inr (reads.1 wild)
    | false => exact .inl (due wild)
  | visit other loop => exact .inr (due_visit kept found grouped env here due)
  | pick turn loop =>
    rcases due with rfl | due
    · exact .inl ⟨loop, rfl⟩
    · exact .inr (due.pick turn env message scene.broker)
  | lookup turn other loop =>
    refine .inr ?_
    rw [ConcurrentPublish.next]
    cases scene.broker.registry.getRef other with
    | none => exact DueLoop.resume due
    | some sub' => exact ⟨_, rfl, due⟩
  | send target loop => exact .inr ⟨_, rfl, due⟩
  | count status loop => exact .inr (DueLoop.resume due)

end

end

section
variable (env : DeliveryPolicy) (message : Message) (before : List (Event Change))

/-- The scene once the calls of `before` and then these turns are made. -/
def after (part : List Turn) : Scene := run env message (before.map .calls ++ part)

/-- `deliver` was called on one that was a member of the group in the meantime. -/
def Delivered (during : List Turn) (key : QueueGroupKey) : Prop :=
  ∃ part member, part <+: during ∧
    member ∈ membersOf (after env message before part).broker.queueGroups key ∧
    member ∈ (after env message before during).called

def HasTurn (part : List Turn) (key : QueueGroupKey) (member : SubscriptionId) : Prop :=
  indexOf (after env message before part).broker key =
    indexOf (after env message before []).broker key ∧
  turnOf (after env message before part).broker key = some member

/-- Who has the turn is registered, and stays so for the rest of the publish. -/
def TurnRegistered (during : List Turn) (key : QueueGroupKey) : Prop :=
  ∀ part part' member, part <+: part' → part' <+: during →
    HasTurn env message before part key member →
    ∃ sub, (after env message before part').broker.registry.getRef member = some sub

variable {env message before} {id : SubscriptionId} {sub : Subscription} {key : QueueGroupKey}

def Taken (key : QueueGroupKey) (member : SubscriptionId) (scene : Scene) : Prop :=
  (∃ loop, scene.publish = some (.lookup key member loop)) ∨
    (∃ target loop, scene.publish = some (.send target loop) ∧ target.1 = member) ∨
    member ∈ scene.called

theorem Taken.step {scene : Scene} {member : SubscriptionId} (taken : Taken key member scene)
    (registered : ∃ sub, scene.broker.registry.getRef member = some sub) (turn : Turn) :
    Taken key member (scene.step env message turn) := by
  cases turn with
  | calls event =>
    refine step_calls env message scene event (fun change => taken) (fun i call found => ?_) taken
    refine taken.imp_right (Or.imp_right fun sent => ?_)
    rw [Scene.called, Scene.broker, Shared.advance, calls_next]
    exact sent
  | publish =>
    rw [Scene.step]
    rcases taken with ⟨loop, here⟩ | ⟨target, loop, here, rfl⟩ | sent
    · obtain ⟨sub, found⟩ := registered
      simp only [here]
      refine .inr (.inl ⟨(member, sub.connectionId, sub.delivery), loop, ?_, rfl⟩)
      simp only [Scene.proceed, ConcurrentPublish.next, found]
    · simp only [here]
      refine .inr (.inr ?_)
      simp [Scene.proceed, Scene.called, Scene.broker, ConcurrentPublish.next,
        BrokerCore.deliver, Message.deliveryTo]
    · cases scene.publish with
      | none => exact .inr (.inr sent)
      | some left => exact .inr (.inr (called_proceed env message sent left))

theorem after_concat (env : DeliveryPolicy) (message : Message) (before : List (Event Change))
    (part : List Turn) (turn : Turn) : after env message before (part ++ [turn]) =
      (after env message before part).step env message turn := by
  rw [after, after, ← List.append_assoc, run_concat]

variable (key) in
def Served (env : DeliveryPolicy) (message : Message) (before : List (Event Change))
    (id : SubscriptionId) (sub : Subscription) (part : List Turn) : Prop :=
  (indexOf (after env message before part).broker key =
      indexOf (after env message before []).broker key ∧
    ∃ left, (after env message before part).publish = some left ∧ DueStage id sub key left) ∨
  ∃ member, (∃ early, early <+: part ∧ HasTurn env message before early key member) ∧
    Taken key member (after env message before part)

section
variable {part : List Turn} (kept : Kept (after env message before part))
  (found : (after env message before part).broker.registry.getRef id = some sub)
  (grouped : groupKey sub = some key)
  (unmoved : indexOf (after env message before part).broker key =
    indexOf (after env message before []).broker key)
  {left : Publishing} (here : (after env message before part).publish = some left)
  (due : DueStage id sub key left)
include kept found grouped unmoved here due

theorem served_calls (event : Event Change) :
    Served key env message before id sub (part ++ [.calls event]) := by
  obtain ⟨index, at_index⟩ : ∃ index,
      indexOf (after env message before part).broker key = some index := by
    obtain ⟨member, turn, -⟩ := pick_own kept found grouped env message ⟨[], [], [], none⟩
    obtain ⟨group, there, -⟩ := Option.bind_eq_some_iff.mp turn
    exact ⟨_, by rw [indexOf, there]; rfl⟩
  refine .inl ⟨?_, left, ?_⟩ <;> rw [after_concat]
  · rw [← unmoved, at_index]
    refine step_calls env message (after env message before part) event
      (P := fun scene => indexOf scene.broker key = some index) (fun change => at_index)
        ?_ at_index
    intro i call there
    exact indexOf_calls (kept.sound.proper call (List.mem_of_getElem? there)) at_index
  · exact ⟨here, due⟩

theorem served_publish (wanted : sub.pattern.matches message.subject = true)
    (up : hasWildcard sub.pattern = true →
      (after env message before part).broker.router.hasWildcards = true) :
    Served key env message before id sub (part ++ [.publish]) := by
  have moved : after env message before (part ++ [.publish]) =
      (after env message before part).proceed env message left := by
    rw [after_concat, Scene.step, here]
  by_cases own : ∃ loop, left = .pick key loop
  · obtain ⟨loop, rfl⟩ := own
    obtain ⟨member, turn, goes⟩ := pick_own kept found grouped env message loop
    refine .inr ⟨member, ⟨part, List.prefix_append _ _, unmoved, turn⟩, .inl ⟨loop, ?_⟩⟩
    rw [moved]
    exact goes
  · have later := (due_next kept found grouped wanted up env here due).resolve_left own
    refine .inl ?_
    rw [moved]
    refine ⟨?_, later⟩
    rw [← unmoved]
    exact indexOf_publish env message _ fun loop same => own ⟨loop, same⟩

end

theorem served_run {during : List Turn}
    (live : ∀ part, part <+: during →
      (after env message before part).broker.registry.getRef id = some sub)
    (grouped : groupKey sub = some key) (wanted : sub.pattern.matches message.subject = true)
    (up : hasWildcard sub.pattern = true → ∀ part, part <+: during →
      (after env message before part).broker.router.hasWildcards = true)
    (turn : TurnRegistered env message before during key) :
    Served key env message before id sub during := by
  induction during using List.reverseRecOn with
  | nil =>
    refine .inl ⟨rfl, .start, ?_, trivial⟩
    rw [after, List.append_nil]
    exact publish_run_calls env message before
  | append_singleton part last ih =>
    have shorter : part <+: part ++ [last] := List.prefix_append _ _
    have kept : Kept (after env message before part) := kept_run ..
    rcases ih (fun part' sooner => live part' (sooner.trans shorter))
      (fun wild part' sooner => up wild part' (sooner.trans shorter))
      (fun early later member sooner within => turn early later member sooner
        (within.trans shorter))
      with ⟨unmoved, left, here, due⟩ | ⟨member, ⟨early, sooner, had⟩, taken⟩
    · have found := live part shorter
      cases last with
      | calls event => exact served_calls kept found grouped unmoved here due event
      | publish =>
        exact served_publish kept found grouped unmoved here due wanted fun wild =>
          up wild part shorter
    · refine .inr ⟨member, ⟨early, sooner.trans shorter, had⟩, ?_⟩
      rw [after_concat]
      exact taken.step (turn early part member sooner shorter had) last

end

private def builds : SubjectPattern := parsed (SubjectPattern.parse "builds".toList) (by decide)
private def runners : QueueGroupName := parsed (QueueGroupName.new "runners".toList) (by decide)
private def buildRunners : QueueGroupKey := ("builds".toList, "runners".toList)

private def build : Message :=
  ⟨1, parsed (Subject.parse "builds".toList) (by decide), [], none, none, 0⟩

private def runner : Subscription := ⟨1, 1, builds, some runners, some ⟨0, buildRunners⟩, 1⟩

private def oneJoin : List (Event Change) :=
  .begin (.subscribe 1 builds (some runners) 1) :: List.replicate 7 (.advance 0)

private def secondJoins : List (Event Change) :=
  oneJoin ++ [.begin (.subscribe 2 builds (some runners) 2)] ++ List.replicate 3 (.advance 0)

private def overlapping : List Turn :=
  List.replicate 3 .publish ++ [.calls (.advance 0)] ++ List.replicate 3 .publish ++
    [.calls (.advance 0)] ++ List.replicate 2 .publish

private def earlyMember : List (Event Change) :=
  [.begin (.subscribe 1 builds (some runners) 1)] ++ List.replicate 3 (.advance 0) ++
  [.begin (.subscribe 2 builds (some runners) 2)] ++ List.replicate 7 (.advance 1)

private def earlyMemberRun (part : List Turn) : Scene := after acceptAll build earlyMember part

end ZetMQ.SteadyGroups
