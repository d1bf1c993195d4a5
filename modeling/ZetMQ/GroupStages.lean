import ZetMQ.ConcurrentBroker
import ZetMQ.GroupMarks

/-! The stages that every subscription goes through while calls of the broker overlap.
A call in progress knows the stage of the id it brings up and of the ids it has
removed. A step either leaves every id where it is or brings one id on to a later
stage. -/
namespace ZetMQ.GroupStages
open Utf8Text SubjectGrammar WildcardTrie KeyedTable Routing Delivery Registry Broker
open Interleaving ConcurrentBroker GroupMarks

/-- Pattern and group of a subscription in a queue group. -/
def groupKey (sub : Subscription) : Option QueueGroupKey :=
  sub.queueGroup.map fun group => (sub.pattern.raw, group.name)

def mark : Task → Option Mark
  | .intern sub key => some (.intern key sub.id)
  | .join sub arc => some (.join arc.key sub.id)
  | .dropGroup key _ _ => some (.dropGroup key)
  | .dropKey key _ _ => some (.dropKey key)
  | _ => none

def marks (steps : List (BrokerCore × Task)) : List Mark := steps.filterMap fun step => mark step.2

/-- How far the subscription with an id has come. -/
inductive Stage where
  | unborn
  | starting (sub : Subscription) (key : QueueGroupKey)
  | interned (sub : Subscription) (arc : KeyArc)
  | joined (sub : Subscription)
  | live (sub : Subscription)
  | gone

namespace Stage

def WellFormed (id : SubscriptionId) : Stage → Prop
  | .unborn => True
  | .starting sub key => sub.id = id ∧ groupKey sub = some key
  | .interned sub arc =>
    sub.id = id ∧ sub.queueGroupKey = some arc ∧ groupKey sub = some arc.key
  | .joined sub => sub.id = id ∧ sub.queueGroupKey.map (·.key) = groupKey sub
  | .live sub => sub.id = id ∧ sub.queueGroupKey.map (·.key) = groupKey sub
  | .gone => True

def heldArc : Stage → Option KeyArc
  | .interned _ arc => some arc
  | .joined sub => sub.queueGroupKey
  | .live sub => sub.queueGroupKey
  | _ => none

def joinedArc : Stage → Option KeyArc
  | .joined sub => sub.queueGroupKey
  | .live sub => sub.queueGroupKey
  | _ => none

def rank : Stage → ℕ
  | .unborn => 0
  | .starting _ _ => 1
  | .interned _ _ => 2
  | .joined _ => 3
  | .live _ => 4
  | .gone => 5

theorem eq_gone {st : Stage} (high : Stage.gone.rank ≤ st.rank) : st = .gone := by
  cases st with
  | gone => rfl
  | _ => simp [rank] at high

end Stage

def holds : Task → Option (SubscriptionId × Stage)
  | .intern sub key => some (sub.id, .starting sub key)
  | .join sub arc => some (sub.id, .interned sub arc)
  | .insert sub => some (sub.id, .joined sub)
  | .route _ rest => holds rest
  | _ => none

def retired : Task → List SubscriptionId
  | .route _ rest => retired rest
  | .unlist id _ => [id]
  | .leave id _ => [id]
  | .remove _ _ removed => removed.map (·.id)
  | .retain _ removed _ => removed.map (·.id)
  | .dropGroup _ removed _ => removed.map (·.id)
  | .dropKey _ removed _ => removed.map (·.id)
  | _ => []

@[simp] theorem holds_uncounting (turns : ℕ) : holds (.uncounting turns) = none := by
  cases turns <;> rfl

@[simp] theorem retired_uncounting (turns : ℕ) : retired (.uncounting turns) = [] := by
  cases turns <;> rfl

variable {i : ℕ} (removed : List Subscription)

@[simp] theorem holds_cleaning (rest : List Subscription) :
    holds (.cleaning removed rest) = none := by
  induction rest with
  | nil => exact holds_uncounting _
  | cons sub rest ih =>
    rw [Task.cleaning]
    cases sub.queueGroupKey with
    | none => exact ih
    | some arc => rfl

theorem retired_cleaning (rest : List Subscription) :
    retired (.cleaning removed rest) ⊆ removed.map (·.id) := by
  induction rest with
  | nil => simp [Task.cleaning]
  | cons sub rest ih =>
    rw [Task.cleaning]
    cases sub.queueGroupKey with
    | none => exact ih
    | some arc => exact List.Subset.refl _

@[simp] theorem holds_removing (ids : List SubscriptionId) :
    holds (.removing removed ids) = none := by
  cases ids with
  | nil => exact holds_cleaning ..
  | cons id ids => rfl

theorem retired_removing (ids : List SubscriptionId) :
    retired (.removing removed ids) ⊆ removed.map (·.id) := by
  cases ids with
  | nil => exact retired_cleaning ..
  | cons id ids => exact List.Subset.refl _

theorem holds_rank {task : Task} {id : SubscriptionId} {st : Stage}
    (held : holds task = some (id, st)) : 0 < st.rank ∧ st.rank < 4 := by
  induction task with
  | route _ _ ih => exact ih held
  | intern | join | insert =>
    cases held
    simp [Stage.rank]
  | _ => cases held

structure Linked (pending : List Task) (stage : SubscriptionId → Stage) : Prop where
  held : ∀ task ∈ pending, ∀ id st, holds task = some (id, st) → stage id = st
  apart : pending.Pairwise fun task other => ∀ id st st',
    holds task = some (id, st) → holds other ≠ some (id, st')
  removed : ∀ task ∈ pending, ∀ id ∈ retired task, stage id = .gone

theorem Linked.perm {pending pending' : List Task} {stage : SubscriptionId → Stage}
    (h : Linked pending stage) (same : pending.Perm pending') : Linked pending' stage where
  held task member := h.held task (same.mem_iff.mpr member)
  apart := same.pairwise h.apart fun apart id st st' here there => apart id st' st there here
  removed task member := h.removed task (same.mem_iff.mpr member)

theorem Linked.stay {call : Task} {others : List Task} {rest : Option Task}
    {stage : SubscriptionId → Stage} (h : Linked (call :: others) stage)
    (held : ∀ task, rest = some task → holds task = holds call)
    (removed : ∀ task, rest = some task → retired task ⊆ retired call) :
    Linked (rest.toList ++ others) stage := by
  have apart := List.pairwise_cons.mp h.apart
  cases rest with
  | none =>
    exact ⟨fun task member => h.held task (List.mem_cons_of_mem _ member), apart.2,
      fun task member => h.removed task (List.mem_cons_of_mem _ member)⟩
  | some task =>
    have first := h.held call List.mem_cons_self
    have here := held task rfl
    refine ⟨List.forall_mem_cons.mpr ⟨here ▸ first, (List.forall_mem_cons.mp h.held).2⟩,
      List.pairwise_cons.mpr ⟨here ▸ apart.1, apart.2⟩,
      List.forall_mem_cons.mpr ⟨?_, (List.forall_mem_cons.mp h.removed).2⟩⟩
    exact fun id out => h.removed call List.mem_cons_self id (removed task rfl out)

theorem Linked.move {call : Task} {others : List Task} {rest : Option Task}
    {stage stage' : SubscriptionId → Stage} (h : Linked (call :: others) stage)
    {id : SubscriptionId}
    (free : (∃ st, holds call = some (id, st)) ∨ stage id = .unborn ∨ ∃ sub, stage id = .live sub)
    (frame : ∀ other, other ≠ id → stage' other = stage other)
    (held : ∀ task, rest = some task → ∀ other st, holds task = some (other, st) →
      other = id ∧ stage' id = st)
    (removed : ∀ task, rest = some task → ∀ other ∈ retired task, stage' other = .gone) :
    Linked (rest.toList ++ others) stage' := by
  have apart := List.pairwise_cons.mp h.apart
  have unheld : ∀ task ∈ others, ∀ st, holds task ≠ some (id, st) := by
    intro task member st there
    have rank := holds_rank there
    rw [← h.held task (List.mem_cons_of_mem _ member) id st there] at rank
    obtain ⟨st', here⟩ | unborn | ⟨sub, live⟩ := free
    · exact apart.1 task member id st' st here there
    · simp [unborn, Stage.rank] at rank
    · simp [live, Stage.rank] at rank
  have present : stage id ≠ .gone := by
    intro gone
    obtain ⟨st, here⟩ | unborn | ⟨sub, live⟩ := free
    · have rank := holds_rank here
      rw [← h.held call List.mem_cons_self id st here, gone] at rank
      simp [Stage.rank] at rank
    · cases gone.symm.trans unborn
    · cases gone.symm.trans live
  constructor
  · intro task member other st there
    rw [List.mem_append, Option.mem_toList] at member
    cases member with
    | inl left =>
      obtain ⟨rfl, now⟩ := held task left other st there
      exact now
    | inr old =>
      have different : other ≠ id := fun same => unheld task old st (same ▸ there)
      rw [frame other different]
      exact h.held task (List.mem_cons_of_mem _ old) other st there
  · refine List.pairwise_append.mpr ⟨by cases rest <;> simp, apart.2, ?_⟩
    intro task left task' old other st st' here there
    obtain ⟨rfl, -⟩ := held task (Option.mem_toList.mp left) other st here
    exact unheld task' old st' there
  · intro task member other out
    rw [List.mem_append, Option.mem_toList] at member
    cases member with
    | inl left => exact removed task left other out
    | inr old =>
      have gone := h.removed task (List.mem_cons_of_mem _ old) other out
      have different : other ≠ id := fun same => present (same ▸ gone)
      rw [frame other different, gone]

/-- The state, the calls in progress and the marks, for the stages the ids are in. -/
structure Tracked (s : Shared BrokerCore Task) (marks : List Mark)
    (stage : SubscriptionId → Stage) : Prop where
  linked : Linked s.pending stage
  live : ∀ id sub, s.state.registry.subscriptions.lookup id = some sub ↔ stage id = .live sub
  fresh : ∀ id, s.state.subIdGen ≤ id → stage id = .unborn
  wellFormed : ∀ id, (stage id).WellFormed id
  interned : ∀ key id, .intern key id ∈ marks → 2 ≤ (stage id).rank
  joined : ∀ key id, .join key id ∈ marks → 3 ≤ (stage id).rank
  interning : Interning s.state.queueGroupKeys s.state.nextAddr (fun id => (stage id).heldArc)
    marks
  membership : Membership s.state.queueGroups (fun id => (stage id).joinedArc) marks

namespace Tracked
variable {s : Shared BrokerCore Task} {marks : List Mark} {stage : SubscriptionId → Stage}

theorem start : Tracked ⟨.new, []⟩ [] fun _ => .unborn where
  linked := ⟨by simp, List.Pairwise.nil, by simp⟩
  live := by simp [BrokerCore.new, SubscriptionRegistry.new]
  fresh _ _ := rfl
  wellFormed _ := trivial
  interned := by simp
  joined := by simp
  interning := .start
  membership := .start

theorem stay (h : Tracked s marks stage) {call : Task} (found : s.pending[i]? = some call)
    (subscriptions : (next s.state call).1.registry.subscriptions =
      s.state.registry.subscriptions) (ids : (next s.state call).1.subIdGen = s.state.subIdGen)
    (held : ∀ task, (next s.state call).2 = some task → holds task = holds call)
    (removed : ∀ task, (next s.state call).2 = some task → retired task ⊆ retired call)
    (interns : ∀ key id, mark call ≠ some (.intern key id))
    (joins : ∀ key id, mark call ≠ some (.join key id))
    (interning : Interning (next s.state call).1.queueGroupKeys (next s.state call).1.nextAddr
      (fun id => (stage id).heldArc) (marks ++ (mark call).toList))
    (membership : Membership (next s.state call).1.queueGroups
      (fun id => (stage id).joinedArc) (marks ++ (mark call).toList)) :
    Tracked (s.advance next i call) (marks ++ (mark call).toList) stage where
  linked := by
    obtain ⟨others, before, after⟩ := advance_perm next found
    exact ((h.linked.perm before).stay held removed).perm after.symm
  live id sub := by
    rw [← h.live, ← subscriptions]
    rfl
  fresh id out := h.fresh id (ids ▸ out)
  wellFormed := h.wellFormed
  interned key id noted := by
    rw [List.mem_append, Option.mem_toList] at noted
    exact h.interned key id (noted.resolve_right (interns key id))
  joined key id noted := by
    rw [List.mem_append, Option.mem_toList] at noted
    exact h.joined key id (noted.resolve_right (joins key id))
  interning := interning
  membership := membership

structure Moves (s : Shared BrokerCore Task) (marks : List Mark) (stage : SubscriptionId → Stage)
    (call : Task) (id : SubscriptionId) (st : Stage) : Prop where
  free : (∃ st, holds call = some (id, st)) ∨ stage id = .unborn ∨ ∃ sub, stage id = .live sub
  higher : (stage id).rank ≤ st.rank
  wellFormed : st.WellFormed id
  ids : s.state.subIdGen ≤ (next s.state call).1.subIdGen
  inside : id < (next s.state call).1.subIdGen
  frame : ∀ other, other ≠ id → (next s.state call).1.registry.subscriptions.lookup other =
    s.state.registry.subscriptions.lookup other
  live : ∀ sub, (next s.state call).1.registry.subscriptions.lookup id = some sub ↔ st = .live sub
  held : ∀ task, (next s.state call).2 = some task → ∀ other st', holds task = some (other, st') →
    other = id ∧ st = st'
  removed : ∀ task, (next s.state call).2 = some task → ∀ other ∈ retired task,
    other ∈ retired call ∨ other = id ∧ st = .gone
  interns : ∀ key other, mark call = some (.intern key other) → other = id ∧ 2 ≤ st.rank
  joins : ∀ key other, mark call = some (.join key other) → other = id ∧ 3 ≤ st.rank
  interning : Interning (next s.state call).1.queueGroupKeys (next s.state call).1.nextAddr
    (Function.update (fun other => (stage other).heldArc) id st.heldArc)
    (marks ++ (mark call).toList)
  membership : Membership (next s.state call).1.queueGroups
    (Function.update (fun other => (stage other).joinedArc) id st.joinedArc)
    (marks ++ (mark call).toList)

section
variable (h : Tracked s marks stage)
include h

theorem move {i : ℕ} {call : Task} (found : s.pending[i]? = some call) {id : SubscriptionId}
    {st : Stage} (m : Moves s marks stage call id st) :
    Tracked (s.advance next i call) (marks ++ (mark call).toList)
      (Function.update stage id st) := by
  have rank : ∀ other, (stage other).rank ≤ (Function.update stage id st other).rank :=
    (Function.forall_update_iff stage fun other later => (stage other).rank ≤ later.rank).mpr
      ⟨m.higher, fun _ _ => le_rfl⟩
  have apply : ∀ (f : Stage → Option KeyArc),
      (fun other => f (Function.update stage id st other)) =
        Function.update (fun other => f (stage other)) id (f st) := by
    intro f
    ext1 other
    exact Function.apply_update (fun _ => f) stage id st other
  constructor
  · obtain ⟨others, before, after⟩ := advance_perm next found
    have linked := h.linked.perm before
    refine Linked.perm (linked.move m.free ?_ ?_ ?_) after.symm
    · intro other different
      rw [Function.update_of_ne different]
    · intro task left other st' there
      rw [Function.update_self]
      exact m.held task left other st' there
    · intro task left other out
      cases m.removed task left other out with
      | inl old =>
        have gone := linked.removed call List.mem_cons_self other old
        by_cases here : other = id
        · have higher := m.higher
          rw [← here, gone] at higher
          rw [here, Function.update_self, Stage.eq_gone higher]
        · rw [Function.update_of_ne here, gone]
      | inr new => rw [new.1, Function.update_self, new.2]
  · intro other sub
    by_cases here : other = id
    · rw [here, Function.update_self]
      exact m.live sub
    · rw [Function.update_of_ne here, ← h.live, ← m.frame other here]
      rfl
  · intro other out
    have here : other ≠ id := by
      rintro rfl
      exact absurd m.inside (Nat.not_lt.mpr out)
    rw [Function.update_of_ne here]
    exact h.fresh other (m.ids.trans out)
  · rw [Function.forall_update_iff stage fun other st => st.WellFormed other]
    exact ⟨m.wellFormed, fun other _ => h.wellFormed other⟩
  · intro key other noted
    rw [List.mem_append, Option.mem_toList] at noted
    cases noted with
    | inl old => exact (h.interned key other old).trans (rank other)
    | inr new =>
      obtain ⟨rfl, high⟩ := m.interns key other new
      rwa [Function.update_self]
  · intro key other noted
    rw [List.mem_append, Option.mem_toList] at noted
    cases noted with
    | inl old => exact (h.joined key other old).trans (rank other)
    | inr new =>
      obtain ⟨rfl, high⟩ := m.joins key other new
      rwa [Function.update_self]
  · rw [apply Stage.heldArc]
    exact m.interning
  · rw [apply Stage.joinedArc]
    exact m.membership

theorem quiet {call : Task} (found : s.pending[i]? = some call) (unmarked : mark call = none)
    (subscriptions : (next s.state call).1.registry.subscriptions =
      s.state.registry.subscriptions) (ids : (next s.state call).1.subIdGen = s.state.subIdGen)
    (keys : (next s.state call).1.queueGroupKeys = s.state.queueGroupKeys)
    (addrs : (next s.state call).1.nextAddr = s.state.nextAddr)
    (groups : (next s.state call).1.queueGroups = s.state.queueGroups)
    (held : ∀ task, (next s.state call).2 = some task → holds task = holds call)
    (removed : ∀ task, (next s.state call).2 = some task → retired task ⊆ retired call) :
    Tracked (s.advance next i call) (marks ++ (mark call).toList) stage := by
  refine h.stay found subscriptions ids held removed (by simp [unmarked]) (by simp [unmarked]) ?_ ?_
  · rw [unmarked, keys, addrs, Option.toList_none, List.append_nil]
    exact h.interning
  · rw [unmarked, groups, Option.toList_none, List.append_nil]
    exact h.membership

theorem absent {id : SubscriptionId} (waiting : ∀ sub, stage id ≠ .live sub) (sub : Subscription) :
    s.state.registry.subscriptions.lookup id ≠ some sub :=
  fun there => waiting sub ((h.live id sub).mp there)

theorem inside {id : SubscriptionId} (born : stage id ≠ .unborn) : id < s.state.subIdGen :=
  Nat.lt_of_not_le fun out => born (h.fresh id out)

theorem holding {call : Task} {id : SubscriptionId} {st : Stage} (found : s.pending[i]? = some call)
    (held : holds call = some (id, st)) : stage id = st :=
  h.linked.held call (List.mem_of_getElem? found) id st held

end

section
variable {call : Task} {id : SubscriptionId} {st : Stage}

theorem heldArc_same (h : Tracked s marks stage) (unmarked : mark call = none)
    (same : st.heldArc = (stage id).heldArc) :
    Interning s.state.queueGroupKeys s.state.nextAddr
      (Function.update (fun other => (stage other).heldArc) id st.heldArc)
      (marks ++ (mark call).toList) := by
  rw [unmarked, Option.toList_none, List.append_nil, same, Function.update_eq_self]
  exact h.interning

theorem joinedArc_same (h : Tracked s marks stage) (unmarked : mark call = none)
    (same : st.joinedArc = (stage id).joinedArc) :
    Membership s.state.queueGroups
      (Function.update (fun other => (stage other).joinedArc) id st.joinedArc)
      (marks ++ (mark call).toList) := by
  rw [unmarked, Option.toList_none, List.append_nil, same, Function.update_eq_self]
  exact h.membership

end

end Tracked

end ZetMQ.GroupStages
