import ZetMQ.Broker

/-! What the order of a few steps says about queue groups. A mark notes that a key was
interned for a subscription, that the subscription joined its group, or that a group or
a key was dropped. From the marks alone one can tell who is still a member of its
group, and who holds the same interned key. -/
namespace ZetMQ.GroupMarks
open WildcardTrie KeyedTable Registry Broker
open scoped List

inductive Mark where
  | intern (key : QueueGroupKey) (id : SubscriptionId)
  | join (key : QueueGroupKey) (id : SubscriptionId)
  | dropGroup (key : QueueGroupKey)
  | dropKey (key : QueueGroupKey)
deriving DecidableEq

def DroppedAfterJoin (marks : List Mark) (key : QueueGroupKey) (id : SubscriptionId) : Prop :=
  [.join key id, .dropGroup key] <+ marks

def DroppedAfterIntern (marks : List Mark) (key : QueueGroupKey) (id : SubscriptionId) : Prop :=
  [.intern key id, .dropKey key] <+ marks

def DroppedBetween (marks : List Mark) (key : QueueGroupKey) (id id' : SubscriptionId) : Prop :=
  [.intern key id, .dropKey key, .intern key id'] <+ marks

theorem sublist_concat {α : Type} (front marks : List α) (last mark : α) :
    front ++ [last] <+ marks ++ [mark] ↔
      front ++ [last] <+ marks ∨ last = mark ∧ front <+ marks := by
  rw [← List.reverse_sublist, List.reverse_concat, List.reverse_concat, List.cons_sublist_cons',
    ← List.reverse_concat, List.reverse_sublist, List.reverse_sublist]

theorem update_eq_some {α β : Type} [DecidableEq α] {f : α → Option β} {a a' : α} {b b' : β}
    (held : Function.update f a (some b) a' = some b') :
    a' = a ∧ b' = b ∨ a' ≠ a ∧ f a' = some b' := by
  rw [Function.update_apply] at held
  split_ifs at held with here
  · exact .inl ⟨here, (Option.some.inj held).symm⟩
  · exact .inr ⟨here, held⟩

section Concat
variable (marks : List Mark) (mark : Mark) (key : QueueGroupKey) (id id' : SubscriptionId)

theorem droppedAfterJoin_concat : DroppedAfterJoin (marks ++ [mark]) key id ↔
    DroppedAfterJoin marks key id ∨ mark = .dropGroup key ∧ .join key id ∈ marks := by
  rw [DroppedAfterJoin, show ([.join key id, .dropGroup key] : List Mark) =
    [.join key id] ++ [.dropGroup key] from rfl, sublist_concat, List.singleton_sublist, eq_comm]
  rfl

theorem droppedAfterIntern_concat : DroppedAfterIntern (marks ++ [mark]) key id ↔
    DroppedAfterIntern marks key id ∨ mark = .dropKey key ∧ .intern key id ∈ marks := by
  rw [DroppedAfterIntern, show ([.intern key id, .dropKey key] : List Mark) =
    [.intern key id] ++ [.dropKey key] from rfl, sublist_concat, List.singleton_sublist, eq_comm]
  rfl

theorem droppedBetween_concat : DroppedBetween (marks ++ [mark]) key id id' ↔
    DroppedBetween marks key id id' ∨
      mark = .intern key id' ∧ DroppedAfterIntern marks key id := by
  rw [DroppedBetween, show ([.intern key id, .dropKey key, .intern key id'] : List Mark) =
    [.intern key id, .dropKey key] ++ [.intern key id'] from rfl, sublist_concat, eq_comm]
  rfl

end Concat

theorem DroppedAfterJoin.joined {marks : List Mark} {key : QueueGroupKey} {id : SubscriptionId}
    (dropped : DroppedAfterJoin marks key id) : .join key id ∈ marks :=
  dropped.subset (by simp)

theorem DroppedAfterIntern.interned {marks : List Mark} {key : QueueGroupKey}
    {id : SubscriptionId} (dropped : DroppedAfterIntern marks key id) : .intern key id ∈ marks :=
  dropped.subset (by simp)

theorem DroppedBetween.first {marks : List Mark} {key : QueueGroupKey} {id id' : SubscriptionId}
    (dropped : DroppedBetween marks key id id') : .intern key id ∈ marks :=
  dropped.subset (by simp)

theorem DroppedBetween.second {marks : List Mark} {key : QueueGroupKey} {id id' : SubscriptionId}
    (dropped : DroppedBetween marks key id id') : .intern key id' ∈ marks :=
  dropped.subset (by simp)

/-- The interned keys, and the pointer that each subscription holds, as the marks tell. -/
structure Interning (keys : Table QueueGroupKey KeyArc) (addrs : ℕ)
    (arcs : SubscriptionId → Option KeyArc) (marks : List Mark) : Prop where
  keyed : ∀ {key arc}, keys.lookup key = some arc → arc.key = key ∧ arc.addr < addrs
  allocated : ∀ {id arc}, arcs id = some arc → arc.addr < addrs
  noted : ∀ {id arc}, arcs id = some arc → .intern arc.key id ∈ marks
  current : ∀ {id arc}, arcs id = some arc →
    (keys.lookup arc.key = some arc ↔ ¬DroppedAfterIntern marks arc.key id)
  shared : ∀ {id id' arc arc'}, arcs id = some arc → arcs id' = some arc' → arc.key = arc'.key →
    (arc = arc' ↔ ¬DroppedBetween marks arc.key id id' ∧ ¬DroppedBetween marks arc.key id' id)

namespace Interning
variable {keys : Table QueueGroupKey KeyArc} {addrs : ℕ} {arcs : SubscriptionId → Option KeyArc}
variable {marks : List Mark}

theorem start : Interning ∅ 0 (fun _ => none) [] := by
  constructor <;> simp

section
variable (h : Interning keys addrs arcs marks)
include h

theorem fewer {arcs' : SubscriptionId → Option KeyArc}
    (fewer : ∀ id arc, arcs' id = some arc → arcs id = some arc) :
    Interning keys addrs arcs' marks where
  keyed := h.keyed
  allocated held := h.allocated (fewer _ _ held)
  noted held := h.noted (fewer _ _ held)
  current held := h.current (fewer _ _ held)
  shared held held' := h.shared (fewer _ _ held) (fewer _ _ held')

theorem groupMark {mark : Mark} (interns : ∀ key id, mark ≠ .intern key id)
    (drops : ∀ key, mark ≠ .dropKey key) :
    Interning keys addrs arcs (marks ++ [mark]) where
  keyed := h.keyed
  allocated := h.allocated
  noted held := List.mem_append_left _ (h.noted held)
  current held := by
    rw [h.current held, droppedAfterIntern_concat]
    simp [drops]
  shared held held' same := by
    rw [h.shared held held' same, droppedBetween_concat, droppedBetween_concat]
    simp [interns]

theorem dropKey (key : QueueGroupKey) :
    Interning (keys.erase key) addrs arcs (marks ++ [.dropKey key]) where
  keyed found := by
    exact h.keyed (lookup_erase_eq_some.mp found).2
  allocated := h.allocated
  noted held := List.mem_append_left _ (h.noted held)
  current {id arc} held := by
    rw [lookup_erase_ite, droppedAfterIntern_concat]
    by_cases here : arc.key = key
    · simp [here, here ▸ h.noted held]
    · rw [if_neg here, h.current held]
      simp [Ne.symm here]
  shared held held' same := by
    rw [h.shared held held' same, droppedBetween_concat, droppedBetween_concat]
    simp

theorem intern {keys' : Table QueueGroupKey KeyArc} {addrs' : ℕ} {arc : KeyArc}
    (id : SubscriptionId) (new : .intern arc.key id ∉ marks)
    (found : keys'.lookup arc.key = some arc) (more : addrs ≤ addrs') (inside : arc.addr < addrs')
    (others : ∀ key, key ≠ arc.key → keys'.lookup key = keys.lookup key)
    (holders : ∀ id' arc', arcs id' = some arc' → arc'.key = arc.key →
      (arc' = arc ↔ keys.lookup arc.key = some arc')) :
    Interning keys' addrs' (Function.update arcs id (some arc))
      (marks ++ [.intern arc.key id]) := by
  -- the new holder and any earlier one
  have meets : ∀ {id' arc'}, id' ≠ id → arcs id' = some arc' → arc'.key = arc.key →
      (arc' = arc ↔ ¬DroppedBetween (marks ++ [.intern arc.key id]) arc.key id' id ∧
        ¬DroppedBetween (marks ++ [.intern arc.key id]) arc.key id id') := by
    intro id' arc' other held same
    have before : ¬DroppedBetween marks arc.key id' id := fun between => new between.second
    have behind : ¬DroppedBetween marks arc.key id id' := fun between => new between.first
    have current := h.current held
    rw [same] at current
    rw [holders id' arc' held same, current, droppedBetween_concat, droppedBetween_concat]
    simp [before, behind, Ne.symm other]
  constructor
  · intro key arc' lookup
    by_cases here : key = arc.key
    · rw [here, found] at lookup
      cases lookup
      exact ⟨here.symm, inside⟩
    · obtain ⟨same, addr⟩ := h.keyed (others key here ▸ lookup)
      exact ⟨same, addr.trans_le more⟩
  · intro id' arc' held
    obtain ⟨rfl, rfl⟩ | ⟨_, held⟩ := update_eq_some held
    · exact inside
    · exact (h.allocated held).trans_le more
  · intro id' arc' held
    obtain ⟨rfl, rfl⟩ | ⟨_, held⟩ := update_eq_some held
    · exact List.mem_concat_self
    · exact List.mem_append_left _ (h.noted held)
  · intro id' arc' held
    rw [droppedAfterIntern_concat]
    obtain ⟨rfl, rfl⟩ | ⟨_, held⟩ := update_eq_some held
    · have fresh : ¬DroppedAfterIntern marks arc'.key id' := fun dropped => new dropped.interned
      simp [found, fresh]
    · have lookup : keys'.lookup arc'.key = some arc' ↔ keys.lookup arc'.key = some arc' := by
        by_cases same : arc'.key = arc.key
        · rw [same, found, Option.some.injEq, eq_comm, holders id' arc' held same]
        · rw [others _ same]
      rw [lookup, h.current held]
      simp
  · intro id₁ id₂ arc₁ arc₂ held₁ held₂ same
    obtain ⟨rfl, rfl⟩ | ⟨one, left⟩ := update_eq_some held₁
    · obtain ⟨rfl, rfl⟩ | ⟨two, right⟩ := update_eq_some held₂
      · have never : ¬DroppedBetween marks arc₂.key id₂ id₂ := fun between => new between.first
        have fresh : ¬DroppedAfterIntern marks arc₂.key id₂ := fun dropped => new dropped.interned
        simp [droppedBetween_concat, never, fresh]
      · rw [eq_comm, meets two right same.symm, and_comm]
    · obtain ⟨rfl, rfl⟩ | ⟨two, right⟩ := update_eq_some held₂
      · rw [meets one left same, same]
      · rw [h.shared left right same, droppedBetween_concat, droppedBetween_concat]
        simp [Ne.symm one, Ne.symm two]

end

theorem internKey {b : BrokerCore} (h : Interning b.queueGroupKeys b.nextAddr arcs marks)
    {key : QueueGroupKey} {id : SubscriptionId} (new : .intern key id ∉ marks) :
    (b.internKey key).2.key = key ∧
    Interning (b.internKey key).1.queueGroupKeys (b.internKey key).1.nextAddr
      (Function.update arcs id (some (b.internKey key).2)) (marks ++ [.intern key id]) := by
  rw [BrokerCore.internKey]
  cases found : b.queueGroupKeys.lookup key with
  | some arc =>
    obtain ⟨rfl, inside⟩ := h.keyed found
    refine ⟨rfl, h.intern id new found le_rfl inside (fun _ _ => rfl) fun id' arc' _ _ => ?_⟩
    rw [found, Option.some.injEq, eq_comm]
  | none =>
    refine ⟨rfl, @intern _ _ _ _ h _ _ ⟨b.nextAddr, key⟩ id new (AList.lookup_insert _)
      (Nat.le_succ _) (Nat.lt_succ_self _) (fun _ => AList.lookup_insert_ne) ?_⟩
    intro id' arc' held _
    have earlier := h.allocated held
    rw [found]
    refine iff_of_false (fun same => ?_) (by simp)
    rw [same] at earlier
    exact absurd earlier (Nat.lt_irrefl _)

end Interning

/-- The members of a group, none if there is no such group. -/
def membersOf (groups : Table QueueGroupKey QueueGroupState) (key : QueueGroupKey) :
    List SubscriptionId :=
  ((groups.lookup key).map (·.members)).getD []

/-- Who of those that joined a group is a member of it, as the marks tell. -/
structure Membership (groups : Table QueueGroupKey QueueGroupState)
    (arcs : SubscriptionId → Option KeyArc) (marks : List Mark) : Prop where
  noted : ∀ {id arc}, arcs id = some arc → .join arc.key id ∈ marks
  member : ∀ {id arc}, arcs id = some arc →
    (id ∈ membersOf groups arc.key ↔ ¬DroppedAfterJoin marks arc.key id)

namespace Membership
variable {groups groups' : Table QueueGroupKey QueueGroupState}
variable {arcs : SubscriptionId → Option KeyArc} {marks : List Mark}

theorem start : Membership ∅ (fun _ => none) [] := by
  constructor <;> simp

section
variable (h : Membership groups arcs marks)
include h

theorem fewer {arcs' : SubscriptionId → Option KeyArc}
    (fewer : ∀ id arc, arcs' id = some arc → arcs id = some arc) :
    Membership groups arcs' marks where
  noted held := h.noted (fewer _ _ held)
  member held := h.member (fewer _ _ held)

theorem keyMark {mark : Mark} (drops : ∀ key, mark ≠ .dropGroup key) :
    Membership groups arcs (marks ++ [mark]) where
  noted held := List.mem_append_left _ (h.noted held)
  member held := by
    rw [h.member held, droppedAfterJoin_concat]
    simp [drops]

theorem dropGroup (key : QueueGroupKey) :
    Membership (groups.erase key) arcs (marks ++ [.dropGroup key]) where
  noted held := List.mem_append_left _ (h.noted held)
  member {id arc} held := by
    rw [membersOf, lookup_erase_ite, droppedAfterJoin_concat]
    by_cases here : arc.key = key
    · simp [here, here ▸ h.noted held]
    · rw [if_neg here, ← membersOf, h.member held]
      simp [Ne.symm here]

theorem retain (kept : ∀ id arc, arcs id = some arc →
      (id ∈ membersOf groups' arc.key ↔ id ∈ membersOf groups arc.key)) :
    Membership groups' arcs marks where
  noted := h.noted
  member held := (kept _ _ held).trans (h.member held)

theorem join {arc : KeyArc} (id : SubscriptionId) (new : .join arc.key id ∉ marks)
    (grown : ∀ key, membersOf groups' key =
      if key = arc.key then membersOf groups key ++ [id] else membersOf groups key) :
    Membership groups' (Function.update arcs id (some arc)) (marks ++ [.join arc.key id]) where
  noted {id' arc'} held := by
    obtain ⟨rfl, rfl⟩ | ⟨_, held⟩ := update_eq_some held
    · exact List.mem_concat_self
    · exact List.mem_append_left _ (h.noted held)
  member {id' arc'} held := by
    rw [droppedAfterJoin_concat, grown]
    obtain ⟨rfl, rfl⟩ | ⟨here, held⟩ := update_eq_some held
    · have fresh : ¬DroppedAfterJoin marks arc'.key id' := fun dropped => new dropped.joined
      simp [fresh]
    · have unchanged := h.member held
      split <;> simp [here, unchanged]

end

end Membership

end ZetMQ.GroupMarks
