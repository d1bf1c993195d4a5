import ZetMQ.Routing

/-! The routing engine against its specification, an insertion-ordered table of
live entries. Every operation of the engine follows the same operation of the
table, so a match returns the table's matching entries and nothing else. -/
namespace ZetMQ.RoutingTable
open Utf8Text SubjectGrammar WildcardTrie KeyedTable Routing

abbrev RouteTable := List (SubscriptionId × SubjectPattern)

def idsIn (live : RouteTable) (slot : Slot) : List SubscriptionId :=
  (live.filter fun entry => slotOf entry.2 = slot).map Prod.fst

/-- Each slot lists its live entries in insertion order, and the two shortcuts
around the trie agree with its contents. -/
structure Represents (engine : RoutingEngine) (live : RouteTable) : Prop where
  ids : ∀ slot, engine.idsAt slot = idsIn live slot
  count : engine.wildcardTrie.subscriberCount =
    (live.filter fun entry => hasWildcard entry.2).length
  flag : engine.hasWildcards = !engine.wildcardTrie.isEmpty

theorem represents_new : Represents .new [] := by
  refine ⟨?_, rfl, rfl⟩
  intro slot
  cases slot with
  | exact key => rfl
  | trie slot => exact TrieNode.idsAt_empty slot

theorem idsAt_insert (engine : RoutingEngine) (pattern : SubjectPattern) (id : SubscriptionId)
    (slot : Slot) :
    (engine.insert pattern id).idsAt slot =
      if slotOf pattern = slot then engine.idsAt slot ++ [id] else engine.idsAt slot := by
  unfold RoutingEngine.insert slotOf
  cases hasWildcard pattern with
  | false =>
    cases slot with
    | exact key =>
      simp only [Bool.not_false, if_true, RoutingEngine.idsAt, lookup_upsert, Bool.false_eq_true,
        if_false, Slot.exact.injEq, @eq_comm _ pattern.raw key]
      split_ifs with here
      · rw [here, Option.getD_some]
      · rfl
    | trie slot => simp [RoutingEngine.idsAt]
  | true =>
    cases slot with
    | exact key => simp [RoutingEngine.idsAt]
    | trie slot =>
      have updated := TrieNode.insert_updates id (hasMulti pattern.tokens)
        (pattern.tokens.map tokenText) engine.wildcardTrie.root slot
      simp only [Bool.not_true, Bool.false_eq_true, if_false, if_true, RoutingEngine.idsAt,
        SubjectTrie.insert, Slot.trie.injEq, updated, trieTarget, eq_comm]

theorem idsAt_remove (engine : RoutingEngine) (pattern : SubjectPattern) (id : SubscriptionId)
    (slot : Slot) :
    (engine.remove pattern id).idsAt slot =
      if slotOf pattern = slot then (engine.idsAt slot).filter (· ≠ id)
      else engine.idsAt slot := by
  unfold RoutingEngine.remove slotOf
  cases hasWildcard pattern with
  | false =>
    cases slot with
    | exact key =>
      simp only [Bool.not_false, if_true, RoutingEngine.idsAt, lookup_modify, Bool.false_eq_true,
        if_false, Slot.exact.injEq, @eq_comm _ pattern.raw key]
      split_ifs with here
      · rw [here]
        cases engine.exact.lookup pattern.raw <;> rfl
      · rfl
    | trie slot => simp [RoutingEngine.idsAt]
  | true =>
    cases slot with
    | exact key => simp [RoutingEngine.idsAt]
    | trie slot =>
      have updated := TrieNode.remove_updates id (hasMulti pattern.tokens)
        (pattern.tokens.map tokenText) engine.wildcardTrie.root slot
      simp only [Bool.not_true, Bool.false_eq_true, if_false, if_true, RoutingEngine.idsAt,
        SubjectTrie.remove, Slot.trie.injEq, updated, trieTarget, eq_comm]

theorem isEmpty_remove {trie : SubjectTrie} (empty : trie.isEmpty = true) (tokens : List Str)
    (id : SubscriptionId) (hasMulti : Bool) :
    (trie.remove tokens id hasMulti).isEmpty = true := by
  rw [SubjectTrie.isEmpty, beq_iff_eq] at empty ⊢
  rw [SubjectTrie.remove, empty]
  exact ite_self _

section Flag
variable {engine : RoutingEngine} (flag : engine.hasWildcards = !engine.wildcardTrie.isEmpty)
  (pattern : SubjectPattern) (id : SubscriptionId)
include flag

theorem flag_insert : (engine.insert pattern id).hasWildcards =
    !(engine.insert pattern id).wildcardTrie.isEmpty := by
  rw [RoutingEngine.insert]
  cases hasWildcard pattern with
  | false => exact flag
  | true => rfl

theorem flag_remove : (engine.remove pattern id).hasWildcards =
    !(engine.remove pattern id).wildcardTrie.isEmpty := by
  rw [RoutingEngine.remove]
  cases hasWildcard pattern with
  | false => exact flag
  | true =>
    simp only [Bool.not_true, Bool.false_eq_true, if_false]
    split_ifs with empty
    · rw [empty, Bool.not_true]
    · -- a trie that is not empty now was not empty before, so the flag was up
      have full : engine.wildcardTrie.isEmpty = false :=
        Bool.eq_false_iff.mpr fun before => empty (isEmpty_remove before _ _ _)
      rw [flag, full, Bool.eq_false_iff.mpr empty]

end Flag

theorem Represents.insert {engine : RoutingEngine} {live : RouteTable}
    (h : Represents engine live) (pattern : SubjectPattern) (id : SubscriptionId) :
    Represents (engine.insert pattern id) (live ++ [(id, pattern)]) := by
  refine ⟨?_, ?_, flag_insert h.flag pattern id⟩
  · intro slot
    rw [idsAt_insert, h.ids, idsIn, idsIn, List.filter_append, List.map_append]
    split_ifs with here <;> simp [here]
  · have count := h.count
    unfold RoutingEngine.insert
    cases wild : hasWildcard pattern <;> simp [wild, count, SubjectTrie.insert]

theorem filter_ne_idsIn (live : RouteTable) (id : SubscriptionId) (slot : Slot) :
    idsIn (live.filter (·.1 ≠ id)) slot = (idsIn live slot).filter (· ≠ id) := by
  rw [idsIn, idsIn, List.filter_map, List.filter_filter, List.filter_filter]
  congr 1
  refine List.filter_congr ?_
  intro entry _
  simp [Bool.and_comm]

variable {live : RouteTable}

theorem mem_idsIn {id : SubscriptionId} {slot : Slot} :
    id ∈ idsIn live slot ↔ ∃ pattern, (id, pattern) ∈ live ∧ slotOf pattern = slot := by
  simp [idsIn]

private theorem length_filter_ne (live : RouteTable) (nodup : (live.map Prod.fst).Nodup)
    (id : SubscriptionId) :
    (live.filter (·.1 ≠ id)).length =
      if id ∈ live.map Prod.fst then live.length - 1 else live.length := by
  have erased : (live.filter (·.1 ≠ id)).map Prod.fst = (live.map Prod.fst).erase id := by
    rw [nodup.erase_eq_filter, List.filter_map]
    congr 1
    refine List.filter_congr ?_
    intro entry _
    by_cases same : entry.1 = id <;> simp [same]
  rw [← List.length_map (f := Prod.fst), erased, List.length_erase, List.length_map]

theorem remove_subscriberCount {engine : RoutingEngine} (h : Represents engine live)
    (nodup : (live.map Prod.fst).Nodup) {pattern : SubjectPattern} {id : SubscriptionId}
    (own : ∀ other, (id, other) ∈ live → other = pattern) :
    (engine.remove pattern id).wildcardTrie.subscriberCount =
      ((live.filter (·.1 ≠ id)).filter fun entry => hasWildcard entry.2).length := by
  set wild := live.filter fun entry => hasWildcard entry.2 with wildDef
  have swapped : (live.filter (·.1 ≠ id)).filter (fun entry => hasWildcard entry.2) =
      wild.filter (·.1 ≠ id) := by
    rw [wildDef, List.filter_filter, List.filter_filter]
    exact List.filter_congr fun entry _ => Bool.and_comm ..
  have nodupWild : (wild.map Prod.fst).Nodup :=
    nodup.sublist ((List.filter_sublist ..).map Prod.fst)
  rw [swapped, length_filter_ne wild nodupWild, ← h.count]
  have inWild : id ∈ wild.map Prod.fst ↔ (id, pattern) ∈ live ∧ hasWildcard pattern = true := by
    simp only [wildDef, List.mem_map, List.mem_filter]
    constructor
    · rintro ⟨⟨_, other⟩, ⟨member, isWild⟩, rfl⟩
      obtain rfl := own other member
      exact ⟨member, isWild⟩
    · rintro ⟨member, isWild⟩
      exact ⟨(id, pattern), ⟨member, isWild⟩, rfl⟩
  unfold RoutingEngine.remove
  cases kind : hasWildcard pattern with
  | false =>
    rw [if_neg (show ¬id ∈ wild.map Prod.fst by simp [inWild, kind])]
    simp
  | true =>
    have found := TrieNode.remove_found id (hasMulti pattern.tokens)
      (pattern.tokens.map tokenText) engine.wildcardTrie.root
    have slot : engine.wildcardTrie.root.idsAt
        (target (pattern.tokens.map tokenText) (hasMulti pattern.tokens)) =
        idsIn live (slotOf pattern) := by
      rw [← h.ids, slotOf, kind]
      rfl
    have listed : id ∈ idsIn live (slotOf pattern) ↔ id ∈ wild.map Prod.fst := by
      rw [mem_idsIn, inWild, kind]
      constructor
      · rintro ⟨other, member, -⟩
        exact ⟨own other member ▸ member, rfl⟩
      · rintro ⟨member, -⟩
        exact ⟨pattern, member, rfl⟩
    rw [slot, listed] at found
    simp only [Bool.not_true, Bool.false_eq_true, if_false, SubjectTrie.remove, found]

theorem filter_ne_absent {id : SubscriptionId} {ids : List SubscriptionId} (absent : id ∉ ids) :
    ids.filter (· ≠ id) = ids := by
  rw [List.filter_eq_self]
  intro other member
  exact decide_eq_true fun same => absent (same ▸ member)

theorem Represents.remove {engine : RoutingEngine} (h : Represents engine live)
    (nodup : (live.map Prod.fst).Nodup) {pattern : SubjectPattern} {id : SubscriptionId}
    (own : ∀ other, (id, other) ∈ live → other = pattern) :
    Represents (engine.remove pattern id) (live.filter (·.1 ≠ id)) := by
  refine ⟨fun slot => ?_, remove_subscriberCount h nodup own, flag_remove h.flag pattern id⟩
  rw [idsAt_remove, h.ids, filter_ne_idsIn]
  split_ifs with here
  · rfl
  · refine (filter_ne_absent fun member => ?_).symm
    obtain ⟨pattern', live', there⟩ := mem_idsIn.mp member
    exact here (own pattern' live' ▸ there)

theorem matchWildcards_eq {engine : RoutingEngine} (h : Represents engine live)
    (subject : Subject) :
    engine.matchWildcards subject =
      ((visited subject.tokens).map Slot.trie).flatMap (idsIn live) := by
  have trie : engine.wildcardTrie.matchSubject subject =
      ((visited subject.tokens).map Slot.trie).flatMap (idsIn live) := by
    rw [SubjectTrie.matchSubject, matchRecursive_eq, List.nil_append, List.flatMap_map]
    exact congrArg (List.flatMap · _) (funext fun slot => h.ids (.trie slot))
  unfold RoutingEngine.matchWildcards
  split_ifs with flag
  · exact trie
  · have empty : live.filter (fun entry => hasWildcard entry.2) = [] := by
      rw [← List.length_eq_zero_iff, ← h.count]
      simpa [SubjectTrie.isEmpty, flag] using h.flag
    rw [eq_comm, List.flatMap_eq_nil_iff]
    intro slot member
    obtain ⟨slot, -, rfl⟩ := List.mem_map.mp member
    rw [idsIn, List.map_eq_nil_iff, List.filter_eq_nil_iff]
    intro entry listed here
    have wild : hasWildcard entry.2 = true := by
      by_contra exact
      simp [slotOf, exact] at here
    exact List.filter_eq_nil_iff.mp empty entry listed wild

theorem matchSubject_eq {engine : RoutingEngine} (h : Represents engine live) (subject : Subject) :
    engine.matchSubject subject = (slotsFor subject).flatMap (idsIn live) := by
  have halves : engine.matchSubject subject =
      engine.idsAt (.exact subject.raw) ++ engine.matchWildcards subject := by
    unfold RoutingEngine.matchSubject RoutingEngine.matchWildcards
    split_ifs
    · rfl
    · exact (List.append_nil _).symm
  rw [halves, h.ids, matchWildcards_eq h, slotsFor, List.flatMap_cons]

theorem mem_matchSubject {engine : RoutingEngine} (h : Represents engine live) (subject : Subject)
    (id : SubscriptionId) :
    id ∈ engine.matchSubject subject ↔
      ∃ pattern, (id, pattern) ∈ live ∧ pattern.matches subject = true := by
  simp only [matchSubject_eq h, List.mem_flatMap, mem_idsIn]
  constructor
  · rintro ⟨_, listed, pattern, member, rfl⟩
    exact ⟨pattern, member, (slotOf_mem_slotsFor pattern subject).mp listed⟩
  · rintro ⟨pattern, member, accepted⟩
    exact ⟨_, (slotOf_mem_slotsFor pattern subject).mpr accepted, pattern, member, rfl⟩

theorem eq_of_nodup_fst (nodup : (live.map Prod.fst).Nodup) {id : SubscriptionId}
    {p q : SubjectPattern} (hp : (id, p) ∈ live) (hq : (id, q) ∈ live) : p = q := by
  have := List.inj_on_of_nodup_map nodup hp hq rfl
  exact (Prod.mk.inj this).2

theorem matchSubject_nodup {engine : RoutingEngine} (h : Represents engine live)
    (nodup : (live.map Prod.fst).Nodup) (subject : Subject) :
    (engine.matchSubject subject).Nodup := by
  rw [matchSubject_eq h, List.nodup_flatMap]
  constructor
  · intro slot _
    exact nodup.sublist ((List.filter_sublist ..).map Prod.fst)
  · refine (slotsFor_nodup subject).imp ?_
    intro slot slot' different id left right
    obtain ⟨p, hp, rfl⟩ := mem_idsIn.mp left
    obtain ⟨q, hq, rfl⟩ := mem_idsIn.mp right
    exact different (eq_of_nodup_fst nodup hp hq ▸ rfl)

inductive RouterOp where
  | insert (pattern : SubjectPattern) (id : SubscriptionId)
  | remove (pattern : SubjectPattern) (id : SubscriptionId)

def RouterOp.apply (engine : RoutingEngine) : RouterOp → RoutingEngine
  | .insert pattern id => engine.insert pattern id
  | .remove pattern id => engine.remove pattern id

/-- The entries currently inserted, as the history alone determines them. -/
def RouterOp.track (live : RouteTable) : RouterOp → RouteTable
  | .insert pattern id => live ++ [(id, pattern)]
  | .remove _ id => live.filter (·.1 ≠ id)

def RouterOp.Admissible (live : RouteTable) : RouterOp → Prop
  | .insert _ id => id ∉ live.map Prod.fst
  | .remove pattern id => ∀ entry ∈ live, entry.1 = id → entry.2 = pattern

def AdmissibleFrom : RouteTable → List RouterOp → Prop
  | _, [] => True
  | live, op :: ops => op.Admissible live ∧ AdmissibleFrom (op.track live) ops

instance (live : RouteTable) : (op : RouterOp) → Decidable (op.Admissible live)
  | .insert _ id => inferInstanceAs (Decidable (id ∉ live.map Prod.fst))
  | .remove pattern id =>
    inferInstanceAs (Decidable (∀ entry ∈ live, entry.1 = id → entry.2 = pattern))

instance decidableAdmissibleFrom : (live : RouteTable) → (ops : List RouterOp) →
    Decidable (AdmissibleFrom live ops)
  | _, [] => inferInstanceAs (Decidable True)
  | live, op :: ops =>
    have := decidableAdmissibleFrom (op.track live) ops
    inferInstanceAs (Decidable (op.Admissible live ∧ AdmissibleFrom (op.track live) ops))

theorem step_represents {engine : RoutingEngine} {op : RouterOp} (h : Represents engine live)
    (nodup : (live.map Prod.fst).Nodup) (ok : op.Admissible live) :
    Represents (op.apply engine) (op.track live) ∧ ((op.track live).map Prod.fst).Nodup := by
  cases op with
  | insert pattern id =>
    refine ⟨h.insert pattern id, ?_⟩
    rw [RouterOp.track, List.map_append, List.map_singleton]
    exact List.nodup_append.mpr ⟨nodup, List.nodup_singleton id, by
      rintro a member b single rfl
      have same : a = id := List.mem_singleton.mp single
      exact ok (same ▸ member)⟩
  | remove pattern id =>
    refine ⟨h.remove nodup fun other member => ok _ member rfl, ?_⟩
    exact nodup.sublist ((List.filter_sublist ..).map Prod.fst)

theorem run_represents (ops : List RouterOp) {engine : RoutingEngine} (h : Represents engine live)
    (nodup : (live.map Prod.fst).Nodup) (ok : AdmissibleFrom live ops) :
    Represents (ops.foldl RouterOp.apply engine) (ops.foldl RouterOp.track live) ∧
      ((ops.foldl RouterOp.track live).map Prod.fst).Nodup := by
  induction ops generalizing engine live with
  | nil => exact ⟨h, nodup⟩
  | cons op ops ih =>
    obtain ⟨first, rest⟩ := ok
    obtain ⟨next, nextNodup⟩ := step_represents h nodup first
    exact ih next nextNodup rest

/-- A match contains every inserted id whose pattern accepts the subject once,
and no other id, after any admissible history. -/
theorem routing_exact (ops : List RouterOp) (ok : AdmissibleFrom [] ops) (subject : Subject)
    (id : SubscriptionId) :
    ((ops.foldl RouterOp.apply .new).matchSubject subject).count id =
      if ∃ entry ∈ ops.foldl RouterOp.track [], entry.1 = id ∧ entry.2.matches subject = true
      then 1 else 0 := by
  obtain ⟨represents, nodup⟩ := run_represents ops represents_new List.nodup_nil ok
  have once := matchSubject_nodup represents nodup subject
  have listed := mem_matchSubject represents subject id
  split_ifs with found
  · obtain ⟨⟨_, pattern⟩, member, rfl, accepted⟩ := found
    exact List.count_eq_one_of_mem once (listed.mpr ⟨pattern, member, accepted⟩)
  · refine List.count_eq_zero.mpr fun member => found ?_
    obtain ⟨pattern, inserted, accepted⟩ := listed.mp member
    exact ⟨(id, pattern), inserted, rfl, accepted⟩

def ordersNew : SubjectPattern := parsed (SubjectPattern.parse "orders.new".toList) (by decide)
def ordersAny : SubjectPattern := parsed (SubjectPattern.parse "orders.*".toList) (by decide)
def ordersTail : SubjectPattern := parsed (SubjectPattern.parse "orders.>".toList) (by decide)
def newOrder : Subject := parsed (Subject.parse "orders.new".toList) (by decide)

def ordersHistory : List RouterOp :=
  [.insert ordersAny 1, .insert ordersNew 2, .insert ordersTail 3, .insert ordersNew 4,
    .remove ordersNew 2]

set_option maxRecDepth 4000 in
theorem routing_exact_orders :
    AdmissibleFrom [] ordersHistory ∧
      ((ordersHistory.foldl RouterOp.apply .new).matchSubject newOrder).count 3 = 1 ∧
      ((ordersHistory.foldl RouterOp.apply .new).matchSubject newOrder).count 2 = 0 := by
  have ok : AdmissibleFrom [] ordersHistory := by decide
  refine ⟨ok, ?_, ?_⟩
  · rw [routing_exact ordersHistory ok]
    decide
  · rw [routing_exact ordersHistory ok]
    decide

end ZetMQ.RoutingTable
