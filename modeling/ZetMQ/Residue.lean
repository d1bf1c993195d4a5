import Mathlib.Algebra.Order.BigOperators.Group.List
import ZetMQ.QueueGroups
import ZetMQ.TableRows

/-! Rows without a subscription. Unsubscribing empties the rows it touches and leaves them
where they are; only a closing connection takes rows away, and of the router none. So a
broker is free of residue exactly if its history has left nothing behind. -/
namespace ZetMQ.Residue
open Utf8Text SubjectGrammar WildcardTrie KeyedTable Routing RoutingTable Delivery Registry Broker
open SubscriptionLedger RegistryRefinement DeliveryFrame BrokerRefinement RunRefinement TableRows
open QueueGroups

def Backed (b : BrokerCore) (test : Subscription → Prop) : Prop :=
  ∃ id sub, b.registry.getRef id = some sub ∧ test sub

def nodePath (pattern : SubjectPattern) : List Str := (trieTarget pattern.tokens).path

theorem nodePath_length (pattern : SubjectPattern) :
    (nodePath pattern).length ≤ pattern.tokens.length := by
  rw [nodePath, trieTarget, target]
  split_ifs <;> simp

/-- Every row of every table belongs to a live subscription. -/
structure Clean (b : BrokerCore) : Prop where
  exact : ∀ key ∈ b.router.exact,
    Backed b fun sub => hasWildcard sub.pattern = false ∧ sub.pattern.raw = key
  groups : ∀ key ∈ b.queueGroups, Backed b (inGroup key)
  keys : ∀ key ∈ b.queueGroupKeys, Backed b (inGroup key)
  conns : ∀ conn ∈ b.registry.byConnection, Backed b fun sub => sub.connectionId = conn
  nodes : ∀ path ≠ [], hasNode path b.router.wildcardTrie.root = true →
    Backed b fun sub => hasWildcard sub.pattern = true ∧ path <+: nodePath sub.pattern

structure Bounded (b : BrokerCore) : Prop where
  exact : size b.router.exact ≤ size b.registry.subscriptions
  groups : size b.queueGroups ≤ size b.registry.subscriptions
  keys : size b.queueGroupKeys ≤ size b.registry.subscriptions
  conns : size b.registry.byConnection ≤ size b.registry.subscriptions
  nodes : ∀ paths : List (List Str), paths.Nodup →
    (∀ path ∈ paths, path ≠ [] ∧ hasNode path b.router.wildcardTrie.root = true) →
    paths.length ≤ ((values b.registry.subscriptions).map (·.pattern.tokens.length)).sum

structure Settled (ops : List BrokerOp) : Prop where
  exact : ∀ conn pattern group handle, .subscribe conn pattern group handle ∈ ops →
    hasWildcard pattern = false → ∃ entry ∈ (ledgerOf ops).live, entry.pattern = pattern
  nodes : ∀ conn pattern group handle, .subscribe conn pattern group handle ∈ ops →
    hasWildcard pattern = true → nodePath pattern ≠ [] →
    ∃ entry ∈ (ledgerOf ops).live, hasWildcard entry.pattern = true ∧
      nodePath pattern <+: nodePath entry.pattern
  conns : ∀ conn ∈ (footprint ops).conns, ∃ entry ∈ (ledgerOf ops).live, entry.conn = conn
  groups : ∀ key ∈ (footprint ops).groups,
    ∃ entry ∈ (ledgerOf ops).live, entry.groupKey = some key

theorem backed_iff {b : BrokerCore} {l : Ledger} (h : Refines b l) {test : Subscription → Prop}
    {live : LiveSub → Prop}
    (same : ∀ id sub, b.registry.getRef id = some sub → (test sub ↔ live (toLive sub))) :
    Backed b test ↔ ∃ entry ∈ l.live, live entry := by
  constructor
  · rintro ⟨id, sub, found, passed⟩
    exact ⟨toLive sub, (h.registry.of_lookup found).2, (same id sub found).mp passed⟩
  · rintro ⟨entry, listed, passed⟩
    obtain ⟨sub, found, rfl⟩ := h.registry.lookup_of_mem listed
    exact ⟨_, sub, found, (same _ sub found).mpr passed⟩

section
variable {b : BrokerCore} {l : Ledger} (h : Refines b l)
include h

theorem size_le_of_backed {K V : Type} [DecidableEq K] {t : Table K V}
    (key : Subscription → Option K) (backed : ∀ k ∈ t, Backed b fun sub => key sub = some k) :
    size t ≤ size b.registry.subscriptions := by
  have listed : t.keys ⊆ (values b.registry.subscriptions).filterMap key := by
    intro k member
    obtain ⟨id, sub, found, same⟩ := backed k member
    have own := h.registry.keyed id sub found
    rw [← own] at found
    exact List.mem_filterMap.mpr ⟨sub, (mem_values_iff h.registry.keyed sub).mpr found, same⟩
  calc size t ≤ ((values b.registry.subscriptions).filterMap key).length :=
        (List.subperm_of_subset t.keys_nodup listed).length_le
    _ ≤ (values b.registry.subscriptions).length := List.length_filterMap_le _ _
    _ = size b.registry.subscriptions := by
        rw [values, List.length_reverse, List.length_map, size, AList.keys, List.keys,
          List.length_map]

theorem nodes_le {paths : List (List Str)} (nodup : paths.Nodup)
    (backed : ∀ path ∈ paths, path ≠ [] ∧ Backed b fun sub => path <+: nodePath sub.pattern) :
    paths.length ≤ ((values b.registry.subscriptions).map (·.pattern.tokens.length)).sum := by
  let ways (sub : Subscription) : List (List Str) :=
    (List.range (nodePath sub.pattern).length).map fun n => (nodePath sub.pattern).take (n + 1)
  have listed : paths ⊆ (values b.registry.subscriptions).flatMap ways := by
    intro path member
    obtain ⟨filled, id, sub, found, way⟩ := backed path member
    have own := h.registry.keyed id sub found
    rw [← own] at found
    have long := way.length_le
    have positive := List.length_pos_of_ne_nil filled
    refine List.mem_flatMap.mpr ⟨sub, (mem_values_iff h.registry.keyed sub).mpr found, ?_⟩
    refine List.mem_map.mpr ⟨path.length - 1, List.mem_range.mpr (by omega), ?_⟩
    rw [Nat.sub_add_cancel positive]
    exact (List.prefix_iff_eq_take.mp way).symm
  calc paths.length ≤ ((values b.registry.subscriptions).flatMap ways).length :=
        (List.subperm_of_subset nodup listed).length_le
    _ = ((values b.registry.subscriptions).map fun sub => (nodePath sub.pattern).length).sum := by
        simp [List.length_flatMap, ways]
    _ ≤ _ := List.sum_le_sum fun sub _ => nodePath_length sub.pattern

theorem Clean.bounded (clean : Clean b) : Bounded b where
  exact := size_le_of_backed h (fun sub => some sub.pattern.raw) fun key present => by
    obtain ⟨id, sub, found, -, rfl⟩ := clean.exact key present
    exact ⟨id, sub, found, rfl⟩
  groups := size_le_of_backed h (fun sub => sub.queueGroupKey.map KeyArc.key) clean.groups
  keys := size_le_of_backed h (fun sub => sub.queueGroupKey.map KeyArc.key) clean.keys
  conns := size_le_of_backed h (fun sub => some sub.connectionId) fun conn present => by
    obtain ⟨id, sub, found, rfl⟩ := clean.conns conn present
    exact ⟨id, sub, found, rfl⟩
  nodes paths nodup present := nodes_le h nodup fun path member => by
    obtain ⟨filled, here⟩ := present path member
    obtain ⟨id, sub, found, -, way⟩ := clean.nodes path filled here
    exact ⟨filled, id, sub, found, way⟩

theorem inGroup_backed (key : QueueGroupKey) :
    Backed b (inGroup key) ↔ ∃ entry ∈ l.live, entry.groupKey = some key :=
  backed_iff h fun id sub found => by rw [inGroup, h.held id sub found]

end

/-- A broker is without residue exactly if nothing of its history was given up. -/
theorem no_residue_iff (env : DeliveryPolicy) (ops : List BrokerOp) :
    Clean (run env ops) ∧ Bounded (run env ops) ↔ Settled ops := by
  have refines := run_refines env ops
  have rows := run_rows env ops
  have exactBacked (key : Str) := @backed_iff _ _ refines
    (fun sub => hasWildcard sub.pattern = false ∧ sub.pattern.raw = key)
    (fun entry => hasWildcard entry.pattern = false ∧ entry.pattern.raw = key) fun _ _ _ => .rfl
  have nodeBacked (path : List Str) := @backed_iff _ _ refines
    (fun sub => hasWildcard sub.pattern = true ∧ path <+: nodePath sub.pattern)
    (fun entry => hasWildcard entry.pattern = true ∧ path <+: nodePath entry.pattern)
    fun _ _ _ => .rfl
  have connBacked (conn : ConnectionId) := @backed_iff _ _ refines
    (fun sub => sub.connectionId = conn) (fun entry => entry.conn = conn) fun _ _ _ => .rfl
  have groupBacked := inGroup_backed refines
  rw [and_iff_left_of_imp (Clean.bounded refines)]
  constructor
  · intro clean
    refine ⟨?_, ?_, ?_, ?_⟩
    · intro conn pattern group handle asked literal
      have subscribed := (footprint_patterns ops pattern).mpr ⟨conn, group, handle, asked⟩
      obtain ⟨entry, listed, -, same⟩ := (exactBacked pattern.raw).mp
        (clean.exact _ ((rows.router.exact _).mpr ⟨pattern, subscribed, literal, rfl⟩))
      exact ⟨entry, listed, SubjectPattern.ext_raw same⟩
    · intro conn pattern group handle asked wild filled
      have subscribed := (footprint_patterns ops pattern).mpr ⟨conn, group, handle, asked⟩
      exact (nodeBacked _).mp (clean.nodes _ filled
        ((rows.router.nodes _).mpr (.inr ⟨pattern, subscribed, wild, List.prefix_rfl⟩)))
    · intro conn left
      exact (connBacked conn).mp (clean.conns conn ((rows.conns conn).mpr left))
    · intro key left
      exact (groupBacked key).mp (clean.groups key ((rows.groups key).mpr left))
  · intro settled
    refine ⟨?_, ?_, ?_, ?_, ?_⟩
    · intro key present
      obtain ⟨pattern, subscribed, literal, rfl⟩ := (rows.router.exact key).mp present
      obtain ⟨conn, group, handle, asked⟩ := (footprint_patterns ops pattern).mp subscribed
      obtain ⟨entry, listed, rfl⟩ := settled.exact conn pattern group handle asked literal
      exact (exactBacked _).mpr ⟨entry, listed, literal, rfl⟩
    · intro key present
      exact (groupBacked key).mpr (settled.groups key ((rows.groups key).mp present))
    · intro key present
      exact (groupBacked key).mpr (settled.groups key ((rows.keys key).mp present))
    · intro conn present
      exact (connBacked conn).mpr (settled.conns conn ((rows.conns conn).mp present))
    · intro path filled present
      obtain ⟨pattern, subscribed, wild, way⟩ :=
        ((rows.router.nodes path).mp present).resolve_left filled
      obtain ⟨conn, group, handle, asked⟩ := (footprint_patterns ops pattern).mp subscribed
      obtain ⟨entry, listed, multi, longer⟩ := settled.nodes conn pattern group handle asked wild
        fun none => filled (List.prefix_nil.mp (none ▸ way))
      exact (nodeBacked path).mpr ⟨entry, listed, multi, List.IsPrefix.trans way longer⟩

theorem kept_subscription_is_clean : Clean (run acceptAll [.subscribe 1 ordersNew none 7]) := by
  refine ((no_residue_iff acceptAll _).mpr ⟨?_, ?_, ?_, ?_⟩).1
  · intro conn pattern group handle asked _
    obtain ⟨-, rfl, -, -⟩ := BrokerOp.subscribe.inj (List.mem_singleton.mp asked)
    exact ⟨⟨1, 1, ordersNew, none, 7⟩, by decide, rfl⟩
  · intro conn pattern group handle asked wild
    obtain ⟨-, rfl, -, -⟩ := BrokerOp.subscribe.inj (List.mem_singleton.mp asked)
    exact absurd wild (by decide)
  · decide
  · decide

def givenUp : List BrokerOp :=
  [.subscribe 1 ordersNew (some workers) 7, .subscribe 1 ordersAny none 7, .unsubscribe 1 1,
    .unsubscribe 1 2]

set_option maxRecDepth 4000 in
theorem cancelled_rows_stay :
    ¬Clean (run acceptAll givenUp) ∧
      (run acceptAll givenUp).registry.subscriptions.keys = [] ∧
      (run acceptAll givenUp).router.exact.keys = ["orders.new".toList] ∧
      (run acceptAll givenUp).queueGroups.keys = [("orders.new".toList, "workers".toList)] ∧
      (run acceptAll givenUp).queueGroupKeys.keys = [("orders.new".toList, "workers".toList)] ∧
      (run acceptAll givenUp).registry.byConnection.keys = [1] ∧
      hasNode ["orders".toList, "*".toList] (run acceptAll givenUp).router.wildcardTrie.root =
        true := by
  refine ⟨fun clean => ?_, by decide⟩
  obtain ⟨id, sub, found, -⟩ := clean.conns 1 (by decide)
  have none : (run acceptAll givenUp).registry.subscriptions.keys = [] := by decide
  have present : id ∈ (run acceptAll givenUp).registry.subscriptions.keys :=
    AList.lookup_isSome.mp (Option.isSome_of_eq_some found)
  rw [none] at present
  cases present

end ZetMQ.Residue
