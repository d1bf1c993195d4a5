import ZetMQ.RunRefinement

/-! Which rows the broker's tables have. The rows are a function of the history alone:
the patterns ever subscribed, the connections that subscribed and were not removed
since, and the groups joined and not dropped since. -/
namespace ZetMQ.TableRows
open Utf8Text SubjectGrammar WildcardTrie KeyedTable Routing RoutingTable Delivery Registry Broker
open SubscriptionLedger RegistryRefinement DeliveryFrame BrokerRefinement RunRefinement

/-- The trie has a node at the end of this path. -/
def hasNode : List Str → TrieNode → Bool
  | [], _ => true
  | token :: path, node =>
    match node.child token with
    | some next => hasNode path next
    | none => false

theorem hasNode_setChild (node next : TrieNode) (token token' : Str) (path : List Str) :
    hasNode (token' :: path) (node.setChild token next) =
      if token' = token then hasNode path next else hasNode (token' :: path) node := by
  rw [hasNode, TrieNode.child_setChild]
  split_ifs with same <;> rfl

theorem hasNode_insert (id : SubscriptionId) (multi : Bool) (tokens : List Str) (node : TrieNode)
    (path : List Str) : hasNode path (node.insert id multi tokens) = true ↔
      hasNode path node = true ∨ path <+: (target tokens multi).path := by
  induction tokens generalizing node path with
  | nil =>
    rw [TrieNode.insert, target, List.isEmpty_nil, Bool.not_true, Bool.and_false]
    cases path with
    | nil => simp [hasNode]
    | cons token path => simp [hasNode, TrieNode.child]
  | cons token rest ih =>
    rw [TrieNode.insert]
    split_ifs with stop
    · rw [target_last token stop]
      cases path with
      | nil => simp [hasNode]
      | cons token path => simp [hasNode, TrieNode.child]
    · rw [target_cons token stop, TrieSlot.under]
      cases path with
      | nil => simp [hasNode]
      | cons token' path =>
        rw [hasNode_setChild, List.cons_prefix_cons]
        split_ifs with same
        · subst same
          rw [ih, hasNode]
          cases node.child token' with
          | none => cases path <;> simp [hasNode, TrieNode.child, TrieNode.empty]
          | some next => simp
        · simp [same]

theorem hasNode_remove (id : SubscriptionId) (multi : Bool) (tokens : List Str) (node : TrieNode)
    (path : List Str) : hasNode path (node.remove id multi tokens).1 = hasNode path node := by
  induction tokens generalizing node path with
  | nil => cases path <;> rfl
  | cons token rest ih =>
    rw [TrieNode.remove]
    split_ifs with stop
    · cases path <;> rfl
    · cases found : node.child token with
      | none => rfl
      | some next =>
        cases path with
        | nil => rfl
        | cons token' path =>
          dsimp only
          rw [hasNode_setChild]
          split_ifs with same
          · rw [ih, same, hasNode, found]
          · rfl

/-- The rows of the router after subscribing to these patterns. -/
structure Routed (engine : RoutingEngine) (patterns : List SubjectPattern) : Prop where
  exact : ∀ key, key ∈ engine.exact ↔
    ∃ pattern ∈ patterns, hasWildcard pattern = false ∧ pattern.raw = key
  nodes : ∀ path, hasNode path engine.wildcardTrie.root = true ↔
    path = [] ∨ ∃ pattern ∈ patterns, hasWildcard pattern = true ∧
      path <+: (trieTarget pattern.tokens).path

theorem routed_new : Routed .new [] where
  exact key := by simp [RoutingEngine.new]
  nodes path := by
    cases path <;> simp [RoutingEngine.new, SubjectTrie.new, hasNode, TrieNode.child,
      TrieNode.empty]

theorem Routed.insert {engine : RoutingEngine} {patterns : List SubjectPattern}
    (h : Routed engine patterns) (pattern : SubjectPattern) (id : SubscriptionId) :
    Routed (engine.insert pattern id) (patterns ++ [pattern]) := by
  unfold RoutingEngine.insert
  cases wild : hasWildcard pattern with
  | false =>
    refine ⟨fun key => ?_, fun path => ?_⟩
    · simp only [Bool.not_false, if_true, mem_upsert, h.exact, List.mem_append,
        List.mem_singleton, or_and_right, exists_or, exists_eq_left, wild, true_and]
      rw [or_comm, eq_comm (a := key)]
    · simp only [Bool.not_false, if_true, h.nodes, List.mem_append, List.mem_singleton,
        or_and_right, exists_or, exists_eq_left, wild, Bool.false_eq_true, false_and, or_false]
  | true =>
    refine ⟨fun key => ?_, fun path => ?_⟩
    · simp only [Bool.not_true, Bool.false_eq_true, if_false, h.exact, List.mem_append,
        List.mem_singleton, or_and_right, exists_or, exists_eq_left, wild, Bool.true_eq_false,
        false_and, or_false]
    · simp only [Bool.not_true, Bool.false_eq_true, if_false, SubjectTrie.insert, hasNode_insert,
        h.nodes, List.mem_append, List.mem_singleton, or_and_right, exists_or, exists_eq_left,
        wild, true_and, or_assoc, trieTarget]

theorem Routed.remove {engine : RoutingEngine} {patterns : List SubjectPattern}
    (h : Routed engine patterns) (pattern : SubjectPattern) (id : SubscriptionId) :
    Routed (engine.remove pattern id) patterns := by
  unfold RoutingEngine.remove
  cases hasWildcard pattern with
  | false => exact ⟨fun key => mem_modify.trans (h.exact key), h.nodes⟩
  | true =>
    refine ⟨h.exact, fun path => ?_⟩
    rw [← h.nodes path]
    exact iff_of_eq (congrArg (· = true) (hasNode_remove ..))

theorem foldl_dropOne_rows (ids : List SubscriptionId) {patterns : List SubjectPattern}
    (state : SubscriptionRegistry × List Subscription) (h : Routed state.1.router patterns) :
    Routed (ids.foldl SubscriptionRegistry.dropOne state).1.router patterns ∧
      (ids.foldl SubscriptionRegistry.dropOne state).1.byConnection = state.1.byConnection := by
  induction ids generalizing state with
  | nil => exact ⟨h, rfl⟩
  | cons id ids ih =>
    have next : Routed (SubscriptionRegistry.dropOne state id).1.router patterns ∧
        (SubscriptionRegistry.dropOne state id).1.byConnection = state.1.byConnection := by
      unfold SubscriptionRegistry.dropOne
      cases state.1.subscriptions.lookup id with
      | none => exact ⟨h, rfl⟩
      | some sub => exact ⟨h.remove sub.pattern id, rfl⟩
    obtain ⟨routed, same⟩ := ih _ next.1
    exact ⟨routed, same.trans next.2⟩

/-- What is left of a history: the live subscriptions, and what the tables have rows for. -/
structure Footprint where
  ledger : Ledger
  patterns : List SubjectPattern
  conns : List ConnectionId
  groups : List QueueGroupKey

def lastOf (live : List LiveSub) (conn : ConnectionId) (key : QueueGroupKey) : Bool :=
  live.any (fun entry => entry.groupKey = some key) &&
    live.all fun entry => entry.groupKey = some key → entry.conn = conn

namespace Footprint

def empty : Footprint := ⟨.empty, [], [], []⟩

def step (f : Footprint) (op : BrokerOp) : Footprint :=
  match op with
  | .subscribe conn pattern group _ =>
    { ledger := op.track f.ledger
      patterns := f.patterns ++ [pattern]
      conns := f.conns ++ [conn]
      groups := f.groups ++ (group.map fun name => (pattern.raw, name.name)).toList }
  | .removeConnection conn =>
    { ledger := op.track f.ledger
      patterns := f.patterns
      conns := f.conns.filter (· ≠ conn)
      groups := f.groups.filter (!lastOf f.ledger.live conn ·) }
  | _ => { f with ledger := op.track f.ledger }

end Footprint

def footprint (ops : List BrokerOp) : Footprint := ops.foldl .step .empty

theorem footprint_ledger (ops : List BrokerOp) : (footprint ops).ledger = ledgerOf ops := by
  induction ops using List.reverseRecOn with
  | nil => rfl
  | append_singleton ops op ih =>
    rw [footprint, ledgerOf, List.foldl_append, List.foldl_append, ← ledgerOf, ← ih]
    cases op <;> rfl

theorem footprint_patterns (ops : List BrokerOp) (pattern : SubjectPattern) :
    pattern ∈ (footprint ops).patterns ↔
      ∃ conn group handle, BrokerOp.subscribe conn pattern group handle ∈ ops := by
  induction ops using List.reverseRecOn with
  | nil => simp [footprint, Footprint.empty]
  | append_singleton ops op ih =>
    rw [footprint, List.foldl_append, ← footprint, List.foldl_cons, List.foldl_nil]
    cases op with
    | subscribe conn pattern' group handle =>
      simp only [Footprint.step, List.mem_append, ih, List.mem_singleton,
        BrokerOp.subscribe.injEq, exists_or]
      simp
    | _ => simp [Footprint.step, ih]

structure Rows (b : BrokerCore) (f : Footprint) : Prop where
  router : Routed b.router f.patterns
  conns : ∀ conn, conn ∈ b.registry.byConnection ↔ conn ∈ f.conns
  groups : ∀ key, key ∈ b.queueGroups ↔ key ∈ f.groups
  keys : ∀ key, key ∈ b.queueGroupKeys ↔ key ∈ f.groups

theorem rows_new : Rows .new .empty where
  router := routed_new
  conns _ := by simp [BrokerCore.new, SubscriptionRegistry.new, Footprint.empty]
  groups _ := by simp [BrokerCore.new, Footprint.empty]
  keys _ := by simp [BrokerCore.new, Footprint.empty]

structure SameRows (b b' : BrokerCore) : Prop where
  registry : b'.registry = b.registry
  keys : b'.queueGroupKeys = b.queueGroupKeys
  groups : ∀ key, key ∈ b'.queueGroups ↔ key ∈ b.queueGroups

theorem SameRows.traffic : Traffic SameRows where
  refl _ := ⟨rfl, rfl, fun _ => .rfl⟩
  trans h h' := ⟨h'.registry.trans h.registry, h'.keys.trans h.keys,
    fun key => (h'.groups key).trans (h.groups key)⟩
  logged _ _ := ⟨rfl, rfl, fun _ => .rfl⟩
  counted _ _ _ _ := ⟨rfl, rfl, fun _ => .rfl⟩
  advanced b key group index found := by
    have present : key ∈ b.queueGroups := AList.lookup_isSome.mp (Option.isSome_of_eq_some found)
    refine ⟨rfl, rfl, fun other => ?_⟩
    rw [AList.mem_insert, or_iff_right_of_imp]
    rintro rfl
    exact present
  cached _ _ _ _ := ⟨rfl, rfl, fun _ => .rfl⟩

variable {b : BrokerCore} {f : Footprint}

theorem Rows.frame {b' : BrokerCore} (h : Rows b f) (same : SameRows b b') (l : Ledger) :
    Rows b' { f with ledger := l } where
  router := by
    rw [BrokerCore.router, same.registry]
    exact h.router
  conns := same.registry ▸ h.conns
  groups key := (same.groups key).trans (h.groups key)
  keys := same.keys ▸ h.keys

theorem mem_internKey {b : BrokerCore} {key key' : QueueGroupKey} :
    key' ∈ (b.internKey key).1.queueGroupKeys ↔ key' = key ∨ key' ∈ b.queueGroupKeys := by
  unfold BrokerCore.internKey
  cases found : b.queueGroupKeys.lookup key with
  | none => exact AList.mem_insert ..
  | some arc =>
    rw [eq_comm, or_iff_right_of_imp]
    rintro rfl
    exact AList.lookup_isSome.mp (Option.isSome_of_eq_some found)

theorem Rows.subscribe (h : Rows b f) (interned : Interned b.queueGroupKeys b.nextAddr)
    (conn : ConnectionId) (pattern : SubjectPattern) (group : Option QueueGroupName)
    (handle : DeliveryHandle) :
    Rows (b.subscribe conn pattern group handle).1
      (f.step (.subscribe conn pattern group handle)) := by
  have conns (key : Option KeyArc) (other : ConnectionId) :
      other ∈ (b.registry.add ⟨b.subIdGen, conn, pattern, group, key, handle⟩).byConnection ↔
        other ∈ f.conns ++ [conn] := by
    rw [SubscriptionRegistry.add, mem_upsert, h.conns, List.mem_append, List.mem_singleton,
      or_comm]
  cases group with
  | none =>
    refine ⟨h.router.insert pattern _, conns none, fun key => ?_, fun key => ?_⟩
    · exact (h.groups key).trans (by simp [Footprint.step])
    · exact (h.keys key).trans (by simp [Footprint.step])
  | some name =>
    have keys := @mem_internKey { b with subIdGen := b.subIdGen + 1 } (pattern.raw, name.name)
    obtain ⟨table, next, arc, interning, own, -⟩ :=
      internKey_spec { b with subIdGen := b.subIdGen + 1 } (pattern.raw, name.name) interned
    rw [interning] at keys
    simp only [BrokerCore.subscribe, interning]
    refine ⟨h.router.insert pattern _, conns (some arc), fun key => ?_, fun key => ?_⟩
    · rw [BrokerCore.joinGroup, mem_upsert, own, h.groups, or_comm]
      simp [Footprint.step]
    · rw [BrokerCore.joinGroup, keys, h.keys, or_comm]
      simp [Footprint.step]

theorem Rows.unsubscribe (h : Rows b f) (conn : ConnectionId) (id : SubscriptionId) :
    Rows (b.unsubscribe conn id) (f.step (.unsubscribe conn id)) := by
  cases found : b.registry.getRef id with
  | none =>
    rw [unsubscribe_none found]
    exact ⟨h.router, h.conns, h.groups, h.keys⟩
  | some sub =>
    have registry : (b.registry.remove id).1 = ⟨b.registry.subscriptions.erase id,
        modify sub.connectionId (·.filter (· ≠ id)) b.registry.byConnection,
        b.registry.router.remove sub.pattern id⟩ := by
      rw [SubscriptionRegistry.getRef] at found
      simp only [SubscriptionRegistry.remove, found]
    rw [unsubscribe_some found, registry]
    refine ⟨h.router.remove sub.pattern id, fun other => mem_modify.trans (h.conns other),
      fun key => ?_, h.keys⟩
    cases sub.queueGroupKey with
    | none => exact h.groups key
    | some arc => exact mem_modify.trans (h.groups key)

def Emptied (removedIds : List SubscriptionId) (subs : List Subscription) (b : BrokerCore)
    (key : QueueGroupKey) : Prop :=
  (∃ sub ∈ subs, inGroup key sub) ∧ (groupMembers b key).filter (· ∉ removedIds) = []

structure Dropped (removedIds : List SubscriptionId) (subs : List Subscription)
    (b b' : BrokerCore) : Prop where
  groups : ∀ key, key ∈ b'.queueGroups ↔ key ∈ b.queueGroups ∧ ¬Emptied removedIds subs b key
  keys : ∀ key, key ∈ b'.queueGroupKeys ↔ key ∈ b'.queueGroups

theorem leaveGroup_dropped (removedIds : List SubscriptionId)
    (tied : ∀ key, key ∈ b.queueGroupKeys ↔ key ∈ b.queueGroups) (sub : Subscription) :
    Dropped removedIds [sub] b (b.leaveGroup removedIds sub) := by
  have single (key : QueueGroupKey) : Emptied removedIds [sub] b key ↔
      inGroup key sub ∧ (groupMembers b key).filter (· ∉ removedIds) = [] := by simp [Emptied]
  unfold BrokerCore.leaveGroup
  cases arc : sub.queueGroupKey with
  | none => exact ⟨fun key => by simp [single, inGroup, arc], tied⟩
  | some arc' =>
    have here (key : QueueGroupKey) : inGroup key sub ↔ key = arc'.key := by
      simp [inGroup, arc, eq_comm]
    dsimp only
    cases found : b.queueGroups.lookup arc'.key with
    | none =>
      refine ⟨fun key => ?_, tied⟩
      have apart : key ∈ b.queueGroups → key ≠ arc'.key := by
        rintro present rfl
        exact AList.lookup_eq_none.mp found present
      rw [single, here]
      tauto
    | some group =>
      have before := groupMembers_of_lookup found
      dsimp only
      cases empty : (group.members.filter (· ∉ removedIds)).isEmpty with
      | true =>
        rw [List.isEmpty_iff] at empty
        refine ⟨fun key => ?_, fun key => ?_⟩
        · have emptied : key = arc'.key → (groupMembers b key).filter (· ∉ removedIds) = [] := by
            rintro rfl
            rw [before, empty]
          simp only [if_true, AList.mem_erase, single, here]
          tauto
        · simp only [if_true, AList.mem_erase, tied]
      | false =>
        have present : arc'.key ∈ b.queueGroups :=
          AList.lookup_isSome.mp (Option.isSome_of_eq_some found)
        have kept (key : QueueGroupKey) : key = arc'.key ∨ key ∈ b.queueGroups ↔
            key ∈ b.queueGroups := by
          rw [or_iff_right_of_imp]
          rintro rfl
          exact present
        refine ⟨fun key => ?_, fun key => ?_⟩
        · have filled : key = arc'.key → (groupMembers b key).filter (· ∉ removedIds) ≠ [] := by
            rintro rfl none
            rw [before] at none
            rw [none] at empty
            cases empty
          simp only [Bool.false_eq_true, if_false, AList.mem_insert, kept, single, here]
          tauto
        · simp only [Bool.false_eq_true, if_false, AList.mem_insert, kept, tied]

theorem foldl_leaveGroup_dropped (removedIds : List SubscriptionId) (subs : List Subscription)
    {b : BrokerCore} (tied : ∀ key, key ∈ b.queueGroupKeys ↔ key ∈ b.queueGroups) :
    Dropped removedIds subs b (subs.foldl (BrokerCore.leaveGroup removedIds) b) := by
  induction subs generalizing b with
  | nil => exact ⟨fun key => by simp [Emptied], tied⟩
  | cons sub subs ih =>
    have first := leaveGroup_dropped removedIds tied sub
    have later := ih first.keys
    refine ⟨fun key => ?_, later.keys⟩
    rw [List.foldl_cons, later.groups, first.groups]
    simp only [Emptied, filter_leaveGroup, List.mem_cons, List.not_mem_nil, or_false, or_and_right,
      exists_or, exists_eq_left, not_or, and_assoc]

theorem emptied_iff_lastOf {l : Ledger} (h : Refines b l) (conn : ConnectionId)
    (key : QueueGroupKey) :
    Emptied ((b.registry.removeAllForConnection conn).2.map (·.id))
        (b.registry.removeAllForConnection conn).2 b key ↔ lastOf l.live conn key = true := by
  obtain ⟨-, returned, source, -⟩ := h.registry.removeAll l.nodup_ids conn
  generalize (b.registry.removeAllForConnection conn).2 = removed at returned source ⊢
  have ids : removed.map (·.id) = (l.live.filter (·.conn = conn)).map LiveSub.id := by
    rw [← returned, List.map_map]
    rfl
  have grouped : (∃ sub ∈ removed, inGroup key sub) ↔
      ∃ entry ∈ l.live, entry.conn = conn ∧ entry.groupKey = some key := by
    have same : (∃ sub ∈ removed, inGroup key sub) ↔
        ∃ entry ∈ removed.map toLive, entry.groupKey = some key := by
      simp only [List.mem_map, exists_exists_and_eq_and]
      refine exists_congr fun sub => and_congr_right fun listed => ?_
      rw [inGroup, h.held _ _ (source sub listed)]
    rw [same, returned]
    simp only [List.mem_filter, decide_eq_true_eq, and_assoc]
  have remaining : (groupMembers b key).filter (· ∉ removed.map (·.id)) = [] ↔
      ∀ entry ∈ l.live, entry.groupKey = some key → entry.conn = conn := by
    have gone := filter_notMem_conn l.live l.nodup_ids conn
    rw [← ids] at gone
    rw [h.members, ← memberIds_filter, gone, memberIds, List.map_eq_nil_iff, List.filter_filter,
      List.filter_eq_nil_iff]
    simp only [Bool.and_eq_true, decide_eq_true_eq, not_and, ne_eq, decide_not, Bool.not_eq_true',
      decide_eq_false_iff_not, not_not]
  rw [Emptied, grouped, remaining, lastOf]
  simp only [Bool.and_eq_true, List.any_eq_true, List.all_eq_true, decide_eq_true_eq]
  constructor
  · rintro ⟨⟨entry, listed, -, held⟩, all⟩
    exact ⟨⟨entry, listed, held⟩, all⟩
  · rintro ⟨⟨entry, listed, held⟩, all⟩
    exact ⟨⟨entry, listed, all entry listed held, held⟩, all⟩

theorem Rows.removeConnection (h : Rows b f) (refines : Refines b f.ledger) (conn : ConnectionId) :
    Rows (b.removeConnection conn) (f.step (.removeConnection conn)) := by
  have emptied := emptied_iff_lastOf refines conn
  have dropped := @foldl_leaveGroup_dropped
    ((b.registry.removeAllForConnection conn).2.map (·.id))
    (b.registry.removeAllForConnection conn).2
    { b with registry := (b.registry.removeAllForConnection conn).1 }
    fun key => (h.keys key).trans (h.groups key).symm
  have left := foldl_leaveGroup ((b.registry.removeAllForConnection conn).2.map (·.id))
    (b.registry.removeAllForConnection conn).2
    { b with registry := (b.registry.removeAllForConnection conn).1 }
  have registry : (b.removeConnection conn).registry =
      (b.registry.removeAllForConnection conn).1 := congrArg BrokerCore.registry left.rest
  obtain ⟨routed, rows⟩ := foldl_dropOne_rows ((b.registry.byConnection.lookup conn).getD [])
    ({ b.registry with byConnection := b.registry.byConnection.erase conn }, []) h.router
  have groups (key : QueueGroupKey) : key ∈ (b.removeConnection conn).queueGroups ↔
      key ∈ f.groups.filter (!lastOf f.ledger.live conn ·) := by
    refine (dropped.groups key).trans ?_
    rw [List.mem_filter, Bool.not_eq_true', ← Bool.not_eq_true, ← emptied]
    exact and_congr_left fun _ => h.groups key
  refine ⟨?_, fun other => ?_, groups, fun key => (dropped.keys key).trans (groups key)⟩
  · rw [BrokerCore.router, registry]
    exact routed
  · rw [registry, SubscriptionRegistry.removeAllForConnection, rows, AList.mem_erase, h.conns]
    simp [Footprint.step, and_comm]

theorem step_rows (env : DeliveryPolicy) (h : Rows b f) (refines : Refines b f.ledger)
    (op : BrokerOp) : Rows (op.apply env b) (f.step op) := by
  cases op with
  | subscribe conn pattern group handle =>
    exact h.subscribe refines.interned conn pattern group handle
  | unsubscribe conn id => exact h.unsubscribe conn id
  | removeConnection conn => exact h.removeConnection refines conn
  | publish message => exact h.frame (SameRows.traffic.publish env b message) _
  | publishWithStr subject payload replyTo headers =>
    exact h.frame (SameRows.traffic.publishWithStr env b subject payload replyTo headers) _
  | publishBatch order items => exact h.frame (SameRows.traffic.publishBatch env order b items) _
  | parseSubject input => exact h.frame (SameRows.traffic.parseSubject b input) _

theorem run_rows (env : DeliveryPolicy) (ops : List BrokerOp) :
    Rows (run env ops) (footprint ops) := by
  induction ops using List.reverseRecOn with
  | nil => exact rows_new
  | append_singleton ops op ih =>
    have refines := run_refines env ops
    rw [← footprint_ledger] at refines
    rw [run, footprint, List.foldl_append, List.foldl_append]
    exact step_rows env ih refines op

end ZetMQ.TableRows
