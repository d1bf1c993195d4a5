import ZetMQ.RoutingTable

/-! The subscriber counter of the trie against what the trie really stores. The ids of
all nodes are collected in one list; an insertion adds one id to it, a removal takes away
what stands in the slot it ends at, and with distinct ids that is one id or none. -/
namespace ZetMQ.TrieCount
open Utf8Text SubjectGrammar WildcardTrie Routing RoutingTable

mutual

def storedIds : TrieNode → List SubscriptionId
  | ⟨children, multiWildcardSubs, exactSubs⟩ =>
    multiWildcardSubs ++ exactSubs ++ childIds children

def childIds : List (Σ _ : Str, TrieNode) → List SubscriptionId
  | [] => []
  | entry :: rest => entryIds entry ++ childIds rest

def entryIds : (Σ _ : Str, TrieNode) → List SubscriptionId
  | ⟨_, node⟩ => storedIds node

end

theorem storedIds_eq (node : TrieNode) :
    storedIds node = node.multiWildcardSubs ++ node.exactSubs ++ childIds node.children := by
  cases node
  rw [storedIds]

theorem storedIds_empty : storedIds .empty = [] := by
  simp [storedIds_eq, TrieNode.empty, childIds]

section Counts

variable (other : SubscriptionId)

theorem count_kerase (token : Str) (children : List (Σ _ : Str, TrieNode)) :
    (childIds (children.kerase token)).count other +
      (storedIds ((children.dlookup token).getD .empty)).count other =
    (childIds children).count other := by
  induction children with
  | nil => simp [childIds, storedIds_empty]
  | cons entry rest ih =>
    by_cases same : token = entry.1
    · obtain ⟨key, node⟩ := entry
      simp only at same
      subst same
      rw [@List.kerase_cons_eq _ _ _ token ⟨token, node⟩ rest rfl, List.dlookup_cons_eq,
        Option.getD_some, childIds, entryIds, List.count_append]
      omega
    · obtain ⟨key, node⟩ := entry
      rw [List.kerase_cons_ne same, List.dlookup_cons_ne _ _ same, childIds, childIds,
        List.count_append, List.count_append, ← ih]
      omega

theorem count_setChild (node next : TrieNode) (token : Str) :
    (storedIds (node.setChild token next)).count other +
      (storedIds ((node.child token).getD .empty)).count other =
    (storedIds node).count other + (storedIds next).count other := by
  have erased := count_kerase other token node.children
  rw [storedIds_eq, storedIds_eq node, TrieNode.setChild, TrieNode.child]
  simp only [List.kinsert, childIds, entryIds, List.count_append]
  omega

theorem count_insert (id : SubscriptionId) (hasMulti : Bool) (tokens : List Str)
    (node : TrieNode) :
    (storedIds (node.insert id hasMulti tokens)).count other =
      (storedIds node).count other + [id].count other := by
  induction tokens generalizing node with
  | nil =>
    rw [TrieNode.insert, storedIds_eq, storedIds_eq node]
    simp only [List.count_append]
    omega
  | cons token rest ih =>
    rw [TrieNode.insert]
    split_ifs with stop
    · rw [storedIds_eq, storedIds_eq node]
      simp only [List.count_append]
      omega
    · have set := count_setChild other node
        (TrieNode.insert id hasMulti rest ((node.child token).getD .empty)) token
      have below := ih ((node.child token).getD .empty)
      omega

theorem count_filter_ne (id : SubscriptionId) (ids : List SubscriptionId) :
    (ids.filter (· ≠ id)).count other + (ids.filter (· = id)).count other = ids.count other := by
  by_cases same : other = id
  · simp [List.count_filter, same, List.count_eq_zero]
  · simp [List.count_filter, same, List.count_eq_zero]

theorem count_remove (id : SubscriptionId) (hasMulti : Bool) (tokens : List Str)
    (node : TrieNode) :
    (storedIds (node.remove id hasMulti tokens).1).count other +
      ((node.idsAt (target tokens hasMulti)).filter (· = id)).count other =
    (storedIds node).count other := by
  induction tokens generalizing node with
  | nil =>
    have split := count_filter_ne other id node.exactSubs
    rw [TrieNode.remove, storedIds_eq, storedIds_eq node, target, List.isEmpty_nil, Bool.not_true,
      Bool.and_false]
    change _ + (node.exactSubs.filter (· = id)).count other = _
    simp only [List.count_append] at split ⊢
    omega
  | cons token rest ih =>
    rw [TrieNode.remove]
    split_ifs with stop
    · have split := count_filter_ne other id node.multiWildcardSubs
      rw [target_last token stop, storedIds_eq, storedIds_eq node]
      change _ + (node.multiWildcardSubs.filter (· = id)).count other = _
      simp only [List.count_append] at split ⊢
      omega
    · rw [target_cons token stop, TrieNode.idsAt_under]
      cases found : node.child token with
      | none => simp [TrieNode.idsAt_empty]
      | some next =>
        have set := count_setChild other node (next.remove id hasMulti rest).1 token
        have below := ih next
        rw [found] at set
        simp only [Option.getD_some] at set ⊢
        omega

end Counts

theorem insert_perm (id : SubscriptionId) (hasMulti : Bool) (tokens : List Str)
    (node : TrieNode) :
    (storedIds (node.insert id hasMulti tokens)).Perm (storedIds node ++ [id]) := by
  rw [List.perm_iff_count]
  intro other
  rw [count_insert, List.count_append]

theorem remove_perm (id : SubscriptionId) (hasMulti : Bool) (tokens : List Str)
    (node : TrieNode) :
    (storedIds (node.remove id hasMulti tokens).1 ++
      (node.idsAt (target tokens hasMulti)).filter (· = id)).Perm (storedIds node) := by
  rw [List.perm_iff_count]
  intro other
  rw [List.count_append, count_remove]

inductive TrieOp where
  | insert (tokens : List Str) (id : SubscriptionId) (hasMulti : Bool)
  | remove (tokens : List Str) (id : SubscriptionId) (hasMulti : Bool)

def TrieOp.apply (trie : SubjectTrie) : TrieOp → SubjectTrie
  | .insert tokens id hasMulti => trie.insert tokens id hasMulti
  | .remove tokens id hasMulti => trie.remove tokens id hasMulti

def TrieOp.inserted : TrieOp → Option SubscriptionId
  | .insert _ id _ => some id
  | .remove _ _ _ => none

def runTrie (ops : List TrieOp) : SubjectTrie := ops.foldl TrieOp.apply .new

/-- The counter is right, and every stored id was inserted as often as it is stored. -/
structure Counted (inserted : List SubscriptionId) (trie : SubjectTrie) : Prop where
  count : trie.subscriberCount = (storedIds trie.root).length
  stored : (storedIds trie.root).Subperm inserted

theorem counted_new : Counted [] .new :=
  ⟨by rw [SubjectTrie.new, storedIds_empty]; rfl,
    by rw [SubjectTrie.new, storedIds_empty]⟩

theorem Counted.insert {inserted : List SubscriptionId} {trie : SubjectTrie}
    (h : Counted inserted trie) (tokens : List Str) (id : SubscriptionId) (hasMulti : Bool) :
    Counted (inserted ++ [id]) (trie.insert tokens id hasMulti) := by
  have added := insert_perm id hasMulti tokens trie.root
  constructor
  · rw [SubjectTrie.insert, added.length_eq, List.length_append, h.count]
    rfl
  · exact added.subperm.trans ((List.subperm_append_right _).mpr h.stored)

variable {trie : SubjectTrie} {id : SubscriptionId} (ops : List RouteOp)

theorem Counted.remove {inserted : List SubscriptionId} (h : Counted inserted trie)
    (once : inserted.Nodup) (tokens : List Str) (id : SubscriptionId) (hasMulti : Bool) :
    Counted inserted (trie.remove tokens id hasMulti) := by
  have split := remove_perm id hasMulti tokens trie.root
  rw [List.filter_eq] at split
  have fewer := split.length_eq
  rw [List.length_append, List.length_replicate] at fewer
  constructor
  · rw [SubjectTrie.remove, h.count]
    simp only
    split_ifs with found
    · rw [TrieNode.remove_found, ← List.count_pos_iff] at found
      obtain ⟨part, same, sub⟩ := h.stored
      have distinct : (storedIds trie.root).Nodup := same.nodup_iff.mp (once.sublist sub)
      have one := List.nodup_replicate.mp (split.nodup_iff.mpr distinct).of_append_right
      omega
    · rw [TrieNode.remove_found, ← List.count_pos_iff] at found
      omega
  · exact ((List.sublist_append_left _ _).subperm.trans split.subperm).trans h.stored

theorem counted_run (ops : List TrieOp) (once : (ops.filterMap TrieOp.inserted).Nodup) :
    Counted (ops.filterMap TrieOp.inserted) (runTrie ops) := by
  induction ops using List.reverseRecOn with
  | nil => exact counted_new
  | append_singleton ops op ih =>
    rw [List.filterMap_append] at once ⊢
    have before := ih once.of_append_left
    rw [runTrie, List.foldl_append]
    cases op with
    | insert tokens id hasMulti => exact before.insert tokens id hasMulti
    | remove tokens id hasMulti =>
      rw [List.filterMap_cons_none rfl, List.filterMap_nil, List.append_nil]
      exact before.remove once.of_append_left tokens id hasMulti

theorem trie_match_congr {a b : SubjectTrie}
    (ids : ∀ slot, a.root.idsAt slot = b.root.idsAt slot) (subject : Subject) :
    a.matchSubject subject = b.matchSubject subject := by
  rw [SubjectTrie.matchSubject, SubjectTrie.matchSubject, matchRecursive_eq, matchRecursive_eq]
  exact congrArg ([] ++ (visited subject.tokens).flatMap ·) (funext ids)

theorem remove_missing {tokens : List Str} {hasMulti : Bool}
    (missing : (trie.root.remove id hasMulti tokens).2 = false) (subject : Subject) :
    (trie.remove tokens id hasMulti).matchSubject subject = trie.matchSubject subject := by
  have absent : id ∉ trie.root.idsAt (target tokens hasMulti) := by
    rw [← TrieNode.remove_found, missing]
    exact Bool.false_ne_true
  refine trie_match_congr ?_ subject
  intro slot
  rw [SubjectTrie.remove, TrieNode.remove_updates id hasMulti tokens trie.root slot]
  split_ifs with here
  · rw [here]
    exact filter_ne_absent absent
  · rfl

theorem isEmpty_remove_missing {tokens : List Str} {hasMulti : Bool}
    (missing : (trie.root.remove id hasMulti tokens).2 = false) :
    (trie.remove tokens id hasMulti).isEmpty = trie.isEmpty := by
  rw [SubjectTrie.isEmpty, SubjectTrie.isEmpty, SubjectTrie.remove, missing]
  rfl

inductive RouteOp where
  | insert (pattern : SubjectPattern) (id : SubscriptionId)
  | remove (pattern : SubjectPattern) (id : SubscriptionId)

def RouteOp.apply (engine : RoutingEngine) : RouteOp → RoutingEngine
  | .insert pattern id => engine.insert pattern id
  | .remove pattern id => engine.remove pattern id

def runRoutes (ops : List RouteOp) : RoutingEngine := ops.foldl RouteOp.apply .new

/-- The call that a routing call makes on the trie, if it comes to it. -/
def RouteOp.onTrie : RouteOp → Option TrieOp
  | .insert pattern id =>
    if hasWildcard pattern then
      some (.insert (pattern.tokens.map tokenText) id (hasMulti pattern.tokens))
    else none
  | .remove pattern id =>
    if hasWildcard pattern then
      some (.remove (pattern.tokens.map tokenText) id (hasMulti pattern.tokens))
    else none

theorem apply_trie (engine : RoutingEngine) (op : RouteOp) :
    (op.apply engine).wildcardTrie = op.onTrie.toList.foldl TrieOp.apply engine.wildcardTrie := by
  cases op with
  | insert pattern id =>
    rw [RouteOp.apply, RoutingEngine.insert, RouteOp.onTrie]
    cases hasWildcard pattern <;> rfl
  | remove pattern id =>
    rw [RouteOp.apply, RoutingEngine.remove, RouteOp.onTrie]
    cases hasWildcard pattern <;> rfl

theorem filterMap_concat {α β : Type} (f : α → Option β) (items : List α) (item : α) :
    (items ++ [item]).filterMap f = items.filterMap f ++ (f item).toList := by
  rw [List.filterMap_append]
  cases read : f item with
  | none => rw [List.filterMap_cons_none read]; rfl
  | some value => rw [List.filterMap_cons_some read]; rfl

theorem runRoutes_trie : (runRoutes ops).wildcardTrie = runTrie (ops.filterMap RouteOp.onTrie) := by
  induction ops using List.reverseRecOn with
  | nil => rfl
  | append_singleton ops op ih =>
    rw [filterMap_concat, runTrie, List.foldl_append, ← runTrie, ← ih, ← apply_trie, runRoutes,
      List.foldl_append]
    rfl

theorem runRoutes_flag : (runRoutes ops).hasWildcards = !(runRoutes ops).wildcardTrie.isEmpty := by
  induction ops using List.reverseRecOn with
  | nil => rfl
  | append_singleton ops op ih =>
    rw [runRoutes, List.foldl_append, ← runRoutes, List.foldl_cons, List.foldl_nil]
    cases op with
    | insert pattern id => exact flag_insert ih pattern id
    | remove pattern id => exact flag_remove ih pattern id

theorem matchSubject_congr {a b : RoutingEngine} (ids : ∀ slot, a.idsAt slot = b.idsAt slot)
    (flag : a.hasWildcards = b.hasWildcards) (subject : Subject) :
    a.matchSubject subject = b.matchSubject subject := by
  have exact : (a.exact.lookup subject.raw).getD [] = (b.exact.lookup subject.raw).getD [] :=
    ids (.exact subject.raw)
  have trie : a.wildcardTrie.matchSubject subject = b.wildcardTrie.matchSubject subject :=
    trie_match_congr (fun slot => ids (.trie slot)) subject
  rw [RoutingEngine.matchSubject, RoutingEngine.matchSubject, exact, trie, flag]

theorem runRoutes_remove_missing {pattern : SubjectPattern}
    (missing : id ∉ (runRoutes ops).idsAt (slotOf pattern)) (subject : Subject) :
    ((runRoutes ops).remove pattern id).matchSubject subject =
      (runRoutes ops).matchSubject subject := by
  have ids : ∀ slot, ((runRoutes ops).remove pattern id).idsAt slot =
      (runRoutes ops).idsAt slot := by
    intro slot
    rw [idsAt_remove]
    split_ifs with here
    · rw [← here, filter_ne_absent missing]
    · rfl
  refine matchSubject_congr ids ?_ subject
  rw [RoutingEngine.remove]
  cases wild : hasWildcard pattern with
  | false => rfl
  | true =>
    have unmoved : (TrieNode.remove id (hasMulti pattern.tokens) (pattern.tokens.map tokenText)
        (runRoutes ops).wildcardTrie.root).2 = false := by
      rw [slotOf, wild, if_pos rfl] at missing
      rw [Bool.eq_false_iff, ne_eq, TrieNode.remove_found]
      exact missing
    simp only [Bool.not_true, Bool.false_eq_true, if_false, isEmpty_remove_missing unmoved]
    split_ifs with empty
    · rw [runRoutes_flag, empty, Bool.not_true]
    · rfl

/-- The counter is exact along every run with distinct ids, the flag follows it, and a
removal that finds nothing changes no match. -/
theorem subscriberCount_exact :
    (∀ ops : List TrieOp, (ops.filterMap TrieOp.inserted).Nodup →
      (runTrie ops).subscriberCount = (storedIds (runTrie ops).root).length) ∧
    (∀ ops : List RouteOp, ((ops.filterMap RouteOp.onTrie).filterMap TrieOp.inserted).Nodup →
      ((runRoutes ops).hasWildcards = true ↔
        0 < (storedIds (runRoutes ops).wildcardTrie.root).length)) ∧
    (∀ (trie : SubjectTrie) (tokens : List Str) (id : SubscriptionId) (hasMulti : Bool),
      (trie.root.remove id hasMulti tokens).2 = false → ∀ subject,
        (trie.remove tokens id hasMulti).matchSubject subject = trie.matchSubject subject) ∧
    ∀ (ops : List RouteOp) (pattern : SubjectPattern) (id : SubscriptionId),
      id ∉ (runRoutes ops).idsAt (slotOf pattern) → ∀ subject,
        ((runRoutes ops).remove pattern id).matchSubject subject =
          (runRoutes ops).matchSubject subject := by
  refine ⟨fun ops once => (counted_run ops once).count, ?_, ?_, ?_⟩
  · intro ops once
    have counted := (counted_run _ once).count
    rw [← runRoutes_trie] at counted
    rw [runRoutes_flag, ← counted, SubjectTrie.isEmpty]
    simp [Nat.pos_iff_ne_zero]
  · intro trie tokens id hasMulti missing subject
    exact remove_missing missing subject
  · intro ops pattern id missing subject
    exact runRoutes_remove_missing ops missing subject

private def anything : SubjectPattern :=
  ⟨['>'], [.multiWildcard], by decide, by decide, by decide, by decide, by decide, by decide⟩

theorem subscriberCount_exact_calls :
    (runTrie [.insert [['*']] 1 false, .remove [['a']] 1 false]).subscriberCount =
      (storedIds (runTrie [.insert [['*']] 1 false, .remove [['a']] 1 false]).root).length ∧
    ((runRoutes [.insert anything 1]).hasWildcards = true ↔
      0 < (storedIds (runRoutes [.insert anything 1]).wildcardTrie.root).length) ∧
    (∀ subject,
      ((runTrie [.insert [['*']] 1 false]).remove [['*']] 2 false).matchSubject subject =
        (runTrie [.insert [['*']] 1 false]).matchSubject subject) ∧
    ∀ subject, ((runRoutes [.insert anything 1]).remove anything 2).matchSubject subject =
      (runRoutes [.insert anything 1]).matchSubject subject :=
  ⟨subscriberCount_exact.1 _ (by decide), subscriberCount_exact.2.1 _ (by decide),
    subscriberCount_exact.2.2.1 _ _ _ _ (by decide), subscriberCount_exact.2.2.2 _ _ _ (by decide)⟩

end ZetMQ.TrieCount
