import Mathlib.Data.List.Sigma
import ZetMQ.SubjectGrammar

/-! The token trie of the wildcard subscriptions. A node keeps the patterns that
end at it and, apart from them, the patterns that continue with a final `>`.
Reading the trie slot by slot turns each walk over it into a statement about
one list: insertion and removal change the list of one slot, and a match
concatenates the lists of the slots it visits. -/
namespace ZetMQ.WildcardTrie
open Utf8Text SubjectGrammar

abbrev SubscriptionId := ℕ

structure TrieNode where
  children : List (Σ _ : Str, TrieNode)
  multiWildcardSubs : List SubscriptionId
  exactSubs : List SubscriptionId

namespace TrieNode

def empty : TrieNode := ⟨[], [], []⟩

def child (node : TrieNode) (token : Str) : Option TrieNode := node.children.dlookup token

def setChild (node : TrieNode) (token : Str) (next : TrieNode) : TrieNode :=
  { node with children := node.children.kinsert token next }

def insert (id : SubscriptionId) (hasMulti : Bool) : List Str → TrieNode → TrieNode
  | [], node => { node with exactSubs := node.exactSubs ++ [id] }
  | token :: rest, node =>
    if hasMulti && rest.isEmpty then
      { node with multiWildcardSubs := node.multiWildcardSubs ++ [id] }
    else node.setChild token (insert id hasMulti rest ((node.child token).getD empty))

/-- The descent of `SubjectTrie::remove`; the flag says that a list got shorter. -/
def remove (id : SubscriptionId) (hasMulti : Bool) : List Str → TrieNode → TrieNode × Bool
  | [], node =>
    let kept := node.exactSubs.filter (· ≠ id)
    ({ node with exactSubs := kept }, kept.length < node.exactSubs.length)
  | token :: rest, node =>
    if hasMulti && rest.isEmpty then
      let kept := node.multiWildcardSubs.filter (· ≠ id)
      ({ node with multiWildcardSubs := kept }, kept.length < node.multiWildcardSubs.length)
    else match node.child token with
      | some next =>
        let result := remove id hasMulti rest next
        (node.setChild token result.1, result.2)
      | none => (node, false)

def matchRecursive : TrieNode → List Str → List SubscriptionId → List SubscriptionId
  | node, [], results => results ++ node.exactSubs
  | node, token :: rest, results =>
    let results := if node.multiWildcardSubs.isEmpty then results
      else results ++ node.multiWildcardSubs
    let results := match node.child token with
      | some next => matchRecursive next rest results
      | none => results
    match node.child ['*'] with
    | some star => if token ≠ ['*'] then matchRecursive star rest results else results
    | none => results

end TrieNode

structure SubjectTrie where
  root : TrieNode
  subscriberCount : ℕ

def SubjectTrie.new : SubjectTrie := ⟨.empty, 0⟩

def SubjectTrie.isEmpty (trie : SubjectTrie) : Bool := trie.subscriberCount == 0

def SubjectTrie.insert (trie : SubjectTrie) (tokens : List Str) (id : SubscriptionId)
    (hasMulti : Bool) : SubjectTrie :=
  ⟨trie.root.insert id hasMulti tokens, trie.subscriberCount + 1⟩

def SubjectTrie.remove (trie : SubjectTrie) (tokens : List Str) (id : SubscriptionId)
    (hasMulti : Bool) : SubjectTrie :=
  let result := trie.root.remove id hasMulti tokens
  ⟨result.1, if result.2 then trie.subscriberCount - 1 else trie.subscriberCount⟩

def SubjectTrie.matchSubject (trie : SubjectTrie) (subject : Subject) : List SubscriptionId :=
  trie.root.matchRecursive subject.tokens []

/-- One of the lists kept by the trie: the patterns ending at `path`, or those
that put a final `>` after it. -/
structure TrieSlot where
  multi : Bool
  path : List Str
deriving DecidableEq

def TrieSlot.under (token : Str) (slot : TrieSlot) : TrieSlot :=
  { slot with path := token :: slot.path }

variable {slot : TrieSlot} (id : SubscriptionId) (hasMulti : Bool) (tokens : List Str)
  (node : TrieNode)

theorem TrieSlot.under_inj {token token' : Str} {slot' : TrieSlot} :
    slot.under token = slot'.under token' ↔ token = token' ∧ slot = slot' := by
  cases slot
  cases slot'
  simp only [under, mk.injEq, List.cons.injEq]
  tauto

/-- The slot at which `insert` and `remove` stop. -/
def target (tokens : List Str) (hasMulti : Bool) : TrieSlot :=
  if hasMulti && !tokens.isEmpty then ⟨true, tokens.dropLast⟩ else ⟨false, tokens⟩

theorem target_last (token : Str) {rest : List Str} {hasMulti : Bool}
    (stop : (hasMulti && rest.isEmpty) = true) : target (token :: rest) hasMulti = ⟨true, []⟩ := by
  obtain ⟨rfl, rfl⟩ : hasMulti = true ∧ rest = [] := by simpa using stop
  rfl

theorem target_cons (token : Str) {rest : List Str} {hasMulti : Bool}
    (go : ¬(hasMulti && rest.isEmpty) = true) :
    target (token :: rest) hasMulti = (target rest hasMulti).under token := by
  cases rest with
  | nil =>
    have single : hasMulti = false := by simpa using go
    simp [target, single, TrieSlot.under]
  | cons next rest => cases hasMulti <;> simp [target, TrieSlot.under]

namespace TrieNode

def idsAlong (multi : Bool) : List Str → TrieNode → List SubscriptionId
  | [], node => if multi then node.multiWildcardSubs else node.exactSubs
  | token :: path, node =>
    match node.child token with
    | some next => idsAlong multi path next
    | none => []

def idsAt (node : TrieNode) (slot : TrieSlot) : List SubscriptionId :=
  idsAlong slot.multi slot.path node

theorem idsAt_empty (slot : TrieSlot) : empty.idsAt slot = [] := by
  obtain ⟨multi, path⟩ := slot
  cases path with
  | nil => cases multi <;> rfl
  | cons token path => rfl

theorem idsAt_under (token : Str) (slot : TrieSlot) :
    node.idsAt (slot.under token) = ((node.child token).getD empty).idsAt slot := by
  cases found : node.child token with
  | none => simp only [idsAt, TrieSlot.under, idsAlong, found, Option.getD_none, ← idsAt_empty slot]
  | some next => simp only [idsAt, TrieSlot.under, idsAlong, found, Option.getD_some]

theorem child_setChild (next : TrieNode) (token token' : Str) :
    (node.setChild token next).child token' =
      if token' = token then some next else node.child token' := by
  unfold child setChild
  split_ifs with h
  · rw [h, List.dlookup_kinsert]
  · rw [List.dlookup_kinsert_ne h]

def Updates (f : List SubscriptionId → List SubscriptionId) (slot : TrieSlot)
    (before after : TrieNode) : Prop :=
  ∀ other, after.idsAt other = if other = slot then f (before.idsAt other) else before.idsAt other

theorem updates_exact (f : List SubscriptionId → List SubscriptionId) (node : TrieNode) :
    Updates f ⟨false, []⟩ node { node with exactSubs := f node.exactSubs } := by
  rintro ⟨multi, path⟩
  cases path with
  | nil => cases multi <;> rfl
  | cons token path => exact (if_neg (by simp)).symm

theorem updates_multi (f : List SubscriptionId → List SubscriptionId) (node : TrieNode) :
    Updates f ⟨true, []⟩ node { node with multiWildcardSubs := f node.multiWildcardSubs } := by
  rintro ⟨multi, path⟩
  cases path with
  | nil => cases multi <;> rfl
  | cons token path => exact (if_neg (by simp)).symm

theorem updates_self {f : List SubscriptionId → List SubscriptionId} {node : TrieNode}
    (h : f (node.idsAt slot) = node.idsAt slot) : Updates f slot node node := by
  intro other
  split_ifs with same
  · rw [same, h]
  · rfl

theorem Updates.setChild {f : List SubscriptionId → List SubscriptionId} {node next : TrieNode}
    {token : Str} (h : Updates f slot ((node.child token).getD empty) next) :
    Updates f (slot.under token) node (node.setChild token next) := by
  rintro ⟨multi, path⟩
  cases path with
  | nil => simp only [TrieSlot.under, TrieSlot.mk.injEq, reduceCtorEq, and_false, if_false]; rfl
  | cons token' path =>
    change (node.setChild token next).idsAt (TrieSlot.under token' ⟨multi, path⟩) =
      if TrieSlot.under token' ⟨multi, path⟩ = slot.under token then
        f (node.idsAt (TrieSlot.under token' ⟨multi, path⟩))
      else node.idsAt (TrieSlot.under token' ⟨multi, path⟩)
    simp only [idsAt_under, child_setChild, TrieSlot.under_inj]
    by_cases same : token' = token
    · subst same
      simpa using h ⟨multi, path⟩
    · simp [same]

theorem insert_updates :
    Updates (· ++ [id]) (target tokens hasMulti) node (node.insert id hasMulti tokens) := by
  induction tokens generalizing node with
  | nil =>
    rw [insert, target, List.isEmpty_nil, Bool.not_true, Bool.and_false]
    exact updates_exact _ node
  | cons token rest ih =>
    rw [insert]
    split_ifs with stop
    · rw [target_last token stop]
      exact updates_multi _ node
    · rw [target_cons token stop]
      exact (ih _).setChild

private theorem filter_ne_length_lt (ids : List SubscriptionId) :
    (ids.filter (· ≠ id)).length < ids.length ↔ id ∈ ids := by
  rw [List.length_filter_lt_length_iff_exists]
  simp

theorem remove_updates :
    Updates (·.filter (· ≠ id)) (target tokens hasMulti) node
      (node.remove id hasMulti tokens).1 := by
  induction tokens generalizing node with
  | nil =>
    rw [remove, target, List.isEmpty_nil, Bool.not_true, Bool.and_false]
    exact updates_exact _ node
  | cons token rest ih =>
    rw [remove]
    split_ifs with stop
    · rw [target_last token stop]
      exact updates_multi _ node
    · rw [target_cons token stop]
      cases found : node.child token with
      | none =>
        refine updates_self ?_
        rw [idsAt_under, found, Option.getD_none, idsAt_empty, List.filter_nil]
      | some next =>
        refine Updates.setChild ?_
        rw [found]
        exact ih next

theorem remove_found :
    (node.remove id hasMulti tokens).2 = true ↔ id ∈ node.idsAt (target tokens hasMulti) := by
  induction tokens generalizing node with
  | nil =>
    rw [remove, decide_eq_true_iff, filter_ne_length_lt, target, List.isEmpty_nil,
      Bool.not_true, Bool.and_false]
    rfl
  | cons token rest ih =>
    rw [remove]
    split_ifs with stop
    · rw [target_last token stop, decide_eq_true_iff, filter_ne_length_lt]
      rfl
    · rw [target_cons token stop, idsAt_under]
      cases found : node.child token with
      | none => simp [idsAt_empty]
      | some next => simpa using ih next

end TrieNode

def visited : List Str → List TrieSlot
  | [] => [⟨false, []⟩]
  | token :: rest =>
    ⟨true, []⟩ :: ((visited rest).map (TrieSlot.under token) ++
      if token ≠ ['*'] then (visited rest).map (TrieSlot.under ['*']) else [])

theorem matchRecursive_eq (results : List SubscriptionId) :
    node.matchRecursive tokens results = results ++ (visited tokens).flatMap node.idsAt := by
  induction tokens generalizing node results with
  | nil => simp [TrieNode.matchRecursive, visited, TrieNode.idsAt, TrieNode.idsAlong]
  | cons token rest ih =>
    have below : ∀ token' acc,
        (match node.child token' with
          | some next => next.matchRecursive rest acc
          | none => acc) =
        acc ++ ((visited rest).map (TrieSlot.under token')).flatMap node.idsAt := by
      intro token' acc
      simp only [List.flatMap_map, TrieNode.idsAt_under]
      cases node.child token' with
      | none => simp [TrieNode.idsAt_empty]
      | some next => exact ih next acc
    have here : (if node.multiWildcardSubs.isEmpty then results
        else results ++ node.multiWildcardSubs) = results ++ node.idsAt ⟨true, []⟩ := by
      split_ifs with none
      · simp [TrieNode.idsAt, TrieNode.idsAlong, List.isEmpty_iff.mp none]
      · rfl
    rw [TrieNode.matchRecursive, here]
    simp only [below]
    rw [visited, List.flatMap_cons, List.flatMap_append]
    by_cases star : token = ['*']
    · simp only [star, ne_eq, not_true_eq_false, if_false, List.flatMap_nil, List.append_nil,
        List.append_assoc]
      split <;> rfl
    · simp only [star, ne_eq, not_false_eq_true, if_true, below, List.append_assoc]

theorem visited_nodup : (visited tokens).Nodup := by
  induction tokens with
  | nil => simp [visited]
  | cons token rest ih =>
    have mapped : ∀ token', ((visited rest).map (TrieSlot.under token')).Nodup := fun token' =>
      ih.map fun _ _ same => (TrieSlot.under_inj.mp same).2
    rw [visited, List.nodup_cons]
    constructor
    · simp only [List.mem_append, List.mem_map, not_or]
      constructor
      · rintro ⟨slot, -, same⟩
        simp [TrieSlot.under] at same
      · split_ifs
        · rintro member
          obtain ⟨slot, -, same⟩ := List.mem_map.mp member
          simp [TrieSlot.under] at same
        · simp
    · split_ifs with star
      · refine (mapped token).append (mapped ['*']) ?_
        intro slot left right
        obtain ⟨a, -, rfl⟩ := List.mem_map.mp left
        obtain ⟨b, -, same⟩ := List.mem_map.mp right
        exact star (TrieSlot.under_inj.mp same).1.symm
      · simpa using mapped token

end ZetMQ.WildcardTrie
