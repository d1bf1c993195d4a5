import ZetMQ.Interleaving
import ZetMQ.RoutingTable

/-! The wildcard flag of the routing engine when calls overlap. Inserting updates the
trie and then sets the flag; removing updates the trie, looks whether it is empty, and
then clears the flag. Between the last two steps the trie may fill up again. -/
namespace ZetMQ.WildcardFlag
open Utf8Text SubjectGrammar WildcardTrie KeyedTable Routing RoutingTable Interleaving

/-- What is left of an `insert` or a `remove`. -/
inductive Call where
  | insert (pattern : SubjectPattern) (id : SubscriptionId)
  | setFlag
  | remove (pattern : SubjectPattern) (id : SubscriptionId)
  | testEmpty
  | clearFlag
deriving DecidableEq

def next (engine : RoutingEngine) : Call → RoutingEngine × Option Call
  | .insert pattern id =>
    if !hasWildcard pattern then
      ({ engine with exact := upsert pattern.raw [] (· ++ [id]) engine.exact }, none)
    else
      ({ engine with
        wildcardTrie := engine.wildcardTrie.insert (pattern.tokens.map tokenText) id
          (hasMulti pattern.tokens) }, some .setFlag)
  | .setFlag => ({ engine with hasWildcards := true }, none)
  | .remove pattern id =>
    if !hasWildcard pattern then
      ({ engine with exact := modify pattern.raw (·.filter (· ≠ id)) engine.exact }, none)
    else
      ({ engine with
        wildcardTrie := engine.wildcardTrie.remove (pattern.tokens.map tokenText) id
          (hasMulti pattern.tokens) }, some .testEmpty)
  | .testEmpty => (engine, if engine.wildcardTrie.isEmpty then some .clearFlag else none)
  | .clearFlag => ({ engine with hasWildcards := false }, none)

section
variable (engine : RoutingEngine) (pattern : SubjectPattern) (id : SubscriptionId)

theorem finishes_insert : Finishes next engine (.insert pattern id) (engine.insert pattern id) := by
  rw [RoutingEngine.insert]
  cases wild : hasWildcard pattern with
  | false => exact .last (by simp [next, wild])
  | true => exact .more (by rw [next, if_neg (by simp [wild])]) (.last rfl)

theorem finishes_remove : Finishes next engine (.remove pattern id) (engine.remove pattern id) := by
  rw [RoutingEngine.remove]
  cases wild : hasWildcard pattern with
  | false => exact .last (by simp [next, wild])
  | true =>
    refine .more (by rw [next, if_neg (by simp [wild])]) ?_
    by_cases empty : (engine.wildcardTrie.remove (pattern.tokens.map tokenText) id
        (hasMulti pattern.tokens)).isEmpty = true
    · simp only [Bool.not_true, Bool.false_eq_true, if_false, if_pos empty]
      exact .more (by rw [next, if_pos empty]) (.last rfl)
    · simp only [Bool.not_true, Bool.false_eq_true, if_false, if_neg empty]
      exact .last (by rw [next, if_neg empty])

end

structure Holds (trie : SubjectTrie) (held : List (TrieSlot × SubscriptionId)) : Prop where
  ids : ∀ slot, trie.root.idsAt slot = (held.filter (·.1 = slot)).map Prod.snd
  count : held.length ≤ trie.subscriberCount

theorem holds_new : Holds .new [] := ⟨TrieNode.idsAt_empty, le_rfl⟩

theorem Holds.insert {trie : SubjectTrie} {held : List (TrieSlot × SubscriptionId)}
    (holds : Holds trie held) (tokens : List Str) (id : SubscriptionId) (multi : Bool) :
    Holds (trie.insert tokens id multi) (held ++ [(target tokens multi, id)]) := by
  constructor
  · intro slot
    rw [SubjectTrie.insert, TrieNode.insert_updates id multi tokens trie.root slot, holds.ids,
      List.filter_append, List.map_append]
    by_cases here : slot = target tokens multi
    · simp [here]
    · simp [here, Ne.symm here]
  · simpa [SubjectTrie.insert] using holds.count

theorem Holds.remove {trie : SubjectTrie} {held : List (TrieSlot × SubscriptionId)}
    (holds : Holds trie held) (tokens : List Str) (id : SubscriptionId) (multi : Bool) :
    Holds (trie.remove tokens id multi) (held.filter (· ≠ (target tokens multi, id))) := by
  constructor
  · intro slot
    rw [SubjectTrie.remove, TrieNode.remove_updates id multi tokens trie.root slot, holds.ids,
      List.filter_filter]
    by_cases here : slot = target tokens multi
    · subst here
      rw [if_pos rfl]
      simp only [List.filter_map, List.filter_filter]
      congr 1
      refine List.filter_congr fun entry _ => ?_
      by_cases same : entry.1 = target tokens multi <;> simp [same, Prod.ext_iff]
    · rw [if_neg here]
      congr 1
      refine List.filter_congr fun entry _ => ?_
      by_cases same : entry.1 = slot <;> simp [same, here, Prod.ext_iff]
  · have shorter := List.length_filter_le (· ≠ (target tokens multi, id)) held
    have count := holds.count
    simp only [SubjectTrie.remove]
    split
    · rename_i found
      rw [TrieNode.remove_found, holds.ids] at found
      obtain ⟨entry, member, isId⟩ := List.mem_map.mp found
      have fewer : (held.filter (· ≠ (target tokens multi, id))).length < held.length := by
        rw [List.length_filter_lt_length_iff_exists]
        refine ⟨entry, List.mem_of_mem_filter member, ?_⟩
        have at_ := (List.mem_filter.mp member).2
        simp only [decide_eq_true_eq] at at_
        simp [Prod.ext_iff, at_, isId]
      omega
    · omega

theorem Holds.matchSubject {trie : SubjectTrie} {held : List (TrieSlot × SubscriptionId)}
    (holds : Holds trie held) (empty : trie.isEmpty = true) (subject : Subject) :
    trie.matchSubject subject = [] := by
  have none : held = [] := by
    have count := holds.count
    rw [SubjectTrie.isEmpty, beq_iff_eq] at empty
    exact List.eq_nil_of_length_eq_zero (by omega)
  rw [SubjectTrie.matchSubject, matchRecursive_eq, List.nil_append, List.flatMap_eq_nil_iff]
  intro slot _
  simp [holds.ids, none]

inductive FlagStore where
  | set
  | clear (empty : Bool)
deriving DecidableEq

def flagStore : RoutingEngine × Call → Option FlagStore
  | (_, .setFlag) => some .set
  | (engine, .clearFlag) => some (.clear engine.wildcardTrie.isEmpty)
  | _ => none

def lastStore (past : List (RoutingEngine × Call)) : Option FlagStore :=
  (past.filterMap flagStore).getLast?

theorem lastStore_concat (past : List (RoutingEngine × Call)) (entry : RoutingEngine × Call) :
    lastStore (past ++ [entry]) = (flagStore entry).or (lastStore past) := by
  rw [lastStore, List.filterMap_append, List.getLast?_append, lastStore]
  cases stored : flagStore entry <;> simp [stored]

structure Flagged (s : Shared RoutingEngine Call) (past : List (RoutingEngine × Call)) : Prop where
  held : ∃ held, Holds s.state.wildcardTrie held
  flag : s.state.hasWildcards = true ↔ lastStore past = some .set
  cleared : s.state.hasWildcards = false → lastStore past ≠ some (.clear false) →
    s.state.wildcardTrie.isEmpty = true ∨ .setFlag ∈ s.pending

theorem flagged_start : Flagged ⟨.new, []⟩ [] :=
  ⟨⟨[], holds_new⟩, by simp [RoutingEngine.new, lastStore], fun _ _ => .inl rfl⟩

theorem Flagged.begin {s : Shared RoutingEngine Call} {past : List (RoutingEngine × Call)}
    (flagged : Flagged s past) (call : Call) :
    Flagged { s with pending := s.pending ++ [call] } past :=
  ⟨flagged.held, flagged.flag, fun down fair =>
    (flagged.cleared down fair).imp_right fun member => List.mem_append_left _ member⟩

variable {s : Shared RoutingEngine Call} {past : List (RoutingEngine × Call)} {i : ℕ} {call : Call}

section
variable (flagged : Flagged s past) (found : s.pending[i]? = some call)
include flagged found

section
variable (stores : flagStore (s.state, call) = none)
  (flag : (next s.state call).1.hasWildcards = s.state.hasWildcards)
include stores flag

theorem Flagged.silent (held : ∃ held, Holds (next s.state call).1.wildcardTrie held)
    (filled : s.state.wildcardTrie.isEmpty = true →
      (next s.state call).1.wildcardTrie.isEmpty = true ∨ (next s.state call).2 = some .setFlag) :
    Flagged (s.advance next i call) (past ++ [(s.state, call)]) := by
  have last : lastStore (past ++ [(s.state, call)]) = lastStore past := by
    rw [lastStore_concat, stores, Option.none_or]
  have different : Call.setFlag ≠ call := by
    rintro rfl
    cases stores
  refine ⟨held, ?_, ?_⟩
  · rw [last, ← flagged.flag, ← flag]
    rfl
  · intro down fair
    rw [last] at fair
    cases flagged.cleared (flag.symm.trans down) fair with
    | inl empty =>
      exact (filled empty).imp_right fun setting => rest_mem_advance next found setting
    | inr setting => exact .inr (mem_advance_of_ne next found different setting)

theorem Flagged.apart (trie : (next s.state call).1.wildcardTrie = s.state.wildcardTrie) :
    Flagged (s.advance next i call) (past ++ [(s.state, call)]) := by
  refine flagged.silent found stores flag ?_ ?_
  · rw [trie]
    exact flagged.held
  · rw [trie]
    exact .inl

end

theorem Flagged.advance : Flagged (s.advance next i call) (past ++ [(s.state, call)]) := by
  obtain ⟨held, holds⟩ := flagged.held
  cases call with
  | insert pattern id =>
    cases wild : hasWildcard pattern with
    | false => exact flagged.apart found rfl (by simp [next, wild]) (by simp [next, wild])
    | true =>
      refine flagged.silent found rfl ?_ ?_ fun _ => .inr ?_
      · simp [next, wild]
      · simp only [next, wild, Bool.not_true, Bool.false_eq_true, if_false]
        exact ⟨_, holds.insert _ id _⟩
      · simp [next, wild]
  | remove pattern id =>
    cases wild : hasWildcard pattern with
    | false => exact flagged.apart found rfl (by simp [next, wild]) (by simp [next, wild])
    | true =>
      refine flagged.silent found rfl ?_ ?_ fun empty => .inl ?_
      · simp [next, wild]
      · simp only [next, wild, Bool.not_true, Bool.false_eq_true, if_false]
        exact ⟨_, holds.remove _ id _⟩
      · simpa [next, wild] using isEmpty_remove empty _ id _
  | testEmpty => exact flagged.apart found rfl rfl rfl
  | setFlag =>
    have last : lastStore (past ++ [(s.state, .setFlag)]) = some .set := lastStore_concat ..
    exact ⟨⟨held, holds⟩, iff_of_true rfl last, fun down => by cases down⟩
  | clearFlag =>
    have last : lastStore (past ++ [(s.state, .clearFlag)]) =
        some (.clear s.state.wildcardTrie.isEmpty) := lastStore_concat ..
    refine ⟨⟨held, holds⟩, ?_, fun _ fair => .inl ?_⟩
    · rw [last]
      simp [Shared.advance, next]
    · rw [last] at fair
      simpa [Shared.advance, next] using fair

end

theorem flagged_run (events : List (Event Call)) :
    Flagged (Shared.run next ⟨.new, []⟩ events) (Shared.steps next ⟨.new, []⟩ events) :=
  run_invariant next (P := Flagged) (fun _ _ call _ flagged => flagged.begin call)
    (fun _ _ _ _ flagged found => flagged.advance found) (fun _ _ => trivial) flagged_start

def Complete (engine : RoutingEngine) : Prop :=
  ∀ subject : Subject, engine.matchSubject subject =
    (engine.exact.lookup subject.raw).getD [] ++ engine.wildcardTrie.matchSubject subject

/-- When no call is in progress, a trie with something in it has its flag up and no
match misses anything, exactly if the last store to the flag did not clear it while
the trie was filled. -/
theorem wildcard_flag_iff (events : List (Event Call))
    (quiet : (Shared.run next ⟨.new, []⟩ events).pending = []) :
    let engine := (Shared.run next ⟨.new, []⟩ events).state
    (engine.wildcardTrie.isEmpty = false → engine.hasWildcards = true) ∧ Complete engine ↔
      (engine.wildcardTrie.isEmpty = false →
        lastStore (Shared.steps next ⟨.new, []⟩ events) ≠ some (.clear false)) := by
  intro engine
  have flagged := flagged_run events
  obtain ⟨held, holds⟩ := flagged.held
  constructor
  · intro ⟨up, _⟩ filled cleared
    have set := flagged.flag.mp (up filled)
    rw [cleared] at set
    cases set
  · intro fair
    have up : engine.wildcardTrie.isEmpty = false → engine.hasWildcards = true := by
      intro filled
      by_contra down
      cases flagged.cleared (Bool.not_eq_true _ ▸ down) (fair filled) with
      | inl empty => cases filled.symm.trans empty
      | inr setting => simp [quiet] at setting
    refine ⟨up, fun subject => ?_⟩
    rw [RoutingEngine.matchSubject]
    split
    · rfl
    · rename_i down
      have empty : engine.wildcardTrie.isEmpty = true := by
        by_contra filled
        exact down (up (Bool.not_eq_true _ ▸ filled))
      rw [holds.matchSubject empty, List.append_nil]

private def staleClear : List (Event Call) :=
  [.begin (.insert ordersAny 1), .advance 0, .advance 0,
    .begin (.remove ordersAny 1), .advance 0, .advance 0,
    .begin (.insert ordersAny 2), .advance 1, .advance 1, .advance 0]

/-- The subscription is in the trie, no call is in progress, and the flag hides it. -/
theorem stale_clear_hides_a_subscription :
    (Shared.run next ⟨.new, []⟩ staleClear).pending = [] ∧
    (Shared.run next ⟨.new, []⟩ staleClear).state.wildcardTrie.isEmpty = false ∧
    (Shared.run next ⟨.new, []⟩ staleClear).state.hasWildcards = false ∧
    (Shared.run next ⟨.new, []⟩ staleClear).state.wildcardTrie.matchSubject newOrder = [2] ∧
    (Shared.run next ⟨.new, []⟩ staleClear).state.matchSubject newOrder = [] := by
  decide

private def answeredClear : List (Event Call) :=
  [.begin (.insert ordersAny 1), .advance 0, .advance 0,
    .begin (.remove ordersAny 1), .advance 0, .advance 0,
    .begin (.insert ordersAny 2), .advance 1, .advance 0, .advance 0]

theorem answered_clear_is_harmless :
    (Shared.run next ⟨.new, []⟩ answeredClear).pending = [] ∧
    (Shared.run next ⟨.new, []⟩ answeredClear).state.hasWildcards = true :=
  ⟨rfl, ((wildcard_flag_iff answeredClear rfl).mpr fun _ => by decide).1 rfl⟩

end ZetMQ.WildcardFlag
