import ZetMQ.KeyedTable
import ZetMQ.WildcardTrie

/-! The routing engine: a string-keyed map for the patterns without wildcards and
the trie for the others, with a flag that lets a publish skip the trie. Both
halves are read through the slots of a pattern; `Represents` says that each slot
lists the live entries that belong to it, in the order of their insertion. -/
namespace ZetMQ.Routing
open Utf8Text SubjectGrammar WildcardTrie KeyedTable

structure RoutingEngine where
  exact : Table Str (List SubscriptionId)
  wildcardTrie : SubjectTrie
  hasWildcards : Bool

def isWildcard : PatternToken → Bool
  | .literal _ => false
  | .singleWildcard => true
  | .multiWildcard => true

def tokenText : PatternToken → Str
  | .literal text => text
  | .singleWildcard => ['*']
  | .multiWildcard => ['>']

def hasWildcard (pattern : SubjectPattern) : Bool := pattern.tokens.any isWildcard

def hasMulti (tokens : List PatternToken) : Bool := tokens.any (· == .multiWildcard)

namespace RoutingEngine

def new : RoutingEngine := ⟨∅, .new, false⟩

def insert (engine : RoutingEngine) (pattern : SubjectPattern) (id : SubscriptionId) :
    RoutingEngine :=
  if !hasWildcard pattern then
    { engine with exact := upsert pattern.raw [] (· ++ [id]) engine.exact }
  else
    { engine with
      wildcardTrie := engine.wildcardTrie.insert (pattern.tokens.map tokenText) id
        (hasMulti pattern.tokens)
      hasWildcards := true }

def remove (engine : RoutingEngine) (pattern : SubjectPattern) (id : SubscriptionId) :
    RoutingEngine :=
  if !hasWildcard pattern then
    { engine with exact := modify pattern.raw (·.filter (· ≠ id)) engine.exact }
  else
    let trie := engine.wildcardTrie.remove (pattern.tokens.map tokenText) id
      (hasMulti pattern.tokens)
    { engine with
      wildcardTrie := trie
      hasWildcards := if trie.isEmpty then false else engine.hasWildcards }

def matchSubject (engine : RoutingEngine) (subject : Subject) : List SubscriptionId :=
  let results := (engine.exact.lookup subject.raw).getD []
  if engine.hasWildcards then results ++ engine.wildcardTrie.matchSubject subject else results

def exactSingleSubscriber (engine : RoutingEngine) (subject : Subject) : Option SubscriptionId :=
  match engine.exact.lookup subject.raw with
  | some [id] => some id
  | _ => none

/-- Exact matches of an unparsed subject; the flag asks for the wildcard half. -/
def matchSubjectStr (engine : RoutingEngine) (subject : Str) : List SubscriptionId × Bool :=
  ((engine.exact.lookup subject).getD [], engine.hasWildcards)

def matchWildcards (engine : RoutingEngine) (subject : Subject) : List SubscriptionId :=
  if engine.hasWildcards then engine.wildcardTrie.matchSubject subject else []

end RoutingEngine

inductive Slot where
  | exact (key : Str)
  | trie (slot : TrieSlot)
deriving DecidableEq

def trieTarget (tokens : List PatternToken) : TrieSlot :=
  target (tokens.map tokenText) (hasMulti tokens)

def slotOf (pattern : SubjectPattern) : Slot :=
  if hasWildcard pattern then .trie (trieTarget pattern.tokens) else .exact pattern.raw

def slotsFor (subject : Subject) : List Slot :=
  .exact subject.raw :: (visited subject.tokens).map .trie

def RoutingEngine.idsAt (engine : RoutingEngine) : Slot → List SubscriptionId
  | .exact key => (engine.exact.lookup key).getD []
  | .trie slot => engine.wildcardTrie.root.idsAt slot

theorem tokenText_classify (token : Str) : tokenText (.classify token) = token := by
  unfold PatternToken.classify
  split_ifs with star multi
  · rw [star]; rfl
  · rw [multi]; rfl
  · rfl

theorem texts_eq_split (pattern : SubjectPattern) :
    pattern.tokens.map tokenText = pattern.raw.splitOn '.' := by
  rw [pattern.split, List.map_map]
  exact List.map_congr_left (fun token _ => tokenText_classify token) |>.trans (List.map_id' _)

theorem splitOn_dot_injective {a b : Str} (h : a.splitOn '.' = b.splitOn '.') : a = b := by
  have joined := congrArg (['.'].intercalate ·) h
  simpa only [List.intercalate_splitOn] using joined

theorem literal_classified {text : Str} {pattern : SubjectPattern}
    (h : .literal text ∈ pattern.tokens) : text ≠ ['*'] := by
  rw [pattern.split, List.mem_map] at h
  obtain ⟨token, -, classified⟩ := h
  unfold PatternToken.classify at classified
  split_ifs at classified with star multi
  cases classified
  exact star

private theorem mem_intercalate {sep : Str} {pieces : List Str} {piece : Str} {c : Char}
    (h : piece ∈ pieces) (inside : c ∈ piece) : c ∈ sep.intercalate pieces := by
  induction pieces with
  | nil => simp at h
  | cons first rest ih =>
    cases rest with
    | nil =>
      rw [List.mem_singleton] at h
      rwa [List.intercalate_singleton, ← h]
    | cons second rest =>
      rw [List.intercalate_cons_cons, List.mem_append, List.mem_append]
      rcases List.mem_cons.mp h with rfl | later
      · exact .inl (.inl inside)
      · exact .inr (ih later)

theorem token_plain {subject : Subject} {token : Str} (h : token ∈ subject.tokens) :
    token ≠ ['*'] ∧ token ≠ ['>'] := by
  have inside : ∀ c ∈ token, c ∈ subject.raw := by
    intro c member
    rw [← @List.intercalate_splitOn _ subject.raw _ _ '.', ← subject.split]
    exact mem_intercalate h member
  constructor
  · rintro rfl
    exact subject.plain.1 (inside _ (List.mem_singleton_self _))
  · rintro rfl
    exact subject.plain.2 (inside _ (List.mem_singleton_self _))

theorem trieTarget_multi (rest : List PatternToken)
    (h : .multiWildcard ∉ (.multiWildcard :: rest).dropLast) :
    trieTarget (.multiWildcard :: rest) = ⟨true, []⟩ := by
  cases rest with
  | nil => rfl
  | cons next rest => simp at h

theorem trieTarget_cons {token : PatternToken} (rest : List PatternToken)
    (h : token ≠ .multiWildcard) :
    trieTarget (token :: rest) = (trieTarget rest).under (tokenText token) := by
  have same : hasMulti (token :: rest) = hasMulti rest := by
    simp [hasMulti, h]
  rw [trieTarget, List.map_cons, same]
  refine target_cons _ ?_
  cases rest with
  | nil => simp [hasMulti]
  | cons next rest => simp

theorem mem_visited_under {token text : Str} {slot : TrieSlot} {rest : List Str} :
    slot.under text ∈ visited (token :: rest) ↔
      (text = token ∨ text = ['*']) ∧ slot ∈ visited rest := by
  have nil : slot.under text ≠ ⟨true, []⟩ := by simp [TrieSlot.under]
  have mapped : ∀ token', slot.under text ∈ (visited rest).map (TrieSlot.under token') ↔
      text = token' ∧ slot ∈ visited rest := by
    intro token'
    simp only [List.mem_map, TrieSlot.under_inj]
    constructor
    · rintro ⟨other, member, rfl, rfl⟩
      exact ⟨rfl, member⟩
    · rintro ⟨rfl, member⟩
      exact ⟨slot, member, rfl, rfl⟩
  rw [visited, List.mem_cons, List.mem_append, mapped]
  split_ifs with star
  · rw [mapped]
    tauto
  · simp only [ne_eq, not_not] at star
    simp [nil, star]

/-- The trie visits the slot of a token list exactly when the linear matcher
accepts the subject; literals never collide with the key of `*`. -/
theorem mem_visited_iff (pattern : List PatternToken) (subject : List Str)
    (last : .multiWildcard ∉ pattern.dropLast)
    (literals : ∀ text, .literal text ∈ pattern → text ≠ ['*'])
    (plain : ∀ token ∈ subject, token ≠ ['*']) :
    trieTarget pattern ∈ visited subject ↔ matchTokens pattern subject = true := by
  induction pattern generalizing subject with
  | nil =>
    cases subject with
    | nil => simp [trieTarget, target, visited, hasMulti, matchTokens]
    | cons token rest =>
      simp [trieTarget, target, visited, hasMulti, matchTokens, TrieSlot.under]
  | cons first pattern ih =>
    by_cases multi : first = .multiWildcard
    · subst multi
      rw [trieTarget_multi pattern last]
      cases subject with
      | nil => simp [visited, matchTokens]
      | cons token rest => simp [visited, matchTokens]
    · rw [trieTarget_cons pattern multi]
      cases subject with
      | nil => cases first <;> simp [visited, matchTokens, TrieSlot.under]
      | cons token rest =>
        have tail : .multiWildcard ∉ pattern.dropLast := by
          cases pattern with
          | nil => simp
          | cons second pattern =>
            rw [List.dropLast_cons_cons] at last
            exact fun member => last (List.mem_cons_of_mem _ member)
        have step := ih rest tail (fun text member => literals text (List.mem_cons_of_mem _ member))
          (fun token member => plain token (List.mem_cons_of_mem _ member))
        rw [mem_visited_under, step]
        cases first with
        | literal text =>
          have other := literals text (List.mem_cons_self ..)
          by_cases same : token = text
          · simp [tokenText, matchTokens, same]
          · simp [tokenText, matchTokens, same, other, Ne.symm same]
        | singleWildcard => simp [tokenText, matchTokens]
        | multiWildcard => exact absurd rfl multi

theorem matchTokens_literal (pattern subject : List Str) :
    matchTokens (pattern.map .literal) subject = true ↔ pattern = subject := by
  induction pattern generalizing subject with
  | nil => cases subject <;> simp [matchTokens]
  | cons text pattern ih =>
    cases subject with
    | nil => simp [matchTokens]
    | cons token rest =>
      rw [List.map_cons, matchTokens]
      split_ifs with other
      · simp [Ne.symm other]
      · rw [ih, List.cons.injEq]
        simp only [ne_eq, not_not] at other
        simp [other]

theorem tokens_literal {pattern : SubjectPattern} (h : hasWildcard pattern = false) :
    pattern.tokens = (pattern.raw.splitOn '.').map .literal := by
  rw [← texts_eq_split, List.map_map]
  refine (List.map_id' _).symm.trans (List.map_congr_left ?_)
  intro token member
  have plain : isWildcard token = false := by
    simpa using List.any_eq_false.mp h token member
  cases token with
  | literal text => rfl
  | singleWildcard => simp [isWildcard] at plain
  | multiWildcard => simp [isWildcard] at plain

theorem slotOf_mem_slotsFor (pattern : SubjectPattern) (subject : Subject) :
    slotOf pattern ∈ slotsFor subject ↔ pattern.matches subject = true := by
  rw [slotsFor, SubjectPattern.matches]
  cases wild : hasWildcard pattern with
  | false =>
    rw [slotOf, wild, tokens_literal wild, matchTokens_literal, subject.split]
    simp only [Bool.false_eq_true, if_false, List.mem_cons, Slot.exact.injEq, List.mem_map,
      reduceCtorEq, and_false, exists_false, or_false]
    exact ⟨fun same => same ▸ rfl, splitOn_dot_injective⟩
  | true =>
    rw [slotOf, wild, ← mem_visited_iff pattern.tokens subject.tokens pattern.multiLast
      (fun _ member => literal_classified member) (fun _ member => (token_plain member).1)]
    simp

theorem slotsFor_nodup (subject : Subject) : (slotsFor subject).Nodup := by
  rw [slotsFor, List.nodup_cons]
  constructor
  · simp
  · exact (visited_nodup _).map fun _ _ same => Slot.trie.inj same

theorem tokens_of_hasMulti {tokens : List PatternToken} (h : hasMulti tokens = true)
    (last : .multiWildcard ∉ tokens.dropLast) :
    tokens.map tokenText = (tokens.map tokenText).dropLast ++ [['>']] := by
  have member : PatternToken.multiWildcard ∈ tokens := by simpa [hasMulti] using h
  have nonempty : tokens ≠ [] := List.ne_nil_of_mem member
  have final : tokens.getLast nonempty = .multiWildcard := by
    rw [← List.dropLast_append_getLast nonempty, List.mem_append, List.mem_singleton] at member
    exact (member.resolve_left last).symm
  rw [← List.map_dropLast]
  conv_lhs => rw [← List.dropLast_append_getLast nonempty, final]
  simp [tokenText]

theorem trieTarget_eq (tokens : List PatternToken) :
    trieTarget tokens = if hasMulti tokens then ⟨true, (tokens.map tokenText).dropLast⟩
      else ⟨false, tokens.map tokenText⟩ := by
  cases tokens with
  | nil => rfl
  | cons token rest => simp [trieTarget, target]

/-- A slot belongs to one pattern. -/
theorem slotOf_injective {p q : SubjectPattern} (h : slotOf p = slotOf q) : p = q := by
  refine SubjectPattern.ext_raw ?_
  unfold slotOf at h
  split_ifs at h with wildP wildQ wildQ
  · refine splitOn_dot_injective ?_
    rw [← texts_eq_split, ← texts_eq_split]
    have same := Slot.trie.inj h
    rw [trieTarget_eq, trieTarget_eq] at same
    split_ifs at same with multiP multiQ multiQ
    · rw [tokens_of_hasMulti multiP p.multiLast, tokens_of_hasMulti multiQ q.multiLast,
        (TrieSlot.mk.inj same).2]
    · cases (TrieSlot.mk.inj same).1
    · cases (TrieSlot.mk.inj same).1
    · exact (TrieSlot.mk.inj same).2
  · exact Slot.exact.inj h

end ZetMQ.Routing
