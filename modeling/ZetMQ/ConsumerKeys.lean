import ZetMQ.Noninterference
import ZetMQ.StoreCalls

/-! Independence of consumers. All consumers share one map under the text of stream and
name with a colon between, so two consumers are independent exactly if these texts
differ; without colons in the names of streams they do. -/
namespace ZetMQ.ConsumerKeys
open Utf8Text KeyedTable Streams StreamStore StoreCalls Noninterference

def onPair (pair : Str × Str) (op : ManagerOp) : Bool := op.pair = some pair

def Independent (p q : Str × Str) : Prop :=
  ∀ ops, observe call (onPair q) .new ops = observe call (onPair q) .new (purge (onPair p) ops)

structure Alike (p : Str × Str) (s t : ConsumerManager) : Prop where
  store : s.store = t.store
  entries : ∀ key, key ≠ keyOf p → s.consumers.lookup key = t.consumers.lookup key

section
variable {p q : Str × Str} {s t : ConsumerManager}

theorem Alike.hides (alike : Alike p s t) {op : ManagerOp} (about : op.pair = some p) :
    Alike p (call s op).2 t := by
  have answered := call_answered s about
  refine ⟨answered.store.trans alike.store, fun key other => ?_⟩
  rw [answered.others key other, alike.entries key other]

theorem Alike.keeps (alike : Alike p s t) (op : ManagerOp) :
    Alike p (call s op).2 (call t op).2 := by
  cases about : op.pair with
  | none =>
    obtain ⟨left, leftEntries⟩ := call_stream s about
    obtain ⟨right, rightEntries⟩ := call_stream t about
    refine ⟨by rw [left, right, alike.store], fun key other => ?_⟩
    rw [leftEntries, rightEntries, alike.entries key other]
  | some r =>
    have left := call_answered s about
    have right := call_answered t about
    refine ⟨by rw [left.store, right.store, alike.store], fun key other => ?_⟩
    by_cases own : key = keyOf r
    · rw [own, left.entry, right.entry, alike.store, alike.entries _ (own ▸ other)]
    · rw [left.others key own, right.others key own, alike.entries key other]

theorem Alike.agrees (alike : Alike p s t) (apart : keyOf p ≠ keyOf q) {op : ManagerOp}
    (about : op.pair = some q) : (call s op).1 = (call t op).1 := by
  rw [(call_answered s about).result, (call_answered t about).result, alike.store,
    alike.entries _ apart.symm]

end

theorem unwinds {p q : Str × Str} (apart : keyOf p ≠ keyOf q) :
    Unwinds call (onPair q) (onPair p) (Alike p) where
  disjoint op seen := by
    have about := of_decide_eq_true seen
    refine decide_eq_false fun same => apart ?_
    rw [Option.some.inj (same.symm.trans about)]
  hides s t op alike covert := alike.hides (of_decide_eq_true covert)
  keeps s t op alike _ := alike.keeps op
  agrees s t op alike seen := alike.agrees apart (of_decide_eq_true seen)

theorem independent_of_keys {p q : Str × Str} (apart : keyOf p ≠ keyOf q) : Independent p q :=
  fun ops => observe_purge (unwinds apart) ⟨rfl, fun _ _ => rfl⟩ ops

def deletedByAnother (p q : Str × Str) : List ManagerOp :=
  [.createStream q.1 .default, .createConsumer ⟨q.2, q.1, none, .all, .explicit, 0⟩,
    .deleteConsumer p.1 p.2, .getConsumer q.1 q.2]

theorem shared_key_interferes {p q : Str × Str} (shared : keyOf p = keyOf q) :
    ¬Independent p q := by
  intro independent
  have same := independent (deletedByAnother p q)
  by_cases equal : p = q
  · subst equal
    simp [deletedByAnother, observe, purge, onPair, ManagerOp.pair] at same
  · have other : ¬q = p := fun back => equal back.symm
    have key : consumerKey p.1 p.2 = consumerKey q.1 q.2 := shared
    -- the first two calls run alike; then the entry of `q` is gone or still there
    simp only [deletedByAnother, observe, purge, onPair, ManagerOp.pair, List.filter_cons,
      List.filter_nil, Option.some.injEq, Prod.mk.eta, equal, other, decide_true, decide_false,
      Bool.not_true, Bool.not_false, if_true, if_false, reduceCtorEq, Bool.false_eq_true, call,
      ConsumerManager.new, MemoryStore.new, MemoryStore.createStream, MemoryStore.streamInfo,
      ConsumerManager.createConsumer, ConsumerManager.register, ConsumerManager.deleteConsumer,
      ConsumerManager.getConsumer, key, AList.lookup_empty, AList.lookup_insert,
      AList.lookup_erase] at same
    simp at same

/-- Consumers are independent exactly if their texts in the map differ. -/
theorem independent_iff (p q : Str × Str) : Independent p q ↔ keyOf p ≠ keyOf q :=
  ⟨fun independent shared => shared_key_interferes shared independent, independent_of_keys⟩

/-- A colon in the name of a stream and one in the name of a consumer. -/
theorem colon_interferes :
    (("a:b".toList, "c".toList) : Str × Str) ≠ ("a".toList, "b:c".toList) ∧
      ¬Independent ("a:b".toList, "c".toList) ("a".toList, "b:c".toList) :=
  ⟨by decide, shared_key_interferes (by decide)⟩

theorem colon_cut_unique {a b c d : Str} (plainLeft : ':' ∉ a) (plainRight : ':' ∉ c)
    (same : a ++ ':' :: b = c ++ ':' :: d) : a = c ∧ b = d := by
  induction a generalizing c with
  | nil =>
    cases c with
    | nil => exact ⟨rfl, (List.cons.inj same).2⟩
    | cons first c =>
      rw [← (List.cons.inj same).1] at plainRight
      exact absurd (List.mem_cons_self ..) plainRight
  | cons first a ih =>
    cases c with
    | nil =>
      rw [(List.cons.inj same).1] at plainLeft
      exact absurd (List.mem_cons_self ..) plainLeft
    | cons second c =>
      obtain ⟨rfl, tails⟩ := List.cons.inj same
      obtain ⟨rfl, rest⟩ := ih (fun later => plainLeft (List.mem_cons_of_mem _ later))
        (fun later => plainRight (List.mem_cons_of_mem _ later)) tails
      exact ⟨rfl, rest⟩

theorem keyOf_injective {p q : Str × Str} (plainLeft : ':' ∉ p.1) (plainRight : ':' ∉ q.1)
    (shared : keyOf p = keyOf q) : p = q := by
  simp only [keyOf, consumerKey, List.append_assoc] at shared
  obtain ⟨stream, name⟩ := colon_cut_unique plainLeft plainRight shared
  exact Prod.ext stream name

theorem independent_of_plain {p q : Str × Str} (plainLeft : ':' ∉ p.1) (plainRight : ':' ∉ q.1)
    (different : p ≠ q) : Independent p q :=
  independent_of_keys fun shared => different (keyOf_injective plainLeft plainRight shared)

end ZetMQ.ConsumerKeys
