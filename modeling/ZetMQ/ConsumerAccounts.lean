import ZetMQ.StreamStore
import ZetMQ.StreamIndex

/-! Accounts of consumers, kept from the calls and their outcomes alone: where a
consumer starts, what it was handed and what of that was acknowledged. A delivery
and an acknowledgement keep a consumer in agreement with its account. -/
namespace ZetMQ.ConsumerAccounts
open Utf8Text KeyedTable MachineArith BoundedLog Streams Stream StreamIndex StreamStore

def Kept (stream : Stream) : Prop :=
  ∃ calls kept, kept <:+ history calls ∧
    stream = holding stream.name stream.config calls.length kept

theorem kept_new (name : Str) (config : StreamConfig) : Kept (new name config) :=
  ⟨[], [], List.suffix_refl [], rfl⟩

theorem Kept.store {stream : Stream} (before : Kept stream) (call : StoreCall) :
    Kept (Id.run (Stream.store wrapping stream call)).2 := by
  obtain ⟨calls, kept, suffix, held⟩ := before
  rw [held, store_wrapping call (kept_length suffix)]
  refine ⟨calls ++ [call], _, ?_, by rw [List.length_append, List.length_singleton]; rfl⟩
  rw [history, historyFrom_concat, Nat.zero_add]
  exact retained_concat_suffix suffix

variable {s : ℕ} {store : MemoryStore}

theorem Kept.read {stream : Stream} (holds : Kept stream) {message : StoredMessage}
    (found : stream.read s = some message) : message.sequence = s := by
  obtain ⟨calls, kept, suffix, held⟩ := holds
  rw [held, read_holding suffix] at found
  split at found
  · have sequence := (kept_numbered suffix).getElem? found
    omega
  · cases found

def AllKept (store : MemoryStore) : Prop :=
  ∀ name stream, store.streams.lookup name = some stream → Kept stream

theorem AllKept.insert {store : MemoryStore} (all : AllKept store) {stream : Stream}
    (kept : Kept stream) (name : Str) : AllKept ⟨store.streams.insert name stream⟩ := by
  intro other held found
  rw [lookup_insert_eq_some] at found
  obtain ⟨-, rfl⟩ | ⟨-, old⟩ := found
  · exact kept
  · exact all other held old

section
variable (all : AllKept store)
include all

theorem AllKept.createStream (name : Str) (config : StreamConfig) :
    AllKept (store.createStream name config).2 := by
  unfold MemoryStore.createStream
  split
  · exact all
  · exact all.insert (kept_new name config) name

theorem AllKept.deleteStream (name : Str) : AllKept (store.deleteStream name) := by
  intro other stream found
  rw [MemoryStore.deleteStream, lookup_erase_eq_some] at found
  exact all other stream found.2

theorem AllKept.storeMessage (name : Str) (call : StoreCall) :
    AllKept (store.storeMessage name call).2 := by
  refine all.insert (Kept.store ?_ call) name
  cases found : store.streams.lookup name with
  | none => exact kept_new name .default
  | some stream => exact all name stream found

theorem AllKept.readMessage {name : Str} {message : StoredMessage}
    (found : store.readMessage name s = .ok message) : message.sequence = s := by
  unfold MemoryStore.readMessage at found
  split at found
  · cases found
  · rename_i stream present
    split at found
    · rename_i held
      cases found
      exact (all name stream present).read held
    · cases found

end

/-- What one consumer was handed and acknowledged, by sequence number. -/
structure Account where
  config : ConsumerConfig
  start : ℕ
  delivered : List ℕ
  acked : List ℕ

namespace Account

def opened (config : ConsumerConfig) (info : StreamInfo) : Account :=
  ⟨config, config.deliverPolicy.startSeq info.state.lastSeq, [], []⟩

def Pending (account : Account) (s : ℕ) : Prop := s ∈ account.delivered ∧ s ∉ account.acked

instance (account : Account) (s : ℕ) : Decidable (account.Pending s) :=
  inferInstanceAs (Decidable (_ ∧ _))

def deliver (account : Account) (s : ℕ) : Account :=
  { account with delivered := account.delivered ++ [s] }

def acknowledge (account : Account) (s : ℕ) : Account :=
  if account.Pending s then { account with acked := account.acked ++ [s] } else account

end Account

def observe (key : Str) (account : Option Account) : StoreEvent × Outcome → Option Account
  | (_, .registered config info (.ok ())) =>
    if consumerKey config.stream config.durableName = key then some (.opened config info)
    else account
  | (.deleteConsumer stream name, _) => if consumerKey stream name = key then none else account
  | (.nextForConsumer stream name _, .next (.ok (some message))) =>
    if consumerKey stream name = key then account.map (·.deliver message.sequence) else account
  | (.ack stream name s, _) =>
    if consumerKey stream name = key then account.map (·.acknowledge s) else account
  | _ => account

def accountOf (key : Str) (trace : List (StoreEvent × Outcome)) : Option Account :=
  trace.foldl (observe key) none

/-- A consumer in agreement with its account. -/
structure Settled (consumer : Consumer) (account : Account) : Prop where
  config : account.config = consumer.config
  consecutive : account.delivered = List.range' account.start account.delivered.length
  nextSequence : consumer.state.nextSequence = account.start + account.delivered.length
  pending : ∀ s, s ∈ consumer.state.pendingAcks ↔ account.Pending s
  handed : ∀ s ∈ account.acked, s ∈ account.delivered
  pendingCount : consumer.state.pendingAckCount = size consumer.state.pendingAcks
  deliveredCount : consumer.state.deliveredCount = account.delivered.length
  ackedCount : consumer.state.ackedCount = account.acked.length
  total : consumer.state.deliveredCount =
    consumer.state.ackedCount + consumer.state.pendingAckCount
  bounded : 0 < consumer.config.maxAckPending →
    consumer.state.pendingAckCount ≤ consumer.config.maxAckPending

namespace Settled
variable {consumer : Consumer} {account : Account}

theorem new (config : ConsumerConfig) (info : StreamInfo) :
    Settled (Consumer.new config info.state.lastSeq) (Account.opened config info) := by
  constructor
  case pending =>
    intro s
    simp [Consumer.new, Account.opened, Account.Pending]
  case handed => exact fun s acked => acked
  case bounded => exact fun _ => Nat.zero_le _
  all_goals rfl

section
variable (settled : Settled consumer account)
include settled

theorem delivered_lt (handed : s ∈ account.delivered) : s < consumer.state.nextSequence := by
  rw [settled.consecutive, List.mem_range'_1] at handed
  rw [settled.nextSequence]
  exact handed.2

theorem next_not_pending :
    consumer.state.pendingAcks.lookup consumer.state.nextSequence = none := by
  rw [AList.lookup_eq_none]
  intro pending
  exact lt_irrefl _ (settled.delivered_lt ((settled.pending _).mp pending).1)

theorem deliver (free : consumer.isBackpressured = false) (now : ℕ) :
    Settled (consumer.recordDelivery consumer.state.nextSequence now)
      (account.deliver consumer.state.nextSequence) := by
  have fresh := settled.next_not_pending
  constructor
  case config => exact settled.config
  case consecutive =>
    simp only [Account.deliver, List.length_append, List.length_singleton]
    rw [List.range'_concat, Nat.one_mul, ← settled.consecutive, ← settled.nextSequence]
  case nextSequence =>
    simp only [Account.deliver, Consumer.recordDelivery, List.length_append, List.length_singleton,
      settled.nextSequence, Nat.add_assoc]
  case pending =>
    intro s
    have notAcked : consumer.state.nextSequence ∉ account.acked := fun acked =>
      lt_irrefl _ (settled.delivered_lt (settled.handed _ acked))
    simp only [Consumer.recordDelivery, AList.mem_insert, settled.pending, Account.Pending,
      Account.deliver, List.mem_append, List.mem_singleton]
    constructor
    · rintro (rfl | ⟨handed, unacked⟩)
      · exact ⟨.inr rfl, notAcked⟩
      · exact ⟨.inl handed, unacked⟩
    · rintro ⟨handed | rfl, unacked⟩
      · exact .inr ⟨handed, unacked⟩
      · exact .inl rfl
  case handed => exact fun s acked => List.mem_append_left _ (settled.handed s acked)
  case pendingCount =>
    simp only [Consumer.recordDelivery, size_insert_new fresh, settled.pendingCount]
  case deliveredCount =>
    simp only [Consumer.recordDelivery, Account.deliver, List.length_append, List.length_singleton,
      settled.deliveredCount]
  case ackedCount => exact settled.ackedCount
  case total =>
    simp only [Consumer.recordDelivery, settled.total, Nat.add_assoc]
  case bounded =>
    intro limited
    simp only [Consumer.isBackpressured, Bool.and_eq_false_imp, decide_eq_true_eq,
      decide_eq_false_iff_not, not_le] at free
    exact free limited

theorem ack_fst (s : ℕ) : (consumer.ack s).1 = true ↔ account.Pending s := by
  rw [← settled.pending, ← AList.lookup_isSome, Consumer.ack]
  cases consumer.state.pendingAcks.lookup s with
  | none => simp
  | some now => simp

theorem acknowledge (s : ℕ) : Settled (consumer.ack s).2 (account.acknowledge s) := by
  cases found : consumer.state.pendingAcks.lookup s with
  | none =>
    have unchanged : (consumer.ack s).2 = consumer := by simp only [Consumer.ack, found]
    have absent : ¬ account.Pending s := by
      rw [← settled.pending]
      exact AList.lookup_eq_none.mp found
    rw [unchanged, Account.acknowledge, if_neg absent]
    exact settled
  | some now =>
    have pending : account.Pending s := by
      rw [← settled.pending, ← AList.lookup_isSome, found]
      rfl
    have smaller := size_erase found
    rw [Consumer.ack, found, Account.acknowledge, if_pos pending]
    constructor
    case config => exact settled.config
    case consecutive => exact settled.consecutive
    case nextSequence => exact settled.nextSequence
    case pending =>
      intro other
      simp only [AList.mem_erase, settled.pending, Account.Pending, List.mem_append,
        List.mem_singleton, not_or]
      tauto
    case handed =>
      intro other acked
      cases List.mem_append.mp acked with
      | inl earlier => exact settled.handed other earlier
      | inr last =>
        rw [List.mem_singleton.mp last]
        exact pending.1
    case pendingCount => rfl
    case deliveredCount => exact settled.deliveredCount
    case ackedCount =>
      simp only [List.length_append, List.length_singleton, settled.ackedCount]
    case total =>
      have total := settled.total
      have count := settled.pendingCount
      simp only
      omega
    case bounded =>
      intro limited
      have bounded := settled.bounded limited
      have count := settled.pendingCount
      simp only
      omega

end

end Settled

end ZetMQ.ConsumerAccounts
