import ZetMQ.StoreCalls
import ZetMQ.SubjectGrammar

/-! What consumers make of their configuration. Neither the subject filter nor the
acknowledgement policy is looked at, so a consumer honours its configuration in every
run only if it asks for nothing that the code would have to do. -/
namespace ZetMQ.ConsumerPolicies
open Utf8Text KeyedTable MachineArith BoundedLog Streams Stream StreamIndex StreamStore
open ConsumerAccounts ConsumerRuns StoreCalls SubjectGrammar

def inRun : ManagerOp → Bool
  | .storeMessage _ _ => true
  | .nextForConsumer _ _ _ => true
  | .ack _ _ _ => true
  | _ => false

def Selects (filter subject : Str) : Prop :=
  ∃ pattern parsed, SubjectPattern.parse filter = .ok pattern ∧ Subject.parse subject = .ok parsed ∧
    pattern.matches parsed = true

def keyFor (config : ConsumerConfig) : Str := consumerKey config.stream config.durableName

structure Honoured (config : ConsumerConfig) (manager : ConsumerManager) (op : ManagerOp) :
    Prop where
  filter : ∀ now message text, op = .nextForConsumer config.stream config.durableName now →
    (call manager op).1 = .next (.ok (some message)) → config.filterSubject = some text →
    Selects text message.subject
  ackAll : config.ackPolicy = .all → ∀ n consumer,
    op = .ack config.stream config.durableName n → (call manager op).1 = .acked true →
    (call manager op).2.consumers.lookup (keyFor config) = some consumer →
    ∀ m ≤ n, m ∉ consumer.state.pendingAcks
  ackNone : config.ackPolicy = .none → ∀ consumer,
    (call manager op).2.consumers.lookup (keyFor config) = some consumer →
    consumer.isBackpressured = false

/-- The consumer honours its configuration in every run behind its creation. -/
def Honours (config : ConsumerConfig) : Prop :=
  ∀ before ops op, ((run .new before).createConsumer config).1 = .ok () →
    (∀ earlier ∈ ops, inRun earlier = true) → inRun op = true →
    Honoured config (run .new (before ++ .createConsumer config :: ops)) op

/-- The consumer starts where no message is, or has no filter and no policy that differs
from single acknowledgements under its limit. -/
def AsksNothing (config : ConsumerConfig) : Prop :=
  config.deliverPolicy = .byStartSequence 0 ∨
    config.filterSubject = none ∧ (config.ackPolicy = .all → config.maxAckPending = 1) ∧
      (config.ackPolicy = .none → config.maxAckPending = 0)

variable {name stream : Str} {message : StoredMessage} {consumer : Consumer}
  {manager : ConsumerManager}

theorem readMessage_pos {store : MemoryStore} (kept : AllKept store) {s : ℕ}
    (found : store.readMessage name s = .ok message) : 0 < s := by
  rw [MemoryStore.readMessage] at found
  cases present : store.streams.lookup name with
  | none =>
    rw [present] at found
    cases found
  | some stream =>
    rw [present] at found
    obtain ⟨calls, messages, suffix, held⟩ := kept name stream present
    have shorter := kept_length suffix
    by_contra zero
    dsimp only at found
    rw [held, read_holding suffix, if_neg (by omega)] at found
    cases found

structure Lasting (config : ConsumerConfig) (P : Consumer → Prop) : Prop where
  start : ∀ lastSeq, P (Consumer.new config lastSeq)
  deliver : ∀ consumer now, 0 < consumer.state.nextSequence → P consumer →
    P (consumer.recordDelivery consumer.state.nextSequence now)
  ack : ∀ consumer n, P consumer → P (consumer.ack n).2

section
variable {config : ConsumerConfig} {P : Consumer → Prop}

theorem Lasting.answer (lasting : Lasting config P) {store : MemoryStore} (kept : AllKept store)
    (holds : P consumer) {op : ManagerOp} (running : inRun op = true) :
    ∃ later, (answer store (some consumer) op).2 = some later ∧ P later := by
  cases op with
  | storeMessage name call => exact ⟨consumer, rfl, holds⟩
  | ack stream name n => exact ⟨_, rfl, lasting.ack consumer n holds⟩
  | nextForConsumer stream name now =>
    simp only [StoreCalls.answer]
    by_cases full : consumer.isBackpressured = true
    · rw [if_pos full]
      exact ⟨consumer, rfl, holds⟩
    · rw [if_neg full]
      cases read : store.readMessage stream consumer.state.nextSequence with
      | error e => exact ⟨consumer, rfl, holds⟩
      | ok message => exact ⟨_, rfl, lasting.deliver consumer now (readMessage_pos kept read) holds⟩
  | _ => cases running

theorem Lasting.step (lasting : Lasting config P) (kept : AllKept manager.store) {key : Str}
    (found : manager.consumers.lookup key = some consumer) (holds : P consumer) {op : ManagerOp}
    (running : inRun op = true) :
    ∃ later, (call manager op).2.consumers.lookup key = some later ∧ P later := by
  cases about : op.pair with
  | none =>
    rw [(call_stream manager about).2]
    exact ⟨consumer, found, holds⟩
  | some pair =>
    have answered := call_answered manager about
    by_cases own : key = keyOf pair
    · rw [own, answered.entry, ← own, found]
      exact lasting.answer kept holds running
    · rw [answered.others key own]
      exact ⟨consumer, found, holds⟩

theorem run_next (before ops : List ManagerOp) (op : ManagerOp) :
    (call (run .new (before ++ .createConsumer config :: ops)) op).2 =
      run .new (before ++ .createConsumer config :: (ops ++ [op])) := by
  rw [← List.cons_append, ← List.append_assoc, run_concat]

theorem Lasting.run (lasting : Lasting config P) {before ops : List ManagerOp}
    (created : ((run .new before).createConsumer config).1 = .ok ())
    (running : ∀ op ∈ ops, inRun op = true) :
    ∃ consumer, (run .new (before ++ .createConsumer config :: ops)).consumers.lookup
      (keyFor config) = some consumer ∧ P consumer := by
  induction ops using List.reverseRecOn with
  | nil =>
    obtain ⟨info, -, -, after⟩ := createConsumer_ok created
    refine ⟨Consumer.new config info.state.lastSeq, ?_, lasting.start _⟩
    rw [run_concat]
    change (StreamStore.ConsumerManager.createConsumer _ config).2.consumers.lookup _ = _
    rw [after, keyFor, AList.lookup_insert]
  | append_singleton ops op ih =>
    obtain ⟨consumer, found, holds⟩ :=
      ih fun earlier member => running earlier (List.mem_append_left _ member)
    obtain ⟨trace, accounted⟩ := accounted_run (before ++ .createConsumer config :: ops)
    rw [← run_next]
    exact lasting.step accounted.store found holds
      (running op (List.mem_append_right _ (List.mem_singleton.mpr rfl)))

theorem lasting_config (config : ConsumerConfig) : Lasting config (·.config = config) where
  start _ := rfl
  deliver _ _ _ same := same
  ack consumer n same := (ack_config consumer n).trans same

structure Idle (consumer : Consumer) : Prop where
  next : consumer.state.nextSequence = 0
  count : consumer.state.pendingAckCount = 0
  pending : ∀ n, consumer.state.pendingAcks.lookup n = none

theorem Idle.ack_eq (idle : Idle consumer) (n : ℕ) : consumer.ack n = (false, consumer) := by
  rw [Consumer.ack, idle.pending n]

theorem lasting_idle (zero : config.deliverPolicy = .byStartSequence 0) : Lasting config Idle where
  start lastSeq := ⟨by rw [Consumer.new, zero]; rfl, rfl, fun _ => rfl⟩
  deliver consumer now positive idle := by
    rw [idle.next] at positive
    exact absurd positive (Nat.lt_irrefl 0)
  ack consumer n idle := by
    rw [idle.ack_eq]
    exact idle

theorem not_backpressured (consumer : Consumer) : consumer.isBackpressured = false ↔
    (0 < consumer.config.maxAckPending →
      consumer.state.pendingAckCount < consumer.config.maxAckPending) := by
  simp only [Consumer.isBackpressured, Bool.and_eq_false_imp, decide_eq_true_eq,
    decide_eq_false_iff_not, not_le]

theorem ack_single {n : ℕ} (acked : (consumer.ack n).1 = true)
    (single : size consumer.state.pendingAcks ≤ 1) (m : ℕ) :
    m ∉ (consumer.ack n).2.state.pendingAcks := by
  intro pending
  rw [Consumer.ack] at acked pending
  cases found : consumer.state.pendingAcks.lookup n with
  | none =>
    rw [found] at acked
    cases acked
  | some now =>
    rw [found] at pending
    have smaller := size_erase found
    have some_left : 0 < size (consumer.state.pendingAcks.erase n) := List.length_pos_of_mem pending
    omega

section
variable (found : manager.consumers.lookup (consumerKey stream name) = some consumer)
include found

theorem call_ack (n : ℕ) :
    call manager (.ack stream name n) = (.acked (consumer.ack n).1, { manager with
      consumers := manager.consumers.insert (consumerKey stream name) (consumer.ack n).2 }) := by
  simp only [call, ConsumerManager.ack, found]

theorem call_next (free : consumer.isBackpressured = false)
    (read : manager.store.readMessage stream consumer.state.nextSequence = .ok message) (now : ℕ) :
    call manager (.nextForConsumer stream name now) = (.next (.ok (some message)), { manager with
      consumers := manager.consumers.insert (consumerKey stream name)
        (consumer.recordDelivery consumer.state.nextSequence now) }) := by
  simp only [call, ConsumerManager.nextForConsumer, found, free, read, Bool.false_eq_true, if_false]

theorem next_read {now : ℕ}
    (handed : (call manager (.nextForConsumer stream name now)).1 = .next (.ok (some message))) :
    manager.store.readMessage stream consumer.state.nextSequence = .ok message := by
  rcases Accounted.nextForConsumer_cases manager stream name now with
    ⟨result, noMessage, same⟩ | ⟨other, sent, found', -, read, same⟩
  · simp only [call, same, CallResult.next.injEq] at handed
    exact absurd handed (noMessage message)
  · simp only [call, same, CallResult.next.injEq, Except.ok.injEq, Option.some.injEq] at handed
    obtain rfl := Option.some.inj (found.symm.trans found')
    rw [← handed, read]

end

section
variable {before ops : List ManagerOp} {op : ManagerOp}
  (created : ((StoreCalls.run .new before).createConsumer config).1 = .ok ())
  (running : ∀ op ∈ ops, inRun op = true) (last : inRun op = true)
include created running last

theorem Lasting.after (lasting : Lasting config P)
    (found : (call (StoreCalls.run .new (before ++ .createConsumer config :: ops))
      op).2.consumers.lookup (keyFor config) = some consumer) : P consumer := by
  have all : ∀ earlier ∈ ops ++ [op], inRun earlier = true := by
    intro earlier member
    rcases List.mem_append.mp member with old | new
    · exact running earlier old
    · exact List.mem_singleton.mp new ▸ last
  rw [run_next] at found
  obtain ⟨other, found', holds⟩ := lasting.run created all
  rwa [Option.some.inj (found.symm.trans found')]

theorem honoured_of_zero (zero : config.deliverPolicy = .byStartSequence 0) :
    Honoured config (StoreCalls.run .new (before ++ .createConsumer config :: ops)) op := by
  obtain ⟨consumer, found, idle⟩ := (lasting_idle zero).run created running
  obtain ⟨trace, accounted⟩ := accounted_run (before ++ .createConsumer config :: ops)
  refine ⟨?_, ?_, ?_⟩
  · rintro now message text rfl handed -
    have positive := readMessage_pos accounted.store (next_read found handed)
    rw [idle.next] at positive
    exact absurd positive (Nat.lt_irrefl 0)
  · rintro - n later rfl acked
    rw [call_ack found, idle.ack_eq] at acked
    cases acked
  · intro _ later foundLater
    have idleLater := (lasting_idle zero).after created running last foundLater
    rw [not_backpressured, idleLater.count]
    exact id

theorem honoured_of_plain (noFilter : config.filterSubject = none)
    (all : config.ackPolicy = .all → config.maxAckPending = 1)
    (none : config.ackPolicy = .none → config.maxAckPending = 0) :
    Honoured config (StoreCalls.run .new (before ++ .createConsumer config :: ops)) op := by
  obtain ⟨consumer, found, same⟩ := (lasting_config config).run created running
  obtain ⟨trace, accounted⟩ := accounted_run (before ++ .createConsumer config :: ops)
  obtain ⟨account, -, settled⟩ := accounted.account found
  refine ⟨?_, ?_, ?_⟩
  · intro now message text _ _ filter
    rw [noFilter] at filter
    cases filter
  · rintro policy n later rfl acked foundLater m - pending
    have limit : consumer.config.maxAckPending = 1 := by rw [same, all policy]
    have bounded := settled.bounded (by omega)
    rw [settled.pendingCount, limit] at bounded
    rw [call_ack found] at acked foundLater
    dsimp only at foundLater
    rw [keyFor, AList.lookup_insert] at foundLater
    obtain rfl := Option.some.inj foundLater
    exact ack_single (CallResult.acked.inj acked) bounded m pending
  · intro policy later foundLater
    have sameLater := (lasting_config config).after created running last foundLater
    rw [not_backpressured, sameLater, none policy]
    exact fun no => absurd no (Nat.lt_irrefl 0)

end

end

end ZetMQ.ConsumerPolicies
