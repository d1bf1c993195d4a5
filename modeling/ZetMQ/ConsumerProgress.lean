import ZetMQ.ConsumerRuns

/-! Progress of a consumer. Retention moves the first sequence of a stream without
looking at the consumers, and a sequence that was evicted reads as no message. A
consumer gets on exactly while its next sequence has not been overtaken. -/
namespace ZetMQ.ConsumerProgress
open Utf8Text KeyedTable Streams Stream StreamIndex StreamStore ConsumerAccounts ConsumerRuns

theorem read_mem {stream : Stream} {s : ℕ} {message : StoredMessage}
    (found : stream.read s = some message) : message ∈ stream.messages := by
  rw [read_eq] at found
  split at found
  · exact List.mem_of_getElem? found
  · cases found

theorem read_isSome_of_later {stream : Stream} (kept : Kept stream) {s : ℕ}
    {later : StoredMessage} (retained : later ∈ stream.messages) (above : s ≤ later.sequence) :
    (stream.read s).isSome ↔ stream.state.firstSeq ≤ s := by
  obtain ⟨calls, messages, suffix, held⟩ := kept
  rw [held] at retained ⊢
  obtain ⟨i, at_i⟩ := List.mem_iff_getElem?.mp retained
  have numbered := (kept_numbered suffix).getElem? at_i
  have inside : i < messages.length := (List.getElem?_eq_some_iff.mp at_i).1
  rw [read_holding suffix]
  change _ ↔ calls.length + 1 - messages.length ≤ s
  split
  · rw [isSome_getElem?]
    omega
  · simp only [Option.isSome_none, Bool.false_eq_true, false_iff]
    omega

theorem step_nextForConsumer {host : StoreHost} {stream name : Str} {consumer : Consumer}
    {held : Stream}
    (found : host.manager.consumers.lookup (consumerKey stream name) = some consumer)
    (free : consumer.isBackpressured = false)
    (present : host.manager.store.streams.lookup stream = some held) (now : ℕ) :
    (host.step (.nextForConsumer stream name now)).1 =
      .next (.ok (held.read consumer.state.nextSequence)) := by
  simp only [StoreHost.step, ConsumerManager.nextForConsumer, found, free,
    MemoryStore.readMessage, present]
  cases held.read consumer.state.nextSequence <;> rfl

def OldestFrom (stream : Stream) (s : ℕ) (message : StoredMessage) : Prop :=
  message ∈ stream.messages ∧ s ≤ message.sequence ∧
    ∀ other ∈ stream.messages, s ≤ other.sequence → message.sequence ≤ other.sequence

theorem oldestFrom_read {stream : Stream} (kept : Kept stream) {s : ℕ} {message : StoredMessage}
    (found : stream.read s = some message) : OldestFrom stream s message := by
  have sequence := kept.read found
  refine ⟨read_mem found, sequence.ge, ?_⟩
  intro other _ above
  rwa [sequence]

/-- In every reachable state, a consumer with something to read is handed the oldest
message from its next sequence on exactly if that sequence was not evicted. -/
theorem next_is_oldest_iff (events : List StoreEvent) (stream name : Str) (now : ℕ)
    (consumer : Consumer) (held : Stream)
    (found : (StoreHost.start.run events).2.manager.consumers.lookup (consumerKey stream name) =
      some consumer)
    (free : consumer.isBackpressured = false)
    (present : (StoreHost.start.run events).2.manager.store.streams.lookup stream = some held)
    (waiting : ∃ message ∈ held.messages, consumer.state.nextSequence ≤ message.sequence) :
    (∃ message, OldestFrom held consumer.state.nextSequence message ∧
      ((StoreHost.start.run events).2.step (.nextForConsumer stream name now)).1 =
        .next (.ok (some message))) ↔
    held.state.firstSeq ≤ consumer.state.nextSequence := by
  have kept : Kept held := (Accounted.start.run events).store stream held present
  obtain ⟨later, retained, above⟩ := waiting
  rw [← read_isSome_of_later kept retained above, Option.isSome_iff_exists,
    step_nextForConsumer found free present]
  simp only [Outcome.next.injEq, Except.ok.injEq]
  constructor
  · intro ⟨message, _, handed⟩
    exact ⟨message, handed⟩
  · intro ⟨message, found⟩
    exact ⟨message, oldestFrom_read kept found, found⟩

private def text (payload : Bytes) : StoreCall := ⟨"a".toList, none, payload, none, 0, 0⟩

private def reader (policy : DeliverPolicy) : ConsumerConfig :=
  ⟨"c".toList, "s".toList, none, policy, .explicit, 1⟩

private def afterEviction (policy : DeliverPolicy) : List StoreEvent :=
  [.createStream "s".toList ⟨1, 0, 0⟩, .storeMessage "s".toList (text [1]),
    .storeMessage "s".toList (text [2]), .createConsumer (reader policy), .register 0]

/-- A new consumer on a stream that has evicted its first message is handed nothing,
though the second message is there. -/
theorem new_consumer_behind_eviction :
    ∃ consumer held,
      (StoreHost.start.run (afterEviction .all)).2.manager.consumers.lookup
        (consumerKey "s".toList "c".toList) = some consumer ∧
      consumer.isBackpressured = false ∧
      (StoreHost.start.run (afterEviction .all)).2.manager.store.streams.lookup "s".toList =
        some held ∧
      held.messages = [(text [2]).message 2] ∧ consumer.state.nextSequence = 1 ∧
      ((StoreHost.start.run (afterEviction .all)).2.step
        (.nextForConsumer "s".toList "c".toList 0)).1 = .next (.ok none) :=
  ⟨_, _, rfl, rfl, rfl, rfl, rfl, rfl⟩

theorem last_consumer_after_eviction :
    ∃ (consumer : Consumer) (held : Stream), held.state.firstSeq = 2 ∧
      consumer.state.nextSequence = 2 ∧
      ∃ message, OldestFrom held consumer.state.nextSequence message ∧
        ((StoreHost.start.run (afterEviction .last)).2.step
          (.nextForConsumer "s".toList "c".toList 0)).1 = .next (.ok (some message)) := by
  refine ⟨_, _, ?_, ?_, (next_is_oldest_iff (afterEviction .last) "s".toList "c".toList 0 _ _
    rfl rfl rfl ⟨(text [2]).message 2, ?_, ?_⟩).mpr ?_⟩
  all_goals decide

end ZetMQ.ConsumerProgress
