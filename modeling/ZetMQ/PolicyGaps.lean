import ZetMQ.ConsumerPolicies

/-! Runs in which a configuration is not honoured. Messages without a valid subject are
stored, a consumer is handed some of them one after another, and every filter and every
policy beyond single acknowledgements is passed over. -/
namespace ZetMQ.PolicyGaps
open Utf8Text KeyedTable MachineArith BoundedLog Streams Stream StreamIndex StreamStore
open ConsumerAccounts ConsumerRuns StoreCalls SubjectGrammar ConsumerPolicies

def blank : StoreCall := ⟨[], none, [], none, 0, 0⟩

theorem selects_not_blank (text : Str) : ¬Selects text blank.subject := by
  rintro ⟨pattern, subject, -, parsed, -⟩
  cases parsed

theorem retained_default (cutoff : ℕ) (messages : List StoredMessage) :
    retained .default (cutoffOf .default cutoff) messages = messages := by
  have young : ∀ held : List StoredMessage,
      ((cutoffOf .default cutoff).any fun limit => tooOld limit held) = false := fun _ => rfl
  have few : ∀ held, overCount .default held = false := fun _ => rfl
  have light : ∀ held, overBytes .default held = false := fun _ => rfl
  rw [retained, shed_never young, shed_never few, shed_never light]

section
variable (config : ConsumerConfig)

def prepared : List ManagerOp := [.createStream config.stream .default]

def session (n k : ℕ) : List ManagerOp :=
  List.replicate n (.storeMessage config.stream blank) ++
    List.replicate k (.nextForConsumer config.stream config.durableName 0)

def played (n k : ℕ) : ConsumerManager :=
  run .new (prepared config ++ .createConsumer config :: session config n k)

theorem session_running (n k : ℕ) : ∀ op ∈ session config n k, inRun op = true := by
  intro op member
  rcases List.mem_append.mp member with stored | asked
  · rw [List.eq_of_mem_replicate stored]
    rfl
  · rw [List.eq_of_mem_replicate asked]
    rfl

theorem run_prepared :
    run .new (prepared config) = ⟨⟨AList.insert config.stream (new config.stream .default) ∅⟩, ∅⟩ :=
  rfl

theorem prepared_info : (run .new (prepared config)).store.streamInfo config.stream =
    .ok (new config.stream .default).info := by
  simp only [run_prepared, MemoryStore.streamInfo, AList.lookup_insert]

theorem prepared_created :
    ((run .new (prepared config)).createConsumer config).1 = .ok () := by
  rw [ConsumerManager.createConsumer, prepared_info]
  simp only [ConsumerManager.register, run_prepared, AList.lookup_empty]

theorem played_store (n : ℕ) :
    played config (n + 1) 0 = (call (played config n 0) (.storeMessage config.stream blank)).2 := by
  rw [played, session, List.replicate_succ', played, session]
  simp only [List.replicate_zero, List.append_nil, run_next]

theorem played_next (n k : ℕ) : played config n (k + 1) =
    (call (played config n k) (.nextForConsumer config.stream config.durableName 0)).2 := by
  rw [played, session, List.replicate_succ', played, session, ← List.append_assoc, run_next]

theorem played_stored (n : ℕ) :
    (played config n 0).store.streams.lookup config.stream =
      some (holding config.stream .default n (history (List.replicate n blank))) ∧
    (played config n 0).consumers.lookup (keyFor config) = some (Consumer.new config 0) := by
  induction n with
  | zero =>
    have played_zero : played config 0 0 = ((run .new (prepared config)).createConsumer config).2 :=
      run_concat ..
    obtain ⟨info, known, -, after⟩ := createConsumer_ok (prepared_created config)
    obtain rfl := Except.ok.inj ((prepared_info config).symm.trans known)
    rw [played_zero, after, keyFor, AList.lookup_insert, run_prepared]
    exact ⟨AList.lookup_insert _, rfl⟩
  | succ n ih =>
    have counted : (history (List.replicate n blank)).length ≤ n := by
      rw [history, historyFrom_length, List.length_replicate]
    rw [played_store]
    refine ⟨?_, ih.2⟩
    simp only [call, MemoryStore.storeMessage, ih.1, Option.getD_some, store_wrapping blank counted,
      retained_default, AList.lookup_insert]
    rw [List.replicate_succ', history, history, historyFrom_concat, List.length_replicate,
      Nat.zero_add]

theorem played_read {n s : ℕ} (positive : 0 < s) (stored : s ≤ n) :
    (played config n 0).store.readMessage config.stream s = .ok (blank.message s) := by
  have length : (history (List.replicate n blank)).length = n := by
    rw [history, historyFrom_length, List.length_replicate]
  have read : (holding config.stream .default n (history (List.replicate n blank))).read s =
      some (blank.message s) := by
    have held := @read_holding config.stream .default _ _
      (List.suffix_refl (history (List.replicate n blank))) s
    rw [List.length_replicate, length, if_pos (by omega)] at held
    rw [held, history, historyFrom_getElem?, List.getElem?_replicate_of_lt (by omega),
      Option.map_some]
    congr 2
    omega
  simp only [MemoryStore.readMessage, (played_stored config n).1, read]

def startOf : ℕ := config.deliverPolicy.startSeq 0

theorem startOf_pos (positive : config.deliverPolicy ≠ .byStartSequence 0) :
    0 < startOf config := by
  rw [startOf]
  cases policy : config.deliverPolicy with
  | byStartSequence s =>
    rw [policy] at positive
    exact Nat.pos_of_ne_zero fun zero : s = 0 => positive (by rw [zero])
  | _ => exact Nat.one_pos

structure Handed (consumer : Consumer) (k : ℕ) : Prop where
  same : consumer.config = config
  next : consumer.state.nextSequence = startOf config + k
  count : consumer.state.pendingAckCount = k
  pending : ∀ i < k, startOf config + i ∈ consumer.state.pendingAcks

theorem played_handed (positive : 0 < startOf config) {n k : ℕ}
    (stored : startOf config + k ≤ n + 1)
    (room : 0 < config.maxAckPending → k ≤ config.maxAckPending) :
    (played config n k).store = (played config n 0).store ∧
    ∃ consumer, (played config n k).consumers.lookup (keyFor config) = some consumer ∧
      Handed config consumer k := by
  induction k with
  | zero =>
    exact ⟨rfl, _, (played_stored config n).2, rfl, rfl, rfl,
      fun i no => absurd no (Nat.not_lt_zero i)⟩
  | succ k ih =>
    obtain ⟨store, consumer, found, handed⟩ := ih (by omega) (by omega)
    have free : consumer.isBackpressured = false := by
      rw [not_backpressured, handed.same, handed.count]
      exact room
    have read : (played config n k).store.readMessage config.stream consumer.state.nextSequence =
        .ok (blank.message consumer.state.nextSequence) := by
      rw [store, handed.next]
      exact played_read config (by omega) (by omega)
    rw [played_next, call_next found free read]
    refine ⟨store, _, AList.lookup_insert _, handed.same, ?_, ?_, ?_⟩
    · rw [Consumer.recordDelivery, handed.next, Nat.add_assoc]
    · rw [Consumer.recordDelivery, handed.count]
    · intro i below
      rw [Consumer.recordDelivery, AList.mem_insert, handed.next]
      rcases Nat.lt_succ_iff_lt_or_eq.mp below with earlier | rfl
      · exact .inr (handed.pending i earlier)
      · exact .inl rfl

variable {config}

section
variable (honours : Honours config) (positive : config.deliverPolicy ≠ .byStartSequence 0)
include honours positive

theorem no_filter_of_honours : config.filterSubject = none := by
  cases filter : config.filterSubject with
  | none => rfl
  | some text =>
    have start := startOf_pos config positive
    obtain ⟨-, consumer, found, handed⟩ := played_handed config start
      (n := startOf config) (k := 0) (by omega) (by omega)
    have free : consumer.isBackpressured = false := by
      rw [not_backpressured, handed.same, handed.count]
      exact id
    have read : (played config (startOf config) 0).store.readMessage config.stream
        consumer.state.nextSequence = .ok (blank.message consumer.state.nextSequence) := by
      rw [handed.next]
      exact played_read config start (Nat.le_refl _)
    have asked := honours (prepared config) (session config (startOf config) 0)
      (.nextForConsumer config.stream config.durableName 0) (prepared_created config)
      (session_running config _ _) rfl
    exact absurd (asked.filter 0 _ text rfl (by rw [← played, call_next found free read]) filter)
      (selects_not_blank text)

theorem single_of_honours (policy : config.ackPolicy = .all) : config.maxAckPending = 1 := by
  by_contra room
  obtain ⟨-, consumer, found, handed⟩ := played_handed config (startOf_pos config positive)
    (n := startOf config + 1) (k := 2) (by omega) (by omega)
  have asked := honours (prepared config) (session config (startOf config + 1) 2)
    (.ack config.stream config.durableName (startOf config + 1)) (prepared_created config)
    (session_running config _ _) rfl
  have second := AList.lookup_isSome.mpr (handed.pending 1 (by decide))
  obtain ⟨now, second⟩ := Option.isSome_iff_exists.mp second
  have first := handed.pending 0 (by decide)
  have cleared := asked.ackAll policy _ (consumer.ack (startOf config + 1)).2 rfl
    (by rw [← played, call_ack found, Consumer.ack, second])
    (by rw [← played, call_ack found]; exact AList.lookup_insert _) (startOf config) (by omega)
  rw [Consumer.ack, second] at cleared
  exact cleared (AList.mem_erase.mpr ⟨by omega, first⟩)

theorem unlimited_of_honours (policy : config.ackPolicy = .none) : config.maxAckPending = 0 := by
  by_contra limited
  obtain ⟨-, consumer, found, handed⟩ := played_handed config (startOf_pos config positive)
    (n := startOf config + config.maxAckPending) (k := config.maxAckPending) (by omega) (by omega)
  have asked := honours (prepared config)
    (session config (startOf config + config.maxAckPending) config.maxAckPending)
    (.storeMessage config.stream blank) (prepared_created config) (session_running config _ _) rfl
  have free := asked.ackNone policy consumer found
  rw [not_backpressured, handed.same, handed.count] at free
  omega

end

/-- Exactly the configurations that ask for nothing are honoured in every run. -/
theorem honours_iff (config : ConsumerConfig) : Honours config ↔ AsksNothing config := by
  constructor
  · intro honours
    by_cases zero : config.deliverPolicy = .byStartSequence 0
    · exact .inl zero
    · exact .inr ⟨no_filter_of_honours honours zero, single_of_honours honours zero,
        unlimited_of_honours honours zero⟩
  · rintro (zero | ⟨noFilter, all, none⟩) before ops op created running last
    · exact honoured_of_zero created running last zero
    · exact honoured_of_plain created running last noFilter all none

end

def ordersOnly : ConsumerConfig :=
  ⟨"mail".toList, "all".toList, some "orders.>".toList, .all, .explicit, 0⟩

def billing : StoreCall := ⟨"billing.paid".toList, none, [], none, 0, 0⟩

/-- The orders are not all that it gets; and neither policy beside single
acknowledgements is honoured. -/
theorem policies_passed_over :
    (call (run .new [.createStream "all".toList .default, .createConsumer ordersOnly,
      .storeMessage "all".toList billing]) (.nextForConsumer "all".toList "mail".toList 0)).1 =
        .next (.ok (some (billing.message 1))) ∧
    ¬Selects "orders.>".toList billing.subject ∧
    ¬Honours ⟨"mail".toList, "all".toList, none, .all, .all, 0⟩ ∧
    ¬Honours ⟨"mail".toList, "all".toList, none, .all, .none, 1⟩ := by
  refine ⟨rfl, ?_, fun honours => ?_, fun honours => ?_⟩
  · rintro ⟨pattern, subject, filter, text, matched⟩
    have tokens : (SubjectPattern.parse "orders.>".toList).map SubjectPattern.tokens =
      .ok [.literal "orders".toList, .multiWildcard] := by decide
    have words : (Subject.parse billing.subject).map Subject.tokens =
      .ok ["billing".toList, "paid".toList] := by decide
    rw [filter] at tokens
    rw [text] at words
    rw [SubjectPattern.matches, Except.ok.inj tokens, Except.ok.inj words] at matched
    exact absurd matched (by decide)
  · exact absurd (single_of_honours honours (by decide) rfl) (by decide)
  · exact absurd (unlimited_of_honours honours (by decide) rfl) (by decide)

end ZetMQ.PolicyGaps
