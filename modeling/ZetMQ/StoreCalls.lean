import ZetMQ.ConsumerRuns

/-! The calls of the stream store and its consumer manager, one after another. A call on
a consumer reads the store and one entry of the consumer map, and changes that entry
alone; a call on a stream does not look at the consumers. -/
namespace ZetMQ.StoreCalls
open Utf8Text KeyedTable MachineArith Streams StreamStore ConsumerAccounts ConsumerRuns

inductive ManagerOp where
  | createStream (name : Str) (config : StreamConfig)
  | deleteStream (name : Str)
  | storeMessage (name : Str) (call : StoreCall)
  | createConsumer (config : ConsumerConfig)
  | deleteConsumer (stream name : Str)
  | getConsumer (stream name : Str)
  | nextForConsumer (stream name : Str) (now : ℕ)
  | ack (stream name : Str) (sequence : ℕ)

inductive CallResult where
  | streamCreated (result : Except StoreError StreamInfo)
  | deleted
  | stored (sequence : ℕ)
  | consumerCreated (result : Except StoreError Unit)
  | got (result : Except StoreError Unit)
  | next (result : Except StoreError (Option StoredMessage))
  | acked (valid : Bool)

def call (manager : ConsumerManager) : ManagerOp → CallResult × ConsumerManager
  | .createStream name config =>
    let (result, store) := manager.store.createStream name config
    (.streamCreated result, { manager with store := store })
  | .deleteStream name => (.deleted, { manager with store := manager.store.deleteStream name })
  | .storeMessage name call =>
    let (seq, store) := manager.store.storeMessage name call
    (.stored seq, { manager with store := store })
  | .createConsumer config =>
    let (result, manager) := manager.createConsumer config
    (.consumerCreated result, manager)
  | .deleteConsumer stream name => (.deleted, manager.deleteConsumer stream name)
  | .getConsumer stream name => (.got (manager.getConsumer stream name), manager)
  | .nextForConsumer stream name now =>
    let (result, manager) := manager.nextForConsumer stream name now
    (.next result, manager)
  | .ack stream name sequence =>
    let (valid, manager) := manager.ack stream name sequence
    (.acked valid, manager)

def run (manager : ConsumerManager) (ops : List ManagerOp) : ConsumerManager :=
  ops.foldl (fun manager op => (call manager op).2) manager

theorem run_concat (manager : ConsumerManager) (ops : List ManagerOp) (op : ManagerOp) :
    run manager (ops ++ [op]) = (call (run manager ops) op).2 := by
  rw [run, List.foldl_append]
  rfl

/-- The consumer that a call is about, by stream and name. -/
def ManagerOp.pair : ManagerOp → Option (Str × Str)
  | .createStream _ _ => none
  | .deleteStream _ => none
  | .storeMessage _ _ => none
  | .createConsumer config => some (config.stream, config.durableName)
  | .deleteConsumer stream name => some (stream, name)
  | .getConsumer stream name => some (stream, name)
  | .nextForConsumer stream name _ => some (stream, name)
  | .ack stream name _ => some (stream, name)

def keyOf (pair : Str × Str) : Str := consumerKey pair.1 pair.2

def storeAfter (store : MemoryStore) : ManagerOp → MemoryStore
  | .createStream name config => (store.createStream name config).2
  | .deleteStream name => store.deleteStream name
  | .storeMessage name call => (store.storeMessage name call).2
  | _ => store

def answer (store : MemoryStore) (entry : Option Consumer) :
    ManagerOp → CallResult × Option Consumer
  | .createStream name config => (.streamCreated (store.createStream name config).1, entry)
  | .deleteStream _ => (.deleted, entry)
  | .storeMessage name call => (.stored (store.storeMessage name call).1, entry)
  | .createConsumer config =>
    match store.streamInfo config.stream, entry with
    | .error e, entry => (.consumerCreated (.error e), entry)
    | .ok _, some consumer =>
      (.consumerCreated (.error (.consumerAlreadyExists ("consumer ".toList ++
        config.durableName ++ " on stream ".toList ++ config.stream))), some consumer)
    | .ok info, none =>
      (.consumerCreated (.ok ()), some (Consumer.new config info.state.lastSeq))
  | .deleteConsumer _ _ => (.deleted, none)
  | .getConsumer stream name =>
    match entry with
    | some consumer => (.got (.ok ()), some consumer)
    | none => (.got (.error (.streamNotFound
        ("consumer ".toList ++ name ++ " on stream ".toList ++ stream))), none)
  | .nextForConsumer stream name now =>
    match entry with
    | none => (.next (.error (.streamNotFound ("consumer ".toList ++ name))), none)
    | some consumer =>
      if consumer.isBackpressured then (.next (.ok none), some consumer)
      else match store.readMessage stream consumer.state.nextSequence with
        | .error _ => (.next (.ok none), some consumer)
        | .ok message => (.next (.ok (some message)),
            some (consumer.recordDelivery consumer.state.nextSequence now))
  | .ack _ _ sequence =>
    match entry with
    | none => (.acked false, none)
    | some consumer => (.acked (consumer.ack sequence).1, some (consumer.ack sequence).2)

/-- A call is its answer: the store and the entry in front of it decide the result, and
no other entry changes. -/
structure Answered (manager after : ConsumerManager) (result : CallResult) (pair : Str × Str)
    (op : ManagerOp) : Prop where
  store : after.store = manager.store
  result : result = (answer manager.store (manager.consumers.lookup (keyOf pair)) op).1
  entry : after.consumers.lookup (keyOf pair) =
    (answer manager.store (manager.consumers.lookup (keyOf pair)) op).2
  others : ∀ key, key ≠ keyOf pair → after.consumers.lookup key = manager.consumers.lookup key

variable {manager : ConsumerManager} {pair : Str × Str} {op : ManagerOp}

theorem answered_insert {result : CallResult} {key : Str} {consumer : Consumer}
    (named : keyOf pair = key)
    (same : answer manager.store (manager.consumers.lookup key) op = (result, some consumer)) :
    Answered manager { manager with consumers := manager.consumers.insert key consumer }
      result pair op where
  store := rfl
  result := by rw [named, same]
  entry := by rw [named, same, AList.lookup_insert]
  others key' other := AList.lookup_insert_ne (named ▸ other)

theorem answered_same {result : CallResult}
    (same : answer manager.store (manager.consumers.lookup (keyOf pair)) op =
      (result, manager.consumers.lookup (keyOf pair))) :
    Answered manager manager result pair op where
  store := rfl
  result := by rw [same]
  entry := by rw [same]
  others _ _ := rfl

theorem createConsumer_answered (manager : ConsumerManager) (config : ConsumerConfig) :
    Answered manager (manager.createConsumer config).2
      (.consumerCreated (manager.createConsumer config).1) (config.stream, config.durableName)
      (.createConsumer config) := by
  rw [ConsumerManager.createConsumer]
  cases known : manager.store.streamInfo config.stream with
  | error e => exact answered_same (by simp only [answer, known])
  | ok info =>
    dsimp only [ConsumerManager.register]
    cases found : manager.consumers.lookup (keyOf (config.stream, config.durableName)) with
    | none =>
      rw [keyOf] at found
      rw [found]
      dsimp only
      refine answered_insert rfl ?_
      simp only [answer, known, found]
    | some consumer =>
      rw [keyOf] at found
      rw [found]
      exact answered_same (by simp only [answer, known, keyOf, found])

theorem nextForConsumer_answered (manager : ConsumerManager) (stream name : Str) (now : ℕ) :
    Answered manager (manager.nextForConsumer stream name now).2
      (.next (manager.nextForConsumer stream name now).1) (stream, name)
      (.nextForConsumer stream name now) := by
  rw [ConsumerManager.nextForConsumer]
  cases found : manager.consumers.lookup (consumerKey stream name) with
  | none => exact answered_same (by simp only [answer, keyOf, found])
  | some consumer =>
    dsimp only
    by_cases full : consumer.isBackpressured = true
    · rw [if_pos full]
      exact answered_same (by simp only [answer, keyOf, found, if_pos full])
    · rw [if_neg full]
      cases read : manager.store.readMessage stream consumer.state.nextSequence with
      | error e => exact answered_same (by simp only [answer, keyOf, found, if_neg full, read])
      | ok message =>
        dsimp only
        refine answered_insert rfl ?_
        simp only [answer, found, if_neg full, read]

theorem ack_config (consumer : Consumer) (sequence : ℕ) :
    (consumer.ack sequence).2.config = consumer.config := by
  rw [Consumer.ack]
  cases consumer.state.pendingAcks.lookup sequence with
  | none => rfl
  | some now => rfl

theorem ack_answered (manager : ConsumerManager) (stream name : Str) (sequence : ℕ) :
    Answered manager (manager.ack stream name sequence).2
      (.acked (manager.ack stream name sequence).1) (stream, name) (.ack stream name sequence) := by
  rw [ConsumerManager.ack]
  cases found : manager.consumers.lookup (consumerKey stream name) with
  | none => exact answered_same (by simp only [answer, keyOf, found])
  | some consumer =>
    dsimp only
    refine answered_insert rfl ?_
    simp only [answer, found]

theorem getConsumer_answered (manager : ConsumerManager) (stream name : Str) :
    Answered manager manager (.got (manager.getConsumer stream name)) (stream, name)
      (.getConsumer stream name) := by
  rw [ConsumerManager.getConsumer]
  cases found : manager.consumers.lookup (consumerKey stream name) with
  | none => exact answered_same (by simp only [answer, keyOf, found])
  | some consumer => exact answered_same (by simp only [answer, keyOf, found])

theorem deleteConsumer_answered (manager : ConsumerManager) (stream name : Str) :
    Answered manager (manager.deleteConsumer stream name) .deleted (stream, name)
      (.deleteConsumer stream name) where
  store := rfl
  result := rfl
  entry := AList.lookup_erase _ _
  others _ other := AList.lookup_erase_ne other

theorem call_answered (manager : ConsumerManager) (about : op.pair = some pair) :
    Answered manager (call manager op).2 (call manager op).1 pair op := by
  cases op with
  | createStream name config => cases about
  | deleteStream name => cases about
  | storeMessage name call => cases about
  | createConsumer config =>
    cases about
    exact createConsumer_answered manager config
  | deleteConsumer stream name =>
    cases about
    exact deleteConsumer_answered manager stream name
  | getConsumer stream name =>
    cases about
    exact getConsumer_answered manager stream name
  | nextForConsumer stream name now =>
    cases about
    exact nextForConsumer_answered manager stream name now
  | ack stream name sequence =>
    cases about
    exact ack_answered manager stream name sequence

theorem call_stream (manager : ConsumerManager) (about : op.pair = none) :
    (call manager op).2.store = storeAfter manager.store op ∧
      (call manager op).2.consumers = manager.consumers := by
  cases op with
  | createStream name config => exact ⟨rfl, rfl⟩
  | deleteStream name => exact ⟨rfl, rfl⟩
  | storeMessage name call => exact ⟨rfl, rfl⟩
  | _ => cases about

theorem createConsumer_cases (manager : ConsumerManager) (config : ConsumerConfig) :
    (∃ e, manager.createConsumer config = (.error e, manager) ∧
      ∀ info, manager.store.streamInfo config.stream = .ok info →
        manager.consumers.lookup (consumerKey config.stream config.durableName) ≠ none) ∨
    ∃ info, manager.store.streamInfo config.stream = .ok info ∧
      manager.consumers.lookup (consumerKey config.stream config.durableName) = none ∧
      manager.createConsumer config = (.ok (), { manager with
        consumers := manager.consumers.insert (consumerKey config.stream config.durableName)
          (Consumer.new config info.state.lastSeq) }) := by
  rw [ConsumerManager.createConsumer]
  cases manager.store.streamInfo config.stream with
  | error e => exact .inl ⟨e, rfl, fun info no => by cases no⟩
  | ok info =>
    dsimp only [ConsumerManager.register]
    cases manager.consumers.lookup (consumerKey config.stream config.durableName) with
    | none => exact .inr ⟨info, rfl, rfl, rfl⟩
    | some consumer => exact .inl ⟨_, rfl, fun info found => by simp⟩

theorem createConsumer_ok {config : ConsumerConfig}
    (created : (manager.createConsumer config).1 = .ok ()) :
    ∃ info, manager.store.streamInfo config.stream = .ok info ∧
      manager.consumers.lookup (consumerKey config.stream config.durableName) = none ∧
      (manager.createConsumer config).2 = { manager with
        consumers := manager.consumers.insert (consumerKey config.stream config.durableName)
          (Consumer.new config info.state.lastSeq) } := by
  rcases createConsumer_cases manager config with ⟨e, refused, -⟩ | ⟨info, known, free, added⟩
  · rw [refused] at created
    cases created
  · exact ⟨info, known, free, by rw [added]⟩

theorem accounted_createConsumer {trace : List (StoreEvent × Outcome)}
    (accounted : Accounted ⟨manager, []⟩ trace) (config : ConsumerConfig) :
    ∃ trace, Accounted ⟨(manager.createConsumer config).2, []⟩ trace := by
  rw [ConsumerManager.createConsumer]
  cases known : manager.store.streamInfo config.stream with
  | error e => exact ⟨trace, accounted⟩
  | ok info =>
    have first := accounted.step (.createConsumer config)
    simp only [StoreHost.step, known, List.nil_append] at first
    exact ⟨_, first.step (.register 0)⟩

theorem accounted_run (ops : List ManagerOp) : ∃ trace, Accounted ⟨run .new ops, []⟩ trace := by
  induction ops using List.reverseRecOn with
  | nil => exact ⟨[], .start⟩
  | append_singleton ops op ih =>
    obtain ⟨trace, accounted⟩ := ih
    rw [run_concat]
    cases op with
    | createStream name config => exact ⟨_, accounted.step (.createStream name config)⟩
    | deleteStream name => exact ⟨_, accounted.step (.deleteStream name)⟩
    | storeMessage name call => exact ⟨_, accounted.step (.storeMessage name call)⟩
    | createConsumer config => exact accounted_createConsumer accounted config
    | deleteConsumer stream name => exact ⟨_, accounted.step (.deleteConsumer stream name)⟩
    | getConsumer stream name => exact ⟨trace, accounted⟩
    | nextForConsumer stream name now =>
      exact ⟨_, accounted.step (.nextForConsumer stream name now)⟩
    | ack stream name sequence => exact ⟨_, accounted.step (.ack stream name sequence)⟩

end ZetMQ.StoreCalls
