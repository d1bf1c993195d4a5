import ZetMQ.StoreCalls

/-! How long consumers live. Nothing that the server's store manager offers takes a
consumer out of the map, and deleting a stream does not look at the map. So a consumer
outlives its stream whenever the stream is deleted after the consumer was created. -/
namespace ZetMQ.ConsumerLifetimes
open Utf8Text KeyedTable Streams StreamStore StoreCalls

/-- The calls of the server's store manager. -/
inductive StoreManagerOp where
  | createStream (name : Str) (config : StreamConfig)
  | deleteStream (name : Str)
  | storeMessage (name : Str) (call : StoreCall)
  | createConsumer (config : ConsumerConfig)
  | nextForConsumer (stream name : Str) (now : ℕ)
  | ack (stream name : Str) (sequence : ℕ)

def StoreManagerOp.toCall : StoreManagerOp → ManagerOp
  | .createStream name config => .createStream name config
  | .deleteStream name => .deleteStream name
  | .storeMessage name call => .storeMessage name call
  | .createConsumer config => .createConsumer config
  | .nextForConsumer stream name now => .nextForConsumer stream name now
  | .ack stream name sequence => .ack stream name sequence

def after (ops : List StoreManagerOp) : ConsumerManager := run .new (ops.map (·.toCall))

def HasStream (manager : ConsumerManager) (stream : Str) : Prop := stream ∈ manager.store.streams

def Created (ops : List StoreManagerOp) (config : ConsumerConfig) : Prop :=
  ((after ops).createConsumer config).1 = .ok ()

/-- Every consumer in the map was created by some call, its stream is there, and the
stream was not deleted since that call. -/
def Bound (ops : List StoreManagerOp) : Prop :=
  ∀ key consumer, (after ops).consumers.lookup key = some consumer →
    HasStream (after ops) consumer.config.stream ∧
    ∃ before since, ops = before ++ .createConsumer consumer.config :: since ∧
      Created before consumer.config ∧ .deleteStream consumer.config.stream ∉ since

def Recreates (before : List StoreManagerOp) (op : StoreManagerOp) (stream : Str) : Prop :=
  .deleteStream stream ∈ before ∧ ¬HasStream (after before) stream ∧
    HasStream (after (before ++ [op])) stream

def StartsFresh (ops : List StoreManagerOp) : Prop :=
  ∀ before op stream, ops = before ++ [op] → Recreates before op stream →
    (∀ key consumer, (after ops).consumers.lookup key = some consumer →
      consumer.config.stream ≠ stream) ∧
    ∀ config : ConsumerConfig, config.stream = stream → Created ops config

def NoneDeleted (ops : List StoreManagerOp) : Prop :=
  ∀ before config since, ops = before ++ .createConsumer config :: since →
    Created before config → .deleteStream config.stream ∉ since

def NoneReadsAs (ops : List StoreManagerOp) : Prop :=
  ∀ before op stream, ops = before ++ [op] → Recreates before op stream →
    ∀ key ∈ (after before).consumers, ¬stream ++ ":".toList <+: key

variable {manager : ConsumerManager} {config : ConsumerConfig} {stream : Str}
  {before : List StoreManagerOp} (ops : List StoreManagerOp)

theorem after_concat (op : StoreManagerOp) :
    after (ops ++ [op]) = (call (after ops) op.toCall).2 := by
  rw [after, List.map_append, after]
  exact run_concat ..

theorem streamInfo_ok (manager : ConsumerManager) (stream : Str) :
    (∃ info, manager.store.streamInfo stream = .ok info) ↔ HasStream manager stream := by
  rw [HasStream, ← AList.lookup_isSome, MemoryStore.streamInfo]
  cases manager.store.streams.lookup stream with
  | none => simp
  | some held => simp

theorem createConsumer_ok_iff (manager : ConsumerManager) (config : ConsumerConfig) :
    (manager.createConsumer config).1 = .ok () ↔ HasStream manager config.stream ∧
      manager.consumers.lookup (consumerKey config.stream config.durableName) = none := by
  rw [← streamInfo_ok]
  rcases createConsumer_cases manager config with ⟨e, refused, taken⟩ | ⟨info, known, free, added⟩
  · rw [refused]
    refine iff_of_false (by simp) ?_
    rintro ⟨⟨info, known⟩, free⟩
    exact taken info known free
  · rw [added]
    exact iff_of_true rfl ⟨⟨info, known⟩, free⟩

theorem createConsumer_refused (refused : ¬(manager.createConsumer config).1 = .ok ()) :
    (manager.createConsumer config).2 = manager := by
  rcases createConsumer_cases manager config with ⟨e, same, -⟩ | ⟨info, -, -, added⟩
  · rw [same]
  · rw [added] at refused
    exact absurd rfl refused

def configAt (manager : ConsumerManager) (key : Str) : Option ConsumerConfig :=
  (manager.consumers.lookup key).map (·.config)

theorem createConsumer_configAt (created : (manager.createConsumer config).1 = .ok ()) (key : Str) :
    configAt (manager.createConsumer config).2 key =
      if key = consumerKey config.stream config.durableName then some config
      else configAt manager key := by
  obtain ⟨info, -, -, after⟩ := createConsumer_ok created
  simp only [configAt, after, lookup_insert_ite, apply_ite (Option.map _), Option.map_some,
    Consumer.new]

theorem nextForConsumer_configAt (manager : ConsumerManager) (stream name : Str) (now : ℕ)
    (key : Str) :
    configAt (manager.nextForConsumer stream name now).2 key = configAt manager key := by
  rcases ConsumerRuns.Accounted.nextForConsumer_cases manager stream name now with
    ⟨result, -, same⟩ | ⟨consumer, message, found, -, -, next⟩
  · rw [same]
  · rw [next, configAt, lookup_insert_ite]
    by_cases own : key = consumerKey stream name
    · rw [if_pos own, configAt, own, found]
      rfl
    · rw [if_neg own, configAt]

theorem ack_configAt (manager : ConsumerManager) (stream name : Str) (sequence : ℕ) (key : Str) :
    configAt (manager.ack stream name sequence).2 key = configAt manager key := by
  rw [ConsumerManager.ack]
  cases found : manager.consumers.lookup (consumerKey stream name) with
  | none => rfl
  | some consumer =>
    rw [configAt, lookup_insert_ite]
    by_cases own : key = consumerKey stream name
    · rw [if_pos own, configAt, own, found, Option.map_some, ack_config]
      rfl
    · rw [if_neg own, configAt]

theorem configAt_step (manager : ConsumerManager) (op : StoreManagerOp) (key : Str) :
    configAt (call manager op.toCall).2 key = configAt manager key ∨
      ∃ config, op = .createConsumer config ∧ (manager.createConsumer config).1 = .ok () ∧
        key = consumerKey config.stream config.durableName ∧ configAt manager key = none ∧
        configAt (call manager op.toCall).2 key = some config := by
  cases op with
  | createStream name config => exact .inl rfl
  | deleteStream name => exact .inl rfl
  | storeMessage name call => exact .inl rfl
  | nextForConsumer stream name now => exact .inl (nextForConsumer_configAt ..)
  | ack stream name sequence => exact .inl (ack_configAt ..)
  | createConsumer config =>
    by_cases created : (manager.createConsumer config).1 = .ok ()
    · have entry := createConsumer_configAt created key
      by_cases own : key = consumerKey config.stream config.durableName
      · rw [if_pos own] at entry
        have free := ((createConsumer_ok_iff manager config).mp created).2
        exact .inr ⟨config, rfl, created, own, by rw [configAt, own, free, Option.map_none], entry⟩
      · rw [if_neg own] at entry
        exact .inl entry
    · left
      change configAt (manager.createConsumer config).2 key = _
      rw [createConsumer_refused created]

theorem hasStream_step (present : HasStream manager stream) {op : StoreManagerOp}
    (kept : op ≠ .deleteStream stream) : HasStream (call manager op.toCall).2 stream := by
  cases op with
  | createStream name config =>
    simp only [HasStream, StoreManagerOp.toCall, call, MemoryStore.createStream]
    cases manager.store.streams.lookup name with
    | some held => exact present
    | none => exact (AList.mem_insert _).mpr (.inr present)
  | deleteStream name =>
    have other : stream ≠ name := fun same => kept (by rw [same])
    exact AList.mem_erase.mpr ⟨other, present⟩
  | storeMessage name call => exact (AList.mem_insert _).mpr (.inr present)
  | createConsumer config =>
    rw [HasStream, StoreManagerOp.toCall, (call_answered manager rfl).store]
    exact present
  | nextForConsumer stream name now =>
    rw [HasStream, StoreManagerOp.toCall, (call_answered manager rfl).store]
    exact present
  | ack stream name sequence =>
    rw [HasStream, StoreManagerOp.toCall, (call_answered manager rfl).store]
    exact present

theorem hasStream_run (present : HasStream (after before) stream) {ops : List StoreManagerOp}
    (kept : .deleteStream stream ∉ ops) : HasStream (after (before ++ ops)) stream := by
  induction ops using List.reverseRecOn with
  | nil => rwa [List.append_nil]
  | append_singleton ops op ih =>
    rw [List.mem_append, List.mem_singleton, not_or] at kept
    rw [← List.append_assoc, after_concat]
    exact hasStream_step (ih kept.1) fun same => kept.2 same.symm

theorem entry_origin {ops : List StoreManagerOp} {key : Str}
    (found : configAt (after ops) key = some config) :
    key = consumerKey config.stream config.durableName ∧
      ∃ before since, ops = before ++ .createConsumer config :: since ∧ Created before config := by
  induction ops using List.reverseRecOn with
  | nil => cases found
  | append_singleton ops op ih =>
    rw [after_concat] at found
    rcases configAt_step (after ops) op key with same | ⟨new, rfl, created, own, -, entry⟩
    · obtain ⟨own, before, since, rfl, created⟩ := ih (same ▸ found)
      exact ⟨own, before, since ++ [op], by simp, created⟩
    · obtain rfl : new = config := Option.some.inj (entry.symm.trans found)
      exact ⟨own, ops, [], rfl, created⟩

theorem entry_stays (created : Created before config) (since : List StoreManagerOp) :
    configAt (after (before ++ .createConsumer config :: since))
      (consumerKey config.stream config.durableName) = some config := by
  induction since using List.reverseRecOn with
  | nil =>
    rw [after_concat]
    exact (createConsumer_configAt created _).trans (if_pos rfl)
  | append_singleton since op ih =>
    rw [← List.cons_append, ← List.append_assoc, after_concat]
    rcases configAt_step (after (before ++ .createConsumer config :: since)) op
      (consumerKey config.stream config.durableName) with same | ⟨new, -, -, -, free, -⟩
    · rw [same, ih]
    · rw [ih] at free
      cases free

theorem created_once {since : List StoreManagerOp} (created : Created before config) :
    ¬Created (before ++ .createConsumer config :: since) config := by
  intro again
  have free := ((createConsumer_ok_iff _ config).mp again).2
  have entry := entry_stays created since
  rw [configAt, free] at entry
  cases entry

theorem since_unique {before' since since' : List StoreManagerOp}
    (same : before ++ .createConsumer config :: since = before' ++ .createConsumer config :: since')
    (created : Created before config) (created' : Created before' config) : since = since' := by
  rcases List.append_eq_append_iff.mp same with ⟨gap, rfl, split⟩ | ⟨gap, rfl, split⟩
  · cases gap with
    | nil => exact (List.cons.inj split).2
    | cons first gap =>
      obtain rfl := (List.cons.inj split).1
      exact absurd created' (created_once created)
  · cases gap with
    | nil => exact (List.cons.inj split).2.symm
    | cons first gap =>
      obtain rfl := (List.cons.inj split).1
      exact absurd created (created_once created')

theorem bound_iff : Bound ops ↔ NoneDeleted ops := by
  constructor
  · rintro bound before config since rfl created
    obtain ⟨consumer, found, rfl⟩ := Option.map_eq_some_iff.mp (entry_stays created since)
    obtain ⟨-, before', since', split, created', kept⟩ := bound _ consumer found
    rwa [since_unique split created created']
  · intro none key consumer found
    have entry : configAt (after ops) key = some consumer.config := by
      rw [configAt, found, Option.map_some]
    obtain ⟨-, before, since, rfl, created⟩ := entry_origin entry
    have kept := none before consumer.config since rfl created
    refine ⟨?_, before, since, rfl, created, kept⟩
    rw [List.append_cons]
    refine hasStream_run ?_ kept
    rw [after_concat]
    exact hasStream_step ((createConsumer_ok_iff _ _).mp created).1 (by simp)

theorem Recreates.consumers {op : StoreManagerOp} (recreates : Recreates before op stream) :
    (after (before ++ [op])).consumers = (after before).consumers := by
  obtain ⟨-, absent, present⟩ := recreates
  rw [after_concat] at present ⊢
  cases about : op.toCall.pair with
  | none => exact (call_stream _ about).2
  | some pair =>
    rw [HasStream, (call_answered _ about).store] at present
    exact absurd present absent

theorem consumerKey_reads (stream name : Str) : stream ++ ":".toList <+: consumerKey stream name :=
  List.prefix_append _ _

theorem startsFresh_iff : StartsFresh ops ↔ NoneReadsAs ops := by
  constructor
  · rintro fresh before op stream rfl recreates key member ⟨name, reads⟩
    have created := (fresh before op stream rfl recreates).2
      ⟨name, stream, none, .all, .explicit, 0⟩ rfl
    have free := ((createConsumer_ok_iff _ _).mp created).2
    rw [recreates.consumers, AList.lookup_eq_none] at free
    exact free (by rwa [consumerKey, reads])
  · rintro none before op stream rfl recreates
    have clear := none before op stream rfl recreates
    rw [← recreates.consumers] at clear
    refine ⟨fun key consumer found bound => ?_, fun config own => ?_⟩
    · have entry : configAt (after (before ++ [op])) key = some consumer.config := by
        rw [configAt, found, Option.map_some]
      have reads := (entry_origin entry).1
      rw [bound] at reads
      refine clear key (AList.lookup_isSome.mp (by rw [found]; rfl)) ?_
      rw [reads]
      exact consumerKey_reads ..
    · refine (createConsumer_ok_iff _ config).mpr ⟨own ▸ recreates.2.2, ?_⟩
      rw [AList.lookup_eq_none, own]
      exact fun member => clear _ member (consumerKey_reads ..)

/-- Consumers follow their streams exactly if no stream is deleted under a consumer, and
a stream that comes back finds no text in the map that reads as one of its consumers. -/
theorem consumers_follow_streams_iff (ops : List StoreManagerOp) :
    Bound ops ∧ StartsFresh ops ↔ NoneDeleted ops ∧ NoneReadsAs ops := by
  rw [bound_iff, startsFresh_iff]

def orderStream : Str := "orders".toList

def orderConsumer : ConsumerConfig := ⟨"mail".toList, orderStream, none, .all, .explicit, 0⟩

def deletedUnder : List StoreManagerOp :=
  [.createStream orderStream .default, .createConsumer orderConsumer, .deleteStream orderStream]

theorem deletedUnder_recreates :
    Recreates deletedUnder (.createStream orderStream .default) orderStream := by
  refine ⟨by simp [deletedUnder], ?_, ?_⟩
  · rw [HasStream, ← AList.lookup_eq_none]
    rfl
  · rw [HasStream, ← AList.lookup_isSome]
    rfl

/-- The consumer stays without a stream, and is still there when the stream is created
again. -/
theorem consumer_outlives_stream :
    ¬Bound deletedUnder ∧
      ¬StartsFresh (deletedUnder ++ [.createStream orderStream .default]) := by
  rw [bound_iff, startsFresh_iff]
  refine ⟨fun none => ?_, fun none => ?_⟩
  · exact none [.createStream orderStream .default] orderConsumer [.deleteStream orderStream]
      rfl rfl (List.mem_singleton.mpr rfl)
  · refine none deletedUnder _ orderStream rfl deletedUnder_recreates
      (consumerKey orderStream "mail".toList) ?_ (consumerKey_reads ..)
    rw [← AList.lookup_isSome]
    rfl

end ZetMQ.ConsumerLifetimes
