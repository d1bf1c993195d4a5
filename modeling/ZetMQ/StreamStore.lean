import ZetMQ.Streams
import ZetMQ.KeyedTable

/-! The stream store and its durable consumers. Each method runs under the lock of
the map it changes and is one step, except `create_consumer`: it reads the stream's
info under one lock and registers the consumer under another, so other calls may come
in between. -/
namespace ZetMQ.StreamStore
open Utf8Text KeyedTable MachineArith Streams

inductive StoreError where
  | streamNotFound (what : Str)
  | streamAlreadyExists (name : Str)
  | consumerAlreadyExists (what : Str)
  | invalidOffset (requested max : ℕ)
deriving DecidableEq

def StoreError.display : StoreError → Str
  | .streamNotFound what => "stream not found: ".toList ++ what
  | .streamAlreadyExists name => "stream already exists: ".toList ++ name
  | .consumerAlreadyExists what => "consumer already exists: ".toList ++ what
  | .invalidOffset requested max =>
    "invalid offset: expected <= ".toList ++ decimal max ++ ", got ".toList ++ decimal requested

structure MemoryStore where
  streams : Table Str Stream

namespace MemoryStore

def new : MemoryStore := ⟨∅⟩

def createStream (store : MemoryStore) (name : Str) (config : StreamConfig) :
    Except StoreError StreamInfo × MemoryStore :=
  match store.streams.lookup name with
  | some _ => (.error (.streamAlreadyExists name), store)
  | none =>
    let stream := Stream.new name config
    (.ok stream.info, ⟨store.streams.insert name stream⟩)

def deleteStream (store : MemoryStore) (name : Str) : MemoryStore := ⟨store.streams.erase name⟩

def streamInfo (store : MemoryStore) (name : Str) : Except StoreError StreamInfo :=
  match store.streams.lookup name with
  | some stream => .ok stream.info
  | none => .error (.streamNotFound name)

def storeMessage (store : MemoryStore) (name : Str) (call : StoreCall) : ℕ × MemoryStore :=
  let stream := (store.streams.lookup name).getD (Stream.new name .default)
  let (seq, stream) := Id.run (Stream.store wrapping stream call)
  (seq, ⟨store.streams.insert name stream⟩)

def readMessage (store : MemoryStore) (name : Str) (sequence : ℕ) :
    Except StoreError StoredMessage :=
  match store.streams.lookup name with
  | none => .error (.streamNotFound name)
  | some stream =>
    match stream.read sequence with
    | some message => .ok message
    | none => .error (.invalidOffset sequence stream.state.lastSeq)

end MemoryStore

inductive DeliverPolicy where
  | all
  | last
  | new
  | byStartSequence (sequence : ℕ)
deriving DecidableEq

inductive AckPolicy where
  | none
  | explicit
  | all
deriving DecidableEq

structure ConsumerConfig where
  durableName : Str
  stream : Str
  filterSubject : Option Str
  deliverPolicy : DeliverPolicy
  ackPolicy : AckPolicy
  maxAckPending : ℕ
deriving DecidableEq

structure ConsumerState where
  nextSequence : ℕ
  pendingAckCount : ℕ
  pendingAcks : Table ℕ ℕ
  deliveredCount : ℕ
  ackedCount : ℕ

structure Consumer where
  config : ConsumerConfig
  state : ConsumerState

def DeliverPolicy.startSeq (streamLastSeq : ℕ) : DeliverPolicy → ℕ
  | all => 1
  | last => max streamLastSeq 1
  | new => streamLastSeq + 1
  | byStartSequence sequence => sequence

namespace Consumer

def new (config : ConsumerConfig) (streamLastSeq : ℕ) : Consumer :=
  ⟨config, ⟨config.deliverPolicy.startSeq streamLastSeq, 0, ∅, 0, 0⟩⟩

def recordDelivery (consumer : Consumer) (sequence now : ℕ) : Consumer :=
  { consumer with
    state :=
      { nextSequence := sequence + 1
        pendingAckCount := consumer.state.pendingAckCount + 1
        pendingAcks := consumer.state.pendingAcks.insert sequence now
        deliveredCount := consumer.state.deliveredCount + 1
        ackedCount := consumer.state.ackedCount } }

def ack (consumer : Consumer) (sequence : ℕ) : Bool × Consumer :=
  match consumer.state.pendingAcks.lookup sequence with
  | some _ =>
    let pendingAcks := consumer.state.pendingAcks.erase sequence
    (true, { consumer with
      state := { consumer.state with
        pendingAcks := pendingAcks
        pendingAckCount := size pendingAcks
        ackedCount := consumer.state.ackedCount + 1 } })
  | none => (false, consumer)

def isBackpressured (consumer : Consumer) : Bool :=
  0 < consumer.config.maxAckPending &&
    consumer.config.maxAckPending ≤ consumer.state.pendingAckCount

end Consumer

/-- The store and the consumers on it, as the server's `StoreManager` holds them. -/
structure ConsumerManager where
  store : MemoryStore
  consumers : Table Str Consumer

def consumerKey (stream name : Str) : Str := stream ++ ":".toList ++ name

namespace ConsumerManager

def new : ConsumerManager := ⟨.new, ∅⟩

def register (manager : ConsumerManager) (config : ConsumerConfig) (info : StreamInfo) :
    Except StoreError Unit × ConsumerManager :=
  let key := consumerKey config.stream config.durableName
  match manager.consumers.lookup key with
  | some _ =>
    (.error (.consumerAlreadyExists ("consumer ".toList ++ config.durableName ++
      " on stream ".toList ++ config.stream)), manager)
  | none =>
    (.ok (), { manager with
      consumers := manager.consumers.insert key (Consumer.new config info.state.lastSeq) })

def createConsumer (manager : ConsumerManager) (config : ConsumerConfig) :
    Except StoreError Unit × ConsumerManager :=
  match manager.store.streamInfo config.stream with
  | .error e => (.error e, manager)
  | .ok info => manager.register config info

def deleteConsumer (manager : ConsumerManager) (stream name : Str) : ConsumerManager :=
  { manager with consumers := manager.consumers.erase (consumerKey stream name) }

def getConsumer (manager : ConsumerManager) (stream name : Str) : Except StoreError Unit :=
  match manager.consumers.lookup (consumerKey stream name) with
  | some _ => .ok ()
  | none => .error (.streamNotFound ("consumer ".toList ++ name ++ " on stream ".toList ++ stream))

def nextForConsumer (manager : ConsumerManager) (stream name : Str) (now : ℕ) :
    Except StoreError (Option StoredMessage) × ConsumerManager :=
  let key := consumerKey stream name
  match manager.consumers.lookup key with
  | none => (.error (.streamNotFound ("consumer ".toList ++ name)), manager)
  | some consumer =>
    if consumer.isBackpressured then (.ok none, manager)
    else
      let seq := consumer.state.nextSequence
      match manager.store.readMessage stream seq with
      | .error _ => (.ok none, manager)
      | .ok message =>
        (.ok (some message), { manager with
          consumers := manager.consumers.insert key (consumer.recordDelivery seq now) })

def ack (manager : ConsumerManager) (stream name : Str) (sequence : ℕ) : Bool × ConsumerManager :=
  let key := consumerKey stream name
  match manager.consumers.lookup key with
  | none => (false, manager)
  | some consumer =>
    let (acked, consumer) := consumer.ack sequence
    (acked, { manager with consumers := manager.consumers.insert key consumer })

end ConsumerManager

/-- One call, or one half of `create_consumer`. -/
inductive StoreEvent where
  | createStream (name : Str) (config : StreamConfig)
  | deleteStream (name : Str)
  | storeMessage (name : Str) (call : StoreCall)
  | createConsumer (config : ConsumerConfig)
  | register (waiting : ℕ)
  | deleteConsumer (stream name : Str)
  | nextForConsumer (stream name : Str) (now : ℕ)
  | ack (stream name : Str) (sequence : ℕ)

inductive Outcome where
  | created (result : Except StoreError StreamInfo)
  | deleted
  | stored (sequence : ℕ)
  | found (result : Except StoreError StreamInfo)
  | registered (config : ConsumerConfig) (info : StreamInfo) (result : Except StoreError Unit)
  | nobodyWaits
  | next (result : Except StoreError (Option StoredMessage))
  | acked (valid : Bool)

/-- The manager and the `create_consumer` calls that are between their two halves. -/
structure StoreHost where
  manager : ConsumerManager
  creating : List (ConsumerConfig × StreamInfo)

namespace StoreHost

def start : StoreHost := ⟨.new, []⟩

def step (host : StoreHost) : StoreEvent → Outcome × StoreHost
  | .createStream name config =>
    let (result, store) := host.manager.store.createStream name config
    (.created result, { host with manager := { host.manager with store := store } })
  | .deleteStream name =>
    (.deleted, { host with manager :=
      { host.manager with store := host.manager.store.deleteStream name } })
  | .storeMessage name call =>
    let (seq, store) := host.manager.store.storeMessage name call
    (.stored seq, { host with manager := { host.manager with store := store } })
  | .createConsumer config =>
    match host.manager.store.streamInfo config.stream with
    | .error e => (.found (.error e), host)
    | .ok info => (.found (.ok info), { host with creating := host.creating ++ [(config, info)] })
  | .register waiting =>
    match host.creating[waiting]? with
    | none => (.nobodyWaits, host)
    | some (config, info) =>
      let (result, manager) := host.manager.register config info
      (.registered config info result, ⟨manager, host.creating.eraseIdx waiting⟩)
  | .deleteConsumer stream name =>
    (.deleted, { host with manager := host.manager.deleteConsumer stream name })
  | .nextForConsumer stream name now =>
    let (result, manager) := host.manager.nextForConsumer stream name now
    (.next result, { host with manager := manager })
  | .ack stream name sequence =>
    let (valid, manager) := host.manager.ack stream name sequence
    (.acked valid, { host with manager := manager })

def run (host : StoreHost) : List StoreEvent → List (StoreEvent × Outcome) × StoreHost
  | [] => ([], host)
  | event :: events =>
    let (outcome, host) := host.step event
    let (trace, host) := host.run events
    ((event, outcome) :: trace, host)

end StoreHost

theorem create_uninterrupted (host : StoreHost) (config : ConsumerConfig) (info : StreamInfo)
    (found : host.manager.store.streamInfo config.stream = .ok info) :
    (host.run [.createConsumer config, .register host.creating.length]).2 =
      { host with manager := (host.manager.createConsumer config).2 } := by
  simp only [StoreHost.run, StoreHost.step, found, ConsumerManager.createConsumer,
    List.getElem?_concat_length]
  congr 1
  rw [List.eraseIdx_append_of_length_le le_rfl, Nat.sub_self, List.eraseIdx_cons_zero,
    List.append_nil]

end ZetMQ.StreamStore
