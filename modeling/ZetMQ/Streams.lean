import ZetMQ.ByteBuffer
import ZetMQ.BoundedLog
import ZetMQ.MachineArith

/-! Streams: a deque of stored messages with four counters beside it. Storing
appends a message and then removes messages from the front by age, by count and
by bytes. The removals use the 64-bit arithmetic of a build, and the clock is read
twice in a call, once for the timestamp and once for the age limit. -/
namespace ZetMQ.Streams
open Utf8Text MachineArith BoundedLog

/-- A limit of 0 is no limit. -/
structure StreamConfig where
  maxMsgs : ℕ
  maxBytes : ℕ
  maxAgeSecs : ℕ
deriving DecidableEq

def StreamConfig.default : StreamConfig := ⟨0, 0, 0⟩

structure StoredMessage where
  sequence : ℕ
  timestamp : ℕ
  subject : Str
  replyTo : Option Str
  payload : Bytes
  headers : Option (List (Str × Str))
deriving DecidableEq

structure StreamState where
  messages : ℕ
  bytes : ℕ
  firstSeq : ℕ
  lastSeq : ℕ
deriving DecidableEq

structure StreamInfo where
  name : Str
  config : StreamConfig
  state : StreamState
deriving DecidableEq

structure Stream where
  name : Str
  config : StreamConfig
  state : StreamState
  messages : List StoredMessage
deriving DecidableEq

/-- The arguments of a `store` call, with the two clock readings it makes. -/
structure StoreCall where
  subject : Str
  replyTo : Option Str
  payload : Bytes
  headers : Option (List (Str × Str))
  timestamp : ℕ
  now : ℕ
deriving DecidableEq

def StoreCall.message (call : StoreCall) (sequence : ℕ) : StoredMessage :=
  ⟨sequence, call.timestamp, call.subject, call.replyTo, call.payload, call.headers⟩

namespace Stream

def new (name : Str) (config : StreamConfig) : Stream := ⟨name, config, ⟨0, 0, 1, 0⟩, []⟩

def info (stream : Stream) : StreamInfo := ⟨stream.name, stream.config, stream.state⟩

section Build
variable {m : Type → Type} [Monad m] (arith : Arith m)

def removeFront (stream : Stream) : m Stream :=
  match stream.messages with
  | [] => pure stream
  | msg :: rest => do
    let bytes ← arith.sub stream.state.bytes msg.payload.length
    let messages ← arith.sub stream.state.messages 1
    pure { stream with
      state := ⟨messages, bytes, stream.state.firstSeq + 1, stream.state.lastSeq⟩
      messages := rest }

def removeWhile (exceeds : Stream → Bool) : ℕ → Stream → m Stream
  | 0, stream => pure stream
  | turns + 1, stream =>
    if exceeds stream then removeFront arith stream >>= removeWhile exceeds turns else pure stream

def expired (cutoff : ℕ) (stream : Stream) : Bool :=
  match stream.messages with
  | [] => false
  | front :: _ => front.timestamp < cutoff

def tooMany (stream : Stream) : Bool := stream.config.maxMsgs < stream.messages.length

def tooLarge (stream : Stream) : Bool :=
  stream.config.maxBytes < stream.state.bytes && 1 < stream.messages.length

def ageRetention (now : ℕ) (stream : Stream) : m Stream :=
  if 0 < stream.config.maxAgeSecs then do
    let age ← arith.mul stream.config.maxAgeSecs 1000
    let cutoff ← arith.sub now age
    removeWhile arith (expired cutoff) stream.messages.length stream
  else pure stream

def limitRetention (limit : ℕ) (exceeds : Stream → Bool) (stream : Stream) : m Stream :=
  if 0 < limit then removeWhile arith exceeds stream.messages.length stream else pure stream

def applyRetention (now : ℕ) (stream : Stream) : m Stream := do
  let stream ← ageRetention arith now stream
  let stream ← limitRetention arith stream.config.maxMsgs tooMany stream
  limitRetention arith stream.config.maxBytes tooLarge stream

def store (stream : Stream) (call : StoreCall) : m (ℕ × Stream) := do
  let seq := stream.state.lastSeq + 1
  let pushed : Stream := { stream with
    state := ⟨stream.state.messages + 1, stream.state.bytes + call.payload.length,
      stream.state.firstSeq, seq⟩
    messages := stream.messages ++ [call.message seq] }
  let kept ← applyRetention arith call.now pushed
  pure (seq, kept)

end Build

def read (stream : Stream) (sequence : ℕ) : Option StoredMessage :=
  if sequence < stream.state.firstSeq || stream.state.lastSeq < sequence then none
  else stream.messages[sequence - stream.state.firstSeq]?

def readRange (stream : Stream) (start stop : ℕ) : List StoredMessage :=
  let s := max start stream.state.firstSeq
  let e := min stop stream.state.lastSeq
  if e < s then []
  else (stream.messages.drop (s - stream.state.firstSeq)).take (e - s + 1)

/-- Store calls one after another, with the sequence numbers they return. -/
def storeAll {m : Type → Type} [Monad m] (arith : Arith m) (stream : Stream) :
    List StoreCall → m (List ℕ × Stream)
  | [] => pure ([], stream)
  | call :: calls => do
    let (seq, stream) ← store arith stream call
    let (seqs, stream) ← storeAll arith stream calls
    pure (seq :: seqs, stream)

end Stream

def payloadBytes (messages : List StoredMessage) : ℕ :=
  (messages.map fun msg => msg.payload.length).sum

def Stream.holding (name : Str) (config : StreamConfig) (lastSeq : ℕ)
    (kept : List StoredMessage) : Stream :=
  ⟨name, config, ⟨kept.length, payloadBytes kept, lastSeq + 1 - kept.length, lastSeq⟩, kept⟩

namespace Stream
variable {name : Str} {config : StreamConfig} {lastSeq : ℕ} {kept : List StoredMessage}

section Retention
variable {m : Type → Type} [Monad m] [LawfulMonad m] (arith : Arith m)

theorem removeFront_holding (msg : StoredMessage) (rest : List StoredMessage)
    (counted : (msg :: rest).length ≤ lastSeq) :
    removeFront arith (holding name config lastSeq (msg :: rest)) =
      pure (holding name config lastSeq rest) := by
  have bytes : payloadBytes (msg :: rest) = msg.payload.length + payloadBytes rest := by
    simp only [payloadBytes, List.map_cons, List.sum_cons]
  have first : lastSeq + 1 - (msg :: rest).length + 1 = lastSeq + 1 - rest.length := by
    simp only [List.length_cons] at counted ⊢
    omega
  simp only [removeFront, holding]
  rw [arith.sub_exact (by omega), pure_bind, arith.sub_exact (by simp), pure_bind, bytes, first]
  simp only [List.length_cons, Nat.add_sub_cancel, Nat.add_sub_cancel_left]

theorem removeWhile_holding (exceeds : Stream → Bool) (counted : kept.length ≤ lastSeq) :
    removeWhile arith exceeds kept.length (holding name config lastSeq kept) =
      pure (holding name config lastSeq
        (shed (fun held => exceeds (holding name config lastSeq held)) kept)) := by
  induction kept with
  | nil => rfl
  | cons msg rest ih =>
    simp only [List.length_cons] at counted
    rw [List.length_cons, removeWhile, shed]
    split
    · rw [removeFront_holding arith msg rest counted, pure_bind, ih (by omega)]
    · rfl

end Retention

def tooOld (cutoff : ℕ) (messages : List StoredMessage) : Bool :=
  messages.head?.any fun front => front.timestamp < cutoff

def overCount (config : StreamConfig) (messages : List StoredMessage) : Bool :=
  0 < config.maxMsgs && config.maxMsgs < messages.length

def overBytes (config : StreamConfig) (messages : List StoredMessage) : Bool :=
  0 < config.maxBytes && (config.maxBytes < payloadBytes messages && 1 < messages.length)

def retained (config : StreamConfig) (cutoff : Option ℕ) (messages : List StoredMessage) :
    List StoredMessage :=
  shed (overBytes config) (shed (overCount config)
    (shed (fun held => cutoff.any fun limit => tooOld limit held) messages))

def ageCutoff {m : Type → Type} [Monad m] (arith : Arith m) (config : StreamConfig) (now : ℕ) :
    m (Option ℕ) :=
  if 0 < config.maxAgeSecs then do
    let age ← arith.mul config.maxAgeSecs 1000
    let cutoff ← arith.sub now age
    pure (some cutoff)
  else pure none

section Store
variable {m : Type → Type} [Monad m] [LawfulMonad m] (arith : Arith m)

theorem ageRetention_holding (now : ℕ) (counted : kept.length ≤ lastSeq) :
    ageRetention arith now (holding name config lastSeq kept) =
      (fun cutoff => holding name config lastSeq
        (shed (fun held => cutoff.any fun limit => tooOld limit held) kept)) <$>
        ageCutoff arith config now := by
  have loop : ∀ cutoff, removeWhile arith (expired cutoff) kept.length
      (holding name config lastSeq kept) =
      pure (holding name config lastSeq (shed (tooOld cutoff) kept)) := by
    intro cutoff
    rw [removeWhile_holding arith _ counted]
    congr 3
    funext held
    cases held <;> rfl
  unfold ageCutoff
  by_cases limited : 0 < config.maxAgeSecs
  · rw [if_pos limited, ageRetention, if_pos (by exact limited)]
    simp only [map_bind, map_pure, Option.any_some]
    exact bind_congr fun age => bind_congr fun cutoff => loop cutoff
  · rw [if_neg limited, ageRetention, if_neg (by exact limited), map_pure,
      shed_never (by intro; rfl)]

theorem limitRetention_holding (limit : ℕ) (exceeds : Stream → Bool)
    (counted : kept.length ≤ lastSeq) :
    limitRetention arith limit exceeds (holding name config lastSeq kept) =
      pure (holding name config lastSeq
        (shed (fun held => 0 < limit && exceeds (holding name config lastSeq held)) kept)) := by
  unfold limitRetention
  split
  · rename_i limited
    simp only [limited, decide_true, Bool.true_and]
    exact removeWhile_holding arith exceeds counted
  · rename_i unlimited
    rw [shed_never (fun held => by rw [decide_eq_false unlimited, Bool.false_and])]

theorem applyRetention_holding (now : ℕ) (counted : kept.length ≤ lastSeq) :
    applyRetention arith now (holding name config lastSeq kept) =
      (fun cutoff => holding name config lastSeq (retained config cutoff kept)) <$>
        ageCutoff arith config now := by
  have shorter : ∀ (exceeds : List StoredMessage → Bool) {held : List StoredMessage},
      held.length ≤ lastSeq → (shed exceeds held).length ≤ lastSeq :=
    fun exceeds held fits => (shed_suffix exceeds held).length_le.trans fits
  rw [applyRetention, ageRetention_holding arith now counted, bind_map_left, map_eq_pure_bind]
  refine bind_congr fun cutoff => ?_
  have young := shorter (fun held => cutoff.any fun limit => tooOld limit held) counted
  rw [limitRetention_holding arith _ tooMany young, pure_bind,
    limitRetention_holding arith _ tooLarge (shorter _ young)]
  rfl

theorem store_holding (call : StoreCall) (counted : kept.length ≤ lastSeq) :
    store arith (holding name config lastSeq kept) call =
      (fun cutoff => (lastSeq + 1, holding name config (lastSeq + 1)
        (retained config cutoff (kept ++ [call.message (lastSeq + 1)])))) <$>
        ageCutoff arith config call.now := by
  have pushed : (⟨name, config, ⟨kept.length + 1, payloadBytes kept + call.payload.length,
      lastSeq + 1 - kept.length, lastSeq + 1⟩, kept ++ [call.message (lastSeq + 1)]⟩ : Stream) =
      holding name config (lastSeq + 1) (kept ++ [call.message (lastSeq + 1)]) := by
    have first : lastSeq + 1 + 1 - (kept.length + 1) = lastSeq + 1 - kept.length := by omega
    simp only [holding, payloadBytes, List.map_append, List.sum_append, List.map_cons, List.map_nil,
      List.sum_singleton, List.length_append, List.length_singleton, first, StoreCall.message]
  have fits : (kept ++ [call.message (lastSeq + 1)]).length ≤ lastSeq + 1 := by
    rw [List.length_append, List.length_singleton]
    omega
  change applyRetention arith call.now _ >>= _ = _
  simp only [holding] at pushed ⊢
  rw [pushed, ← holding, applyRetention_holding arith call.now fits, bind_map_left,
    map_eq_pure_bind]
  rfl

end Store

end Stream
end ZetMQ.Streams
