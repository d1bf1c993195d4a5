import ZetMQ.ClientConnection
import ZetMQ.ClientSubscriptions
import ZetMQ.LockedTasks

/-! The client as a system of tasks: the calls of its users, the loop that reconnects in the
background, and the read and the write task of the connection. A call locks the
connection for what it does there. The maps behind the connection have a lock of their
own; the read task keeps it while it sends a message into the channel of a subscription,
and that channel is bounded. A channel is known by its number, a oneshot by the
correlation id of the call that made it. Durations are in nanoseconds. -/
namespace ZetMQ.ClientTasks
open Utf8Text KeyedTable ClientConnection ClientSubscriptions LockedTasks

def durationMax : ℕ := (2 ^ 64 - 1) * 10 ^ 9 + 999999999

/-- The options that steer the reconnect, and the sizes of the two kinds of channels (256
each). -/
structure Options where
  subBuffer : ℕ
  writeBuffer : ℕ
  reconnectEnabled : Bool
  maxReconnectAttempts : ℕ
  reconnectDelay : ℕ
  reconnectBackoff : Bool
  subRoom : 0 < subBuffer
  writeRoom : 0 < writeBuffer

-- no reconnect, and little room
def Options.small : Options := ⟨1, 4, false, 0, 0, false, Nat.one_pos, Nat.succ_pos 3⟩

def Options.nextDelay (opts : Options) (delay : ℕ) : ℕ :=
  if opts.reconnectBackoff then min (2 * delay) durationMax else delay

/-- The frames handed to the write task. A `SUB` is marked with the channel it is for. -/
inductive Sent where
  | pub
  | sub (corrId channel : ℕ)
  | unsub (subId : ℕ)
  | ping (corrId : ℕ)
  | pong
deriving DecidableEq

/-- The read task: between two frames, in `dispatch_msg` with the maps locked, before the
send of a `PONG`, or gone. -/
inductive Reader (M : Type) where
  | idle
  | forwarding (channel subId : ℕ) (message : M)
  | answering
  | ended
deriving DecidableEq

variable {M : Type}

/-- The write task takes the frames in the order of `sent`; `written` of them are out. -/
structure Connection (M : Type) where
  connected : Bool
  subCounter : ℕ
  maps : ConnState ℕ ℕ
  reader : Reader M
  sent : List Sent
  written : ℕ
  -- whether `write_tx` is there, and whether the write task still runs
  sender : Bool
  writing : Bool
  -- the oneshots that were resolved
  subacks : Table ℕ ℕ
  pongs : List ℕ

namespace Connection

def connect : Connection M := ⟨true, 1, .new, .idle, [], 0, true, true, ∅, []⟩

def broken (conn : Connection M) : Bool := !(conn.sender && conn.writing)

def full (opts : Options) (conn : Connection M) : Bool :=
  decide (opts.writeBuffer ≤ conn.sent.length - conn.written)

def post (conn : Connection M) (frame : Sent) : Connection M :=
  { conn with sent := conn.sent ++ [frame] }

def mapsFree (conn : Connection M) : Bool :=
  match conn.reader with
  | .forwarding _ _ _ => false
  | _ => true

def setMaps (conn : Connection M) (maps : ConnState ℕ ℕ) : Connection M :=
  { conn with maps := maps }

def count (conn : Connection M) : Connection M :=
  { conn with subCounter := conn.subCounter + 1 }

def shut (conn : Connection M) : Connection M :=
  { conn with connected := false, sender := false, reader := .ended }

def drained (conn : Connection M) : Bool :=
  !conn.writing || decide (conn.sent.length ≤ conn.written)

def perform (conn : Connection M) : Option (Effect ℕ ℕ M) → Connection M
  | some (.subscribed tx subId) => { conn with subacks := conn.subacks.insert tx subId }
  | some (.flushed tx) => { conn with pongs := conn.pongs ++ [tx] }
  | some .sendPong => { conn with reader := .answering }
  | _ => conn

def take (conn : Connection M) : Inbound M → Connection M
  | .msg subId message =>
    match conn.maps.subscriptions.lookup subId with
    | none => conn
    | some channel => { conn with reader := .forwarding channel subId message }
  | frame =>
    let (maps, effect) := conn.maps.handle (fun _ => false) frame
    (conn.setMaps maps).perform effect

end Connection

theorem take_suback (conn : Connection M) (corrId subId : ℕ) :
    conn.take (.suback corrId subId) = { conn with
      maps := { conn.maps with pendingSubs := conn.maps.pendingSubs.erase corrId }
      subacks := match conn.maps.pendingSubs.lookup corrId with
        | none => conn.subacks
        | some tx => conn.subacks.insert tx subId } := by
  simp only [Connection.take, ConnState.handle]
  cases conn.maps.pendingSubs.lookup corrId <;> rfl

theorem take_pong (conn : Connection M) (corrId : ℕ) :
    conn.take (.pong corrId) = { conn with
      maps := (conn.maps.resolveFlush corrId).1
      pongs := conn.pongs ++ (conn.maps.resolveFlush corrId).2.toList } := by
  simp only [Connection.take, ConnState.handle]
  cases (conn.maps.resolveFlush corrId).2 with
  | none => simp [Connection.perform, Connection.setMaps]
  | some tx => rfl

inductive Took (conn : Connection M) : Inbound M → Connection M → Prop
  | ignores (frame : Inbound M) : Took conn frame conn
  | holds (message : M) {subId channel : ℕ}
    (entry : conn.maps.subscriptions.lookup subId = some channel) :
    Took conn (.msg subId message) { conn with reader := .forwarding channel subId message }
  | strays (corrId subId : ℕ) : Took conn (.suback corrId subId)
    { conn with maps := { conn.maps with pendingSubs := conn.maps.pendingSubs.erase corrId } }
  | acks {corrId tx : ℕ} (subId : ℕ) (pending : conn.maps.pendingSubs.lookup corrId = some tx) :
    Took conn (.suback corrId subId) { conn with
      maps := { conn.maps with pendingSubs := conn.maps.pendingSubs.erase corrId }
      subacks := conn.subacks.insert tx subId }
  | resolves (corrId : ℕ) : Took conn (.pong corrId) { conn with
    maps := (conn.maps.resolveFlush corrId).1
    pongs := conn.pongs ++ (conn.maps.resolveFlush corrId).2.toList }
  | answers : Took conn .ping { conn with reader := .answering }

theorem took (conn : Connection M) (frame : Inbound M) : Took conn frame (conn.take frame) := by
  cases frame with
  | msg subId message =>
    rw [Connection.take]
    split
    · exact .ignores _
    · rename_i entry
      exact .holds message entry
  | suback corrId subId =>
    rw [take_suback]
    split
    · exact .strays corrId subId
    · rename_i pending
      exact .acks subId pending
  | pong corrId =>
    rw [take_pong]
    exact .resolves corrId
  | ping => exact .answers
  | other => exact .ignores _

structure ClientState (M : Type) where
  conn : Connection M
  record : ClientSubscriptions.Client
  closed : Bool
  -- how many channels were made, what is in them, and whose receiver is gone
  channels : ℕ
  queues : ℕ → List M
  dropped : List ℕ

namespace ClientState

def start : ClientState M := ⟨.connect, ⟨∅⟩, false, 0, fun _ => [], []⟩

def setConn (s : ClientState M) (conn : Connection M) : ClientState M := { s with conn := conn }

end ClientState

/-- The calls that make sure of the connection before they use it. -/
inductive Call where
  | publish
  | subscribe (subject : Str) (queueGroup : Option Str) (trackReconnect : Bool)
  | flush
deriving DecidableEq

inductive Outcome where
  | ok
  | error
  | subscribed (id channel : ℕ)
  | flushed (corrId : ℕ)
  -- the future was dropped before it was done
  | cancelled
deriving DecidableEq

/-- What `subscribe_send` is part of: a call, or the replay of the record on a new
connection, with the entries still to be done and the ids assigned so far. -/
inductive Purpose where
  | fresh (subject : Str) (queueGroup : Option Str) (trackReconnect : Bool)
  | replay (who : Option Call) (stableId : ℕ) (todo : List (Σ _ : ℕ, ActiveSubscription))
      (remapped : List (ℕ × ℕ))
deriving DecidableEq

/-- Where a task stands, named by what it does next. `who` is the call that reconnects, none
for the loop in the background. -/
inductive Stage where
  | polling
  | checking (who : Option Call)
  | sleeping (who : Option Call) (attempt delay : ℕ)
  | attempting (who : Option Call) (attempt delay : ℕ)
  | locking (call : Call)
  | taking (id channel : ℕ)
  | leaving (subId channel : ℕ)
  | swapping
  | closing
  -- the stages with the connection locked
  | sendingPub
  | registering (corrId channel : ℕ) (purpose : Purpose)
  | sendingSub (corrId channel : ℕ) (purpose : Purpose)
  | awaitingSuback (corrId channel : ℕ) (purpose : Purpose)
  | entering (corrId subId channel : ℕ) (purpose : Purpose)
  | recording (subId channel : ℕ) (subject : Str) (queueGroup : Option Str)
  | joining (corrId : ℕ)
  | sendingPing (corrId : ℕ)
  | awaitingPong (corrId : ℕ)
  | forgetting (corrId : ℕ)
  | sendingUnsub (subId channel : ℕ)
  | removing (subId channel : ℕ)
  | shutting (attempt : Option (Option Call × ℕ × ℕ))
  | connecting (who : Option Call) (attempt delay : ℕ)
  | copying (who : Option Call)
  | remapping (who : Option Call) (remapped : List (ℕ × ℕ))
  | returned (outcome : Outcome)
deriving DecidableEq

namespace Stage

/-- The next step takes the lock of the connection. -/
def waits : Stage → Bool
  | checking _ | attempting _ _ _ | locking _ | leaving _ _ | closing => true
  | _ => false

def inside : Stage → Bool
  | polling | checking _ | sleeping _ _ _ | attempting _ _ _ | locking _ | taking _ _
  | leaving _ _ | swapping | closing | returned _ => false
  | _ => true

def resume : Option Call → Stage
  | none => polling
  | some call => locking call

def giveUp : Option Call → Stage
  | none => polling
  | some _ => returned .error

def attempt (opts : Options) (who : Option Call) (attempt delay : ℕ) : Stage :=
  if attempt < opts.maxReconnectAttempts then
    if who.isNone || decide (0 < attempt) then sleeping who attempt delay
    else attempting who attempt delay
  else giveUp who

def unclaimed : Stage → Option ℕ
  | registering _ channel (.fresh _ _ _) | sendingSub _ channel (.fresh _ _ _)
  | awaitingSuback _ channel (.fresh _ _ _) | entering _ _ channel (.fresh _ _ _)
  | recording _ channel _ _ => some channel
  | _ => none

def replays : Stage → Bool
  | copying _ | remapping _ _ | registering _ _ (.replay _ _ _ _)
  | sendingSub _ _ (.replay _ _ _ _) | awaitingSuback _ _ (.replay _ _ _ _)
  | entering _ _ _ (.replay _ _ _ _) => true
  | _ => false

end Stage

/-- What a step depends on beside the state: the time of a flush is over, an attempt to
connect ends, the record is read in some order. -/
inductive Choice where
  | go
  | expire
  | refused
  | accepted
  | visit (order : IterOrder ℕ ActiveSubscription)

namespace ClientState

def replay (s : ClientState M) (who : Option Call) :
    List (Σ _ : ℕ, ActiveSubscription) → List (ℕ × ℕ) → ClientState M × Stage
  | [], remapped => (s, .remapping who remapped)
  | entry :: todo, remapped =>
    (s.setConn s.conn.count,
      .registering s.conn.subCounter entry.2.tx (.replay who entry.1 todo remapped))

def begin (s : ClientState M) : Call → ClientState M × Stage
  | .publish => (s, .sendingPub)
  | .subscribe subject queueGroup trackReconnect =>
    ({ s.setConn s.conn.count with channels := s.channels + 1 },
      .registering s.conn.subCounter s.channels (.fresh subject queueGroup trackReconnect))
  | .flush => (s.setConn s.conn.count, .joining s.conn.subCounter)

def subscribed (s : ClientState M) (subId channel : ℕ) : Purpose → ClientState M × Stage
  | .fresh subject queueGroup true => (s, .recording subId channel subject queueGroup)
  | .fresh _ _ false => (s, .returned (.subscribed subId channel))
  | .replay who stableId todo remapped => s.replay who todo (remapped ++ [(stableId, subId)])

def unsubscribed (s : ClientState M) (channel : ℕ) : Purpose → ClientState M × Stage
  | .fresh _ _ _ => ({ s with dropped := s.dropped ++ [channel] }, .returned .error)
  | .replay who _ _ _ => (s, .giveUp who)

def send (opts : Options) (s : ClientState M) (frame : Sent) (sent : Stage)
    (failed : ClientState M × Stage) : Option (ClientState M × Stage) :=
  if s.conn.broken then some failed
  else if s.conn.full opts then none
  else some (s.setConn (s.conn.post frame), sent)

def onMaps (s : ClientState M) (change : ConnState ℕ ℕ → ConnState ℕ ℕ)
    (next : ClientState M → ClientState M × Stage) : Option (ClientState M × Stage) :=
  if s.conn.mapsFree then some (next (s.setConn (s.conn.setMaps (change s.conn.maps)))) else none

end ClientState

def work (opts : Options) (s : ClientState M) : Stage → Choice → Option (ClientState M × Stage)
  | .polling, .go => some (s, if s.closed then .returned .ok else .checking none)
  | .checking who, .go =>
    some (s, if s.conn.connected then .resume who
      else .attempt opts who 0 opts.reconnectDelay)
  | .sleeping who attempt delay, .go => some (s, .attempting who attempt delay)
  | .attempting who attempt delay, .go =>
    if s.conn.connected then some (s, .resume who)
    else some (s.setConn s.conn.shut, .shutting (some (who, attempt, delay)))
  | .locking call, .go => some (s.begin call)
  | .taking id channel, .go =>
    let (record, target) := s.record.unsubscribe id
    some ({ s with record := record }, .leaving target channel)
  | .leaving subId channel, .go => some (s, .sendingUnsub subId channel)
  | .swapping, .go =>
    if s.closed then some (s, .returned .ok) else some ({ s with closed := true }, .closing)
  | .closing, .go => some (s.setConn s.conn.shut, .shutting none)
  | .sendingPub, .go => s.send opts .pub (.returned .ok) (s, .returned .error)
  | .registering corrId channel purpose, .go =>
    s.onMaps (fun maps => { maps with pendingSubs := maps.pendingSubs.insert corrId corrId })
      (·, .sendingSub corrId channel purpose)
  | .sendingSub corrId channel purpose, .go =>
    s.send opts (.sub corrId channel) (.awaitingSuback corrId channel purpose)
      (s.unsubscribed channel purpose)
  | .awaitingSuback corrId channel purpose, .go =>
    (s.conn.subacks.lookup corrId).map fun subId => (s, .entering corrId subId channel purpose)
  | .entering _ subId channel purpose, .go =>
    s.onMaps (fun maps => { maps with subscriptions := maps.subscriptions.insert subId channel })
      (·.subscribed subId channel purpose)
  | .recording subId channel subject queueGroup, .go =>
    some ({ s with record := s.record.subscribeInternal subject queueGroup true subId channel },
      .returned (.subscribed subId channel))
  | .joining corrId, .go =>
    s.onMaps (fun maps => { maps with pendingFlush := maps.pendingFlush.insert corrId corrId })
      (·, .sendingPing corrId)
  | .sendingPing corrId, .go =>
    s.send opts (.ping corrId) (.awaitingPong corrId) (s, .forgetting corrId)
  | .awaitingPong corrId, .go =>
    if corrId ∈ s.conn.pongs then some (s, .returned (.flushed corrId)) else none
  | .awaitingPong corrId, .expire =>
    if corrId ∈ s.conn.pongs then none else some (s, .forgetting corrId)
  | .forgetting corrId, .go =>
    s.onMaps (fun maps => { maps with pendingFlush := maps.pendingFlush.erase corrId })
      (·, .returned .error)
  | .sendingUnsub subId channel, .go =>
    s.send opts (.unsub subId) (.removing subId channel) (s, .returned .error)
  | .removing subId _, .go =>
    s.onMaps (fun maps => { maps with subscriptions := maps.subscriptions.erase subId })
      (·, .returned .ok)
  | .shutting none, .go =>
    if s.conn.drained then some (s.setConn { s.conn with writing := false }, .returned .ok)
    else none
  | .shutting (some (who, attempt, delay)), .go =>
    if s.conn.drained then
      some (s.setConn { s.conn with writing := false }, .connecting who attempt delay)
    else none
  | .connecting who attempt delay, .refused =>
    some (s, .attempt opts who (attempt + 1) (opts.nextDelay delay))
  | .connecting who _ _, .accepted => some (s.setConn .connect, .copying who)
  | .copying who, .visit order => some (s.replay who (order.visit s.record.subscriptions) [])
  | .remapping who remapped, .go =>
    some ({ s with record := ⟨Client.remap s.record.subscriptions remapped⟩ }, .resume who)
  | _, _ => none

/-- What happens beside the calls. A frame that `dispatch_msg` cannot slice ends the read
task and leaves `connected` as it is. -/
inductive Net (M : Type) where
  | read (frame : Inbound M)
  | endOfStream
  | panic
  | forward
  | answer
  | write
  | writeFailed
  | receive (channel : ℕ)
  | drop (channel : ℕ)

namespace ClientState

def forward (opts : Options) (s : ClientState M) : ClientState M :=
  match s.conn.reader with
  | .forwarding channel subId message =>
    if channel ∈ s.dropped then
      s.setConn { s.conn with
        maps := { s.conn.maps with subscriptions := s.conn.maps.subscriptions.erase subId }
        reader := .idle }
    else if (s.queues channel).length < opts.subBuffer then
      { s.setConn { s.conn with reader := .idle } with
        queues := Function.update s.queues channel (s.queues channel ++ [message]) }
    else s
  | _ => s

def passing (opts : Options) (s : ClientState M) : Option ℕ :=
  match s.conn.reader with
  | .forwarding channel _ _ =>
    if channel ∉ s.dropped ∧ (s.queues channel).length < opts.subBuffer then some channel else none
  | _ => none

def answer (opts : Options) (s : ClientState M) : ClientState M :=
  match s.conn.reader with
  | .answering =>
    if !s.conn.writing then s.setConn { s.conn with reader := .idle }
    else if s.conn.full opts then s
    else s.setConn { s.conn.post .pong with reader := .idle }
  | _ => s

def reading (s : ClientState M) : Bool :=
  match s.conn.reader with
  | .idle => true
  | _ => false

def net (opts : Options) (s : ClientState M) : Net M → ClientState M
  | .read frame => if s.reading then s.setConn (s.conn.take frame) else s
  | .endOfStream =>
    if s.reading then s.setConn { s.conn with connected := false, reader := .ended } else s
  | .panic => if s.reading then s.setConn { s.conn with reader := .ended } else s
  | .forward => s.forward opts
  | .answer => s.answer opts
  | .write =>
    if s.conn.writing && decide (s.conn.written < s.conn.sent.length) then
      s.setConn { s.conn with written := s.conn.written + 1 }
    else s
  | .writeFailed => s.setConn { s.conn with connected := false, writing := false }
  | .receive channel =>
    { s with queues := Function.update s.queues channel (s.queues channel).tail }
  | .drop channel => { s with dropped := s.dropped ++ [channel] }

end ClientState

theorem reading_idle {s : ClientState M} (reading : s.reading = true) : s.conn.reader = .idle := by
  rw [ClientState.reading] at reading
  split at reading
  · assumption
  · cases reading

def Stage.outer : Stage → Bool
  | .polling | .checking _ | .sleeping _ _ _ | .attempting _ _ _ | .locking _
  | .returned .ok | .returned .error => true
  | _ => false

def Stage.idle : Stage → Bool
  | .polling | .checking _ | .sleeping _ _ _ | .attempting _ _ _ | .swapping | .sendingPub
  | .sendingUnsub _ _ | .connecting _ _ _ => true
  | _ => false

theorem resume_outer (who : Option Call) : (Stage.resume who).outer = true := by
  cases who <;> rfl

theorem giveUp_outer (who : Option Call) : (Stage.giveUp who).outer = true := by
  cases who <;> rfl

theorem attempt_outer (opts : Options) (who : Option Call) (attempt delay : ℕ) :
    (Stage.attempt opts who attempt delay).outer = true := by
  rw [Stage.attempt]
  split_ifs
  exacts [rfl, rfl, giveUp_outer who]

theorem outer_outside {stage : Stage} (outer : stage.outer = true) : stage.inside = false := by
  cases stage <;> first | rfl | cases outer

inductive Worked (opts : Options) (s : ClientState M) (choice : Choice) :
    Stage → ClientState M → Stage → Prop
  | wanders {stage stage' : Stage} (was : stage.idle = true) (next : stage'.outer = true) :
      Worked opts s choice stage s stage'
  | closes : Worked opts s choice .swapping { s with closed := true } .closing
  | publishes : Worked opts s choice (.locking .publish) s .sendingPub
  | subscribes (subject : Str) (queueGroup : Option Str) (trackReconnect : Bool) :
      Worked opts s choice (.locking (.subscribe subject queueGroup trackReconnect))
        { s.setConn s.conn.count with channels := s.channels + 1 }
        (.registering s.conn.subCounter s.channels (.fresh subject queueGroup trackReconnect))
  | flushes :
      Worked opts s choice (.locking .flush) (s.setConn s.conn.count) (.joining s.conn.subCounter)
  | takes (id channel : ℕ) :
      Worked opts s choice (.taking id channel) { s with record := (s.record.unsubscribe id).1 }
        (.leaving (s.record.unsubscribe id).2 channel)
  | leaves (subId channel : ℕ) :
      Worked opts s choice (.leaving subId channel) s (.sendingUnsub subId channel)
  | shuts {stage : Stage} (waits : stage.waits = true)
      (attempt : Option (Option Call × ℕ × ℕ)) :
      Worked opts s choice stage (s.setConn s.conn.shut) (.shutting attempt)
  | drains (attempt : Option (Option Call × ℕ × ℕ)) (drained : s.conn.drained = true)
      {stage' : Stage} (next : stage' = .returned .ok ∨ ∃ who k delay,
        attempt = some (who, k, delay) ∧ stage' = .connecting who k delay) :
      Worked opts s choice (.shutting attempt) (s.setConn { s.conn with writing := false }) stage'
  | accepted (who : Option Call) (attempt delay : ℕ) (chosen : choice = .accepted) :
      Worked opts s choice (.connecting who attempt delay) (s.setConn .connect) (.copying who)
  | copies (who : Option Call) (order : IterOrder ℕ ActiveSubscription)
      {todo : List (Σ _ : ℕ, ActiveSubscription)}
      (visits : todo = order.visit s.record.subscriptions) :
      Worked opts s choice (.copying who) (s.replay who todo []).1 (s.replay who todo []).2
  | remaps (who : Option Call) (remapped : List (ℕ × ℕ)) :
      Worked opts s choice (.remapping who remapped)
        { s with record := ⟨Client.remap s.record.subscriptions remapped⟩ } (.resume who)
  | sendsPub (up : s.conn.broken = false) (room : s.conn.full opts = false) :
      Worked opts s choice .sendingPub (s.setConn (s.conn.post .pub)) (.returned .ok)
  | registers (corrId channel : ℕ) (purpose : Purpose) (free : s.conn.mapsFree = true) :
      Worked opts s choice (.registering corrId channel purpose)
        (s.setConn (s.conn.setMaps { s.conn.maps with
          pendingSubs := s.conn.maps.pendingSubs.insert corrId corrId }))
        (.sendingSub corrId channel purpose)
  | sendsSub (corrId channel : ℕ) (purpose : Purpose) (up : s.conn.broken = false)
      (room : s.conn.full opts = false) :
      Worked opts s choice (.sendingSub corrId channel purpose)
        (s.setConn (s.conn.post (.sub corrId channel))) (.awaitingSuback corrId channel purpose)
  | failsSub (corrId channel : ℕ) (purpose : Purpose) (down : s.conn.broken = true) :
      Worked opts s choice (.sendingSub corrId channel purpose) (s.unsubscribed channel purpose).1
        (s.unsubscribed channel purpose).2
  | acked (corrId subId channel : ℕ) (purpose : Purpose)
      (found : s.conn.subacks.lookup corrId = some subId) :
      Worked opts s choice (.awaitingSuback corrId channel purpose) s
        (.entering corrId subId channel purpose)
  | enters (corrId subId channel : ℕ) (purpose : Purpose) (free : s.conn.mapsFree = true)
      {s₁ : ClientState M} (entered : s₁ = s.setConn (s.conn.setMaps { s.conn.maps with
        subscriptions := s.conn.maps.subscriptions.insert subId channel })) :
      Worked opts s choice (.entering corrId subId channel purpose)
        (s₁.subscribed subId channel purpose).1 (s₁.subscribed subId channel purpose).2
  | records (subId channel : ℕ) (subject : Str) (queueGroup : Option Str) :
      Worked opts s choice (.recording subId channel subject queueGroup)
        { s with record := s.record.subscribeInternal subject queueGroup true subId channel }
        (.returned (.subscribed subId channel))
  | joins (corrId : ℕ) (free : s.conn.mapsFree = true) :
      Worked opts s choice (.joining corrId)
        (s.setConn (s.conn.setMaps { s.conn.maps with
          pendingFlush := s.conn.maps.pendingFlush.insert corrId corrId }))
        (.sendingPing corrId)
  | sendsPing (corrId : ℕ) (up : s.conn.broken = false) (room : s.conn.full opts = false) :
      Worked opts s choice (.sendingPing corrId) (s.setConn (s.conn.post (.ping corrId)))
        (.awaitingPong corrId)
  | failsPing (corrId : ℕ) (down : s.conn.broken = true) :
      Worked opts s choice (.sendingPing corrId) s (.forgetting corrId)
  | flushed (corrId : ℕ) (member : corrId ∈ s.conn.pongs) :
      Worked opts s choice (.awaitingPong corrId) s (.returned (.flushed corrId))
  | expires (corrId : ℕ) (waiting : corrId ∉ s.conn.pongs) :
      Worked opts s choice (.awaitingPong corrId) s (.forgetting corrId)
  | forgets (corrId : ℕ) (free : s.conn.mapsFree = true) :
      Worked opts s choice (.forgetting corrId)
        (s.setConn (s.conn.setMaps { s.conn.maps with
          pendingFlush := s.conn.maps.pendingFlush.erase corrId }))
        (.returned .error)
  | sendsUnsub (subId channel : ℕ) (up : s.conn.broken = false)
      (room : s.conn.full opts = false) :
      Worked opts s choice (.sendingUnsub subId channel) (s.setConn (s.conn.post (.unsub subId)))
        (.removing subId channel)
  | removes (subId channel : ℕ) (free : s.conn.mapsFree = true) :
      Worked opts s choice (.removing subId channel)
        (s.setConn (s.conn.setMaps { s.conn.maps with
          subscriptions := s.conn.maps.subscriptions.erase subId }))
        (.returned .ok)

section
variable {opts : Options} {s s' : ClientState M} {stage stage' : Stage} {choice : Choice}

theorem send_eq_some {frame : Sent} {sent : Stage} {failed result : ClientState M × Stage}
    (step : s.send opts frame sent failed = some result) :
    s.conn.broken = true ∧ result = failed ∨
      s.conn.broken = false ∧ s.conn.full opts = false ∧
        result = (s.setConn (s.conn.post frame), sent) := by
  rw [ClientState.send] at step
  split_ifs at step with down room
  · exact .inl ⟨down, (Option.some.inj step).symm⟩
  · exact .inr ⟨by simpa using down, by simpa using room, (Option.some.inj step).symm⟩

theorem onMaps_eq_some {change : ConnState ℕ ℕ → ConnState ℕ ℕ}
    {next : ClientState M → ClientState M × Stage} {result : ClientState M × Stage}
    (step : s.onMaps change next = some result) :
    s.conn.mapsFree = true ∧ result = next (s.setConn (s.conn.setMaps (change s.conn.maps))) := by
  rw [ClientState.onMaps] at step
  split_ifs at step with free
  exact ⟨free, (Option.some.inj step).symm⟩

theorem worked_of_eq {result : ClientState M × Stage} (same : result = (s', stage'))
    (worked : Worked opts s choice stage result.1 result.2) :
    Worked opts s choice stage s' stage' := by
  cases same
  exact worked

theorem worked_of_begin (call : Call) :
    Worked opts s choice (.locking call) (s.begin call).1 (s.begin call).2 := by
  cases call with
  | publish => exact .publishes
  | subscribe subject queueGroup trackReconnect =>
    exact .subscribes subject queueGroup trackReconnect
  | flush => exact .flushes

theorem worked_of_work (step : work opts s stage choice = some (s', stage')) :
    Worked opts s choice stage s' stage' := by
  cases stage with
  | polling =>
    cases choice <;> cases step
    exact .wanders rfl (by split <;> rfl)
  | checking who =>
    cases choice <;> cases step
    refine .wanders rfl ?_
    split
    exacts [resume_outer who, attempt_outer opts who 0 _]
  | sleeping who attempt delay =>
    cases choice <;> cases step
    exact .wanders rfl rfl
  | attempting who attempt delay =>
    cases choice <;> try cases step
    rw [work] at step
    split_ifs at step <;> cases step
    exacts [.wanders rfl (resume_outer who), .shuts rfl _]
  | locking call =>
    cases choice <;> try cases step
    exact worked_of_eq (Option.some.inj step) (worked_of_begin call)
  | taking id channel =>
    cases choice <;> cases step
    exact .takes id channel
  | leaving subId channel =>
    cases choice <;> cases step
    exact .leaves subId channel
  | swapping =>
    cases choice <;> try cases step
    rw [work] at step
    split_ifs at step <;> cases step
    exacts [.wanders rfl rfl, .closes]
  | closing =>
    cases choice <;> cases step
    exact .shuts rfl none
  | sendingPub =>
    cases choice <;> try cases step
    rcases send_eq_some step with ⟨down, same⟩ | ⟨up, room, same⟩ <;> cases same
    exacts [.wanders rfl rfl, .sendsPub up room]
  | registering corrId channel purpose =>
    cases choice <;> try cases step
    rw [work] at step
    obtain ⟨free, same⟩ := onMaps_eq_some step
    cases same
    exact .registers corrId channel purpose free
  | sendingSub corrId channel purpose =>
    cases choice <;> try cases step
    rcases send_eq_some step with ⟨down, same⟩ | ⟨up, room, same⟩
    · exact worked_of_eq same.symm (.failsSub corrId channel purpose down)
    · cases same
      exact .sendsSub corrId channel purpose up room
  | awaitingSuback corrId channel purpose =>
    cases choice <;> try cases step
    obtain ⟨subId, found, same⟩ := Option.map_eq_some_iff.mp step
    cases same
    exact .acked corrId subId channel purpose found
  | entering corrId subId channel purpose =>
    cases choice <;> try cases step
    rw [work] at step
    obtain ⟨free, same⟩ := onMaps_eq_some step
    exact worked_of_eq same.symm (.enters corrId subId channel purpose free rfl)
  | recording subId channel subject queueGroup =>
    cases choice <;> cases step
    exact .records subId channel subject queueGroup
  | joining corrId =>
    cases choice <;> try cases step
    rw [work] at step
    obtain ⟨free, same⟩ := onMaps_eq_some step
    cases same
    exact .joins corrId free
  | sendingPing corrId =>
    cases choice <;> try cases step
    rcases send_eq_some step with ⟨down, same⟩ | ⟨up, room, same⟩ <;> cases same
    exacts [.failsPing corrId down, .sendsPing corrId up room]
  | awaitingPong corrId =>
    cases choice <;> try cases step
    all_goals
      rw [work] at step
      split_ifs at step with member
      cases step
    exacts [.flushed corrId member, .expires corrId member]
  | forgetting corrId =>
    cases choice <;> try cases step
    rw [work] at step
    obtain ⟨free, same⟩ := onMaps_eq_some step
    cases same
    exact .forgets corrId free
  | sendingUnsub subId channel =>
    cases choice <;> try cases step
    rcases send_eq_some step with ⟨down, same⟩ | ⟨up, room, same⟩ <;> cases same
    exacts [.wanders rfl rfl, .sendsUnsub subId channel up room]
  | removing subId channel =>
    cases choice <;> try cases step
    rw [work] at step
    obtain ⟨free, same⟩ := onMaps_eq_some step
    cases same
    exact .removes subId channel free
  | shutting attempt =>
    cases choice <;> rcases attempt with _ | ⟨who, k, delay⟩ <;> try cases step
    all_goals
      rw [work] at step
      split_ifs at step with drained
      cases step
    exacts [.drains _ drained (.inl rfl), .drains _ drained (.inr ⟨who, k, delay, rfl, rfl⟩)]
  | connecting who attempt delay =>
    cases choice <;> cases step
    exacts [.wanders rfl (attempt_outer opts who _ _), .accepted who attempt delay rfl]
  | copying who =>
    cases choice <;> try cases step
    exact worked_of_eq (Option.some.inj step) (.copies who _ rfl)
  | remapping who remapped =>
    cases choice <;> cases step
    exact .remaps who remapped
  | returned outcome => cases choice <;> cases step

theorem work_enters (step : work opts s stage choice = some (s', stage'))
    (inside : stage'.inside = true) : stage.waits = true ∨ stage.inside = true := by
  cases stage with
  | polling | sleeping who attempt delay | taking id channel | swapping =>
    have outside : stage'.inside = false := by
      cases worked_of_work step with
      | wanders was next => exact outer_outside next
      | shuts waits => cases waits
      | _ => rfl
    rw [outside] at inside
    cases inside
  | returned outcome => cases choice <;> cases step
  | checking _ | attempting _ _ _ | locking _ | leaving _ _ | closing => exact .inl rfl
  | _ => exact .inr rfl

end

inductive Forwards (opts : Options) (s : ClientState M) : ClientState M → Option ℕ → Prop
  | waits : Forwards opts s s none
  | fails (channel subId : ℕ) (message : M)
      (reading : s.conn.reader = .forwarding channel subId message) (gone : channel ∈ s.dropped) :
      Forwards opts s (s.setConn { s.conn with
        maps := { s.conn.maps with subscriptions := s.conn.maps.subscriptions.erase subId }
        reader := .idle }) none
  | passes (channel subId : ℕ) (message : M)
      (reading : s.conn.reader = .forwarding channel subId message) (live : channel ∉ s.dropped)
      (room : (s.queues channel).length < opts.subBuffer) :
      Forwards opts s { s.setConn { s.conn with reader := .idle } with
        queues := Function.update s.queues channel (s.queues channel ++ [message]) } (some channel)

theorem forwards (opts : Options) (s : ClientState M) :
    Forwards opts s (s.forward opts) (s.passing opts) := by
  rw [ClientState.forward, ClientState.passing]
  split
  · rename_i channel subId message reading
    by_cases gone : channel ∈ s.dropped
    · rw [if_pos gone, if_neg fun both => both.1 gone]
      exact .fails channel subId message reading gone
    · rw [if_neg gone]
      split_ifs with room both both
      · exact .passes channel subId message reading gone room
      · exact absurd ⟨gone, room⟩ both
      · exact absurd both.2 room
      · exact .waits
  · exact .waits

/-- What the surroundings of the calls can do, with the guards that they have passed. -/
inductive Stirred (opts : Options) (s : ClientState M) : Net M → ClientState M → Prop
  | rests (event : Net M) : Stirred opts s event s
  | reads (frame : Inbound M) (idle : s.conn.reader = .idle) :
    Stirred opts s (.read frame) (s.setConn (s.conn.take frame))
  | closes (idle : s.conn.reader = .idle) :
    Stirred opts s .endOfStream (s.setConn { s.conn with connected := false, reader := .ended })
  | panics (idle : s.conn.reader = .idle) :
    Stirred opts s .panic (s.setConn { s.conn with reader := .ended })
  | forwards {s' : ClientState M} {passed : Option ℕ} (sends : Forwards opts s s' passed) :
    Stirred opts s .forward s'
  | declines (answering : s.conn.reader = .answering) :
    Stirred opts s .answer (s.setConn { s.conn with reader := .idle })
  | answers (answering : s.conn.reader = .answering) :
    Stirred opts s .answer (s.setConn { s.conn.post .pong with reader := .idle })
  | writes : Stirred opts s .write (s.setConn { s.conn with written := s.conn.written + 1 })
  | breaks : Stirred opts s .writeFailed
    (s.setConn { s.conn with connected := false, writing := false })
  | receives (channel : ℕ) : Stirred opts s (.receive channel)
    { s with queues := Function.update s.queues channel (s.queues channel).tail }
  | drops (channel : ℕ) :
    Stirred opts s (.drop channel) { s with dropped := s.dropped ++ [channel] }

theorem stirred (opts : Options) (s : ClientState M) (event : Net M) :
    Stirred opts s event (s.net opts event) := by
  cases event with
  | read frame =>
    rw [ClientState.net]
    split_ifs with reading
    exacts [.reads frame (reading_idle reading), .rests _]
  | endOfStream =>
    rw [ClientState.net]
    split_ifs with reading
    exacts [.closes (reading_idle reading), .rests _]
  | panic =>
    rw [ClientState.net]
    split_ifs with reading
    exacts [.panics (reading_idle reading), .rests _]
  | forward => exact .forwards (forwards opts s)
  | answer =>
    rw [ClientState.net, ClientState.answer]
    split
    · rename_i answering
      split_ifs
      exacts [.declines answering, .rests _, .answers answering]
    · exact .rests _
  | write =>
    rw [ClientState.net]
    split_ifs
    exacts [.writes, .rests _]
  | writeFailed => exact .breaks
  | receive channel => exact .receives channel
  | drop channel => exact .drops channel

section
variable {opts : Options} {s s' : ClientState M} {stage stage' : Stage} {choice : Choice}

theorem worked_sent (worked : Worked opts s choice stage s' stage') :
    s.conn.sent <+: s'.conn.sent ∨ choice = .accepted := by
  have still : s.conn.sent <+: s.conn.sent := List.prefix_rfl
  cases worked with
  | accepted who attempt delay chosen => exact .inr chosen
  | sendsPub | sendsSub | sendsPing | sendsUnsub => exact .inl (List.prefix_append _ _)
  | @copies who order todo => cases todo <;> exact .inl still
  | failsSub corrId channel purpose => cases purpose <;> exact .inl still
  | enters corrId subId channel purpose free entered =>
    subst entered
    rcases purpose with ⟨_, _, _ | _⟩ | ⟨_, _, _ | _, _⟩ <;> exact .inl still
  | _ => exact .inl still

theorem worked_reader (worked : Worked opts s choice stage s' stage') :
    s'.conn.reader = s.conn.reader ∨ s'.conn.reader = .ended ∨ choice = .accepted := by
  cases worked with
  | shuts => exact .inr (.inl rfl)
  | accepted who attempt delay chosen => exact .inr (.inr chosen)
  | @copies who order todo => cases todo <;> exact .inl rfl
  | failsSub corrId channel purpose => cases purpose <;> exact .inl rfl
  | enters corrId subId channel purpose free entered =>
    subst entered
    rcases purpose with ⟨_, _, _ | _⟩ | ⟨_, _, _ | _, _⟩ <;> exact .inl rfl
  | _ => exact .inl rfl

theorem take_sent (conn : Connection M) (frame : Inbound M) :
    (conn.take frame).sent = conn.sent := by
  have took := took conn frame
  generalize conn.take frame = conn' at took ⊢
  cases took <;> rfl

theorem take_running {conn : Connection M} {frame : Inbound M} (idle : conn.reader = .idle) :
    (conn.take frame).reader ≠ .ended := by
  have took := took conn frame
  generalize conn.take frame = conn' at took ⊢
  intro ended
  cases took with
  | holds | answers => cases ended
  | _ => cases idle.symm.trans ended

theorem net_sent (opts : Options) (s : ClientState M) (event : Net M) :
    s.conn.sent <+: (s.net opts event).conn.sent := by
  have stirred := stirred opts s event
  generalize s.net opts event = s' at stirred ⊢
  cases stirred with
  | reads frame => exact (take_sent s.conn frame).symm ▸ List.prefix_rfl
  | forwards sends => cases sends <;> exact List.prefix_rfl
  | answers => exact List.prefix_append _ _
  | _ => exact List.prefix_rfl

end

def program (opts : Options) : Program (ClientState M) Stage Choice :=
  ⟨Stage.waits, Stage.inside, work opts, work_enters⟩

inductive Request where
  | call (call : Call)
  | unsubscribe (i : ℕ)
  | close

inductive Event (M : Type) where
  | request (request : Request)
  | advance (i : ℕ) (choice : Choice)
  | cancel (i : ℕ)
  | net (event : Net M)

abbrev Client (M : Type) := Tasks (ClientState M) Stage

namespace Client

def start (opts : Options) : Client M :=
  ⟨.start, if opts.reconnectEnabled then [.polling] else []⟩

def calls (opts : Options) (c : Client M) : List Stage :=
  if opts.reconnectEnabled then c.stages.tail else c.stages

def isReturned : Stage → Bool
  | .returned _ => true
  | _ => false

def isClose : Stage → Bool
  | .swapping | .closing | .shutting none => true
  | _ => false

def first (opts : Options) (c : Client M) : Request → Option Stage
  | .call call => some (if opts.reconnectEnabled then .checking (some call) else .locking call)
  | .unsubscribe i =>
    match c.stages[i]? with
    | some (.returned (.subscribed id channel)) => some (.taking id channel)
    | _ => none
  | .close => if (c.calls opts).all isReturned then some .swapping else none

def request (opts : Options) (c : Client M) (r : Request) : Client M :=
  match c.first opts r with
  | none => c
  | some stage =>
    if (c.calls opts).any isClose then c else { c with stages := c.stages ++ [stage] }

def isLoop (opts : Options) (i : ℕ) : Bool := opts.reconnectEnabled && i == 0

def cancel (opts : Options) (c : Client M) (i : ℕ) : Client M :=
  match c.stages[i]? with
  | none => c
  | some stage =>
    if isReturned stage || isLoop opts i then c
    else
      ⟨{ c.state with dropped := c.state.dropped ++ stage.unclaimed.toList },
        c.stages.set i (.returned .cancelled)⟩

def step (opts : Options) (c : Client M) : Event M → Client M
  | .request r => c.request opts r
  | .advance i choice => c.advance (program opts) i choice
  | .cancel i => c.cancel opts i
  | .net event => { c with state := c.state.net opts event }

def run (opts : Options) (c : Client M) (events : List (Event M)) : Client M :=
  events.foldl (step opts) c

end Client

section
variable {opts : Options} {c : Client M}

theorem first_outside {r : Request} {stage : Stage} (first : c.first opts r = some stage) :
    stage.inside = false := by
  cases r with
  | call call =>
    obtain rfl := Option.some.inj first
    split <;> rfl
  | unsubscribe i =>
    rw [Client.first] at first
    split at first <;> cases first
    rfl
  | close =>
    rw [Client.first] at first
    split_ifs at first
    cases first
    rfl

end

end ZetMQ.ClientTasks
