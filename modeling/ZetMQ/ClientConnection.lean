import ZetMQ.KeyedTable

/-! The client's end of one connection: the maps that its read task shares with the
calls, and what the read task does with each frame from the server. Channels, oneshot
senders and messages are arbitrary types. -/
namespace ZetMQ.ClientConnection
open KeyedTable

variable {Chan Tx M : Type}

/-- The frames from the server, as the read task tells them apart. -/
inductive Inbound (M : Type) where
  | msg (subId : ℕ) (message : M)
  | suback (corrId subId : ℕ)
  | ping
  | pong (corrId : ℕ)
  | other

structure ConnState (Chan Tx : Type) where
  subscriptions : Table ℕ Chan
  pendingSubs : Table ℕ Tx
  pendingFlush : Table ℕ Tx

/-- What the read task does beside changing the maps. -/
inductive Effect (Chan Tx M : Type) where
  | forward (channel : Chan) (message : M)
  | subscribed (tx : Tx) (subId : ℕ)
  | flushed (tx : Tx)
  | sendPong

namespace ConnState

def new : ConnState Chan Tx := ⟨∅, ∅, ∅⟩

def resolveFlush (st : ConnState Chan Tx) (corrId : ℕ) : ConnState Chan Tx × Option Tx :=
  match if corrId = 0 then st.pendingFlush.keys.min? else some corrId with
  | none => (st, none)
  | some id =>
    ({ st with pendingFlush := st.pendingFlush.erase id }, st.pendingFlush.lookup id)

def dispatchMsg (closed : Chan → Bool) (st : ConnState Chan Tx) (subId : ℕ) (message : M) :
    ConnState Chan Tx × Option (Effect Chan Tx M) :=
  match st.subscriptions.lookup subId with
  | none => (st, none)
  | some channel =>
    if closed channel then ({ st with subscriptions := st.subscriptions.erase subId }, none)
    else (st, some (.forward channel message))

def handle (closed : Chan → Bool) (st : ConnState Chan Tx) :
    Inbound M → ConnState Chan Tx × Option (Effect Chan Tx M)
  | .msg subId message => st.dispatchMsg closed subId message
  | .suback corrId subId =>
    ({ st with pendingSubs := st.pendingSubs.erase corrId },
      (st.pendingSubs.lookup corrId).map (.subscribed · subId))
  | .ping => (st, some .sendPong)
  | .pong corrId =>
    let (st, tx) := st.resolveFlush corrId
    (st, tx.map .flushed)
  | .other => (st, none)

end ConnState

@[simp] theorem resolveFlush_pendingSubs (st : ConnState Chan Tx) (corrId : ℕ) :
    (st.resolveFlush corrId).1.pendingSubs = st.pendingSubs := by
  rw [ConnState.resolveFlush]
  split <;> rfl

@[simp] theorem resolveFlush_subscriptions (st : ConnState Chan Tx) (corrId : ℕ) :
    (st.resolveFlush corrId).1.subscriptions = st.subscriptions := by
  rw [ConnState.resolveFlush]
  split <;> rfl

end ZetMQ.ClientConnection
