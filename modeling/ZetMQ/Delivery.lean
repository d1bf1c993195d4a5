import ZetMQ.KeyedTable
import ZetMQ.WildcardTrie

/-! Messages, the handles they are delivered through, and the counters. A handle
is only known by its identity; what it answers is left to a policy that may look
at every earlier call, so any sequence of answers is possible. -/
namespace ZetMQ.Delivery
open Utf8Text SubjectGrammar WildcardTrie KeyedTable

abbrev ConnectionId := ℕ
abbrev DeliveryHandle := ℕ
abbrev HeaderMap := Table Str Str

structure PublishItem where
  subject : Subject
  payload : Bytes
  replyTo : Option Subject
  headers : Option HeaderMap
deriving DecidableEq

structure Message where
  id : ℕ
  subject : Subject
  payload : Bytes
  headers : Option HeaderMap
  replyTo : Option Subject
  timestampNs : ℕ
deriving DecidableEq

structure DeliveryMessage where
  subscriptionId : SubscriptionId
  connectionId : ConnectionId
  subject : Subject
  payload : Bytes
  replyTo : Option Subject
  headers : Option HeaderMap
deriving DecidableEq

def Message.deliveryTo (message : Message) (id : SubscriptionId) (conn : ConnectionId) :
    DeliveryMessage :=
  ⟨id, conn, message.subject, message.payload, message.replyTo, message.headers⟩

def PublishItem.deliveryTo (item : PublishItem) (id : SubscriptionId) (conn : ConnectionId) :
    DeliveryMessage :=
  ⟨id, conn, item.subject, item.payload, item.replyTo, item.headers⟩

/-- The message a batch hands to the one-by-one path. -/
def PublishItem.toMessage (item : PublishItem) : Message :=
  ⟨0, item.subject, item.payload, item.headers, item.replyTo, 0⟩

inductive DeliveryStatus where
  | delivered
  | channelFull
  | failed (error : Str)
deriving DecidableEq, Repr

structure DeliverCall where
  handle : DeliveryHandle
  message : DeliveryMessage
  status : DeliveryStatus
deriving DecidableEq

abbrev DeliveryPolicy := List DeliverCall → DeliveryHandle → DeliveryMessage → DeliveryStatus

/-- What is read of a `u64` counter. It wraps when it goes down from zero, and back when it
goes up again; no counter is counted up to `2 ^ 64`. -/
def readCounter (n : ℤ) : ℕ := if n < 0 then (n + 2 ^ 64).toNat else n.toNat

@[simp] theorem readCounter_natCast (n : ℕ) : readCounter n = n := by simp [readCounter]

structure CoreMetrics where
  activeConnections : ℤ
  totalConnections : ℕ
  activeSubscriptions : ℤ
  messagesPublished : ℕ
  messagesDelivered : ℕ
  messagesDropped : ℕ
  protocolErrors : ℕ
deriving DecidableEq

namespace CoreMetrics

def new : CoreMetrics := ⟨0, 0, 0, 0, 0, 0, 0⟩

def incActiveConnections (m : CoreMetrics) : CoreMetrics :=
  { m with
    activeConnections := m.activeConnections + 1
    totalConnections := m.totalConnections + 1 }

def decActiveConnections (m : CoreMetrics) : CoreMetrics :=
  { m with activeConnections := m.activeConnections - 1 }

def incSubscriptions (m : CoreMetrics) : CoreMetrics :=
  { m with activeSubscriptions := m.activeSubscriptions + 1 }

def decSubscriptions (m : CoreMetrics) : CoreMetrics :=
  { m with activeSubscriptions := m.activeSubscriptions - 1 }

def incPublishedBy (m : CoreMetrics) (n : ℕ) : CoreMetrics :=
  { m with messagesPublished := m.messagesPublished + n }

def incPublished (m : CoreMetrics) : CoreMetrics := m.incPublishedBy 1

def incDeliveredBy (m : CoreMetrics) (n : ℕ) : CoreMetrics :=
  { m with messagesDelivered := m.messagesDelivered + n }

def incDroppedBy (m : CoreMetrics) (n : ℕ) : CoreMetrics :=
  { m with messagesDropped := m.messagesDropped + n }

def incProtocolErrors (m : CoreMetrics) : CoreMetrics :=
  { m with protocolErrors := m.protocolErrors + 1 }

end CoreMetrics

end ZetMQ.Delivery
