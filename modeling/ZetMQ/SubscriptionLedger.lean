import ZetMQ.Broker

/-! What the broker is for, without its indexes: a ledger of the live
subscriptions in the order of their ids. The ledger of a history depends only on
the calls made, not on how the broker stores anything. -/
namespace ZetMQ.SubscriptionLedger
open Utf8Text SubjectGrammar WildcardTrie KeyedTable Delivery Registry Broker

structure LiveSub where
  id : SubscriptionId
  conn : ConnectionId
  pattern : SubjectPattern
  group : Option QueueGroupName
  handle : DeliveryHandle
deriving DecidableEq

def LiveSub.groupKey (sub : LiveSub) : Option QueueGroupKey :=
  sub.group.map fun group => (sub.pattern.raw, group.name)

structure Ledger where
  nextId : ℕ
  live : List LiveSub
  ascending : (live.map LiveSub.id).Pairwise (· < ·)
  bounded : ∀ sub ∈ live, sub.id < nextId

namespace Ledger

def empty : Ledger := ⟨1, [], by simp, by simp⟩

def subscribe (l : Ledger) (conn : ConnectionId) (pattern : SubjectPattern)
    (group : Option QueueGroupName) (handle : DeliveryHandle) : Ledger where
  nextId := l.nextId + 1
  live := l.live ++ [⟨l.nextId, conn, pattern, group, handle⟩]
  ascending := by
    rw [List.map_append, List.pairwise_append]
    refine ⟨l.ascending, by simp, ?_⟩
    intro id member last single
    obtain ⟨sub, listed, rfl⟩ := List.mem_map.mp member
    have : last = l.nextId := by simpa using single
    exact this ▸ l.bounded sub listed
  bounded := by
    intro sub member
    rcases List.mem_append.mp member with old | new
    · exact (l.bounded sub old).trans (Nat.lt_succ_self _)
    · rw [List.mem_singleton.mp new]
      exact Nat.lt_succ_self _

def keep (l : Ledger) (test : LiveSub → Bool) : Ledger where
  nextId := l.nextId
  live := l.live.filter test
  ascending := l.ascending.sublist ((List.filter_sublist ..).map _)
  bounded := fun sub member => l.bounded sub (List.mem_of_mem_filter member)

def unsubscribe (l : Ledger) (id : SubscriptionId) : Ledger := l.keep (·.id ≠ id)

def removeConnection (l : Ledger) (conn : ConnectionId) : Ledger := l.keep (·.conn ≠ conn)

theorem nodup_ids (l : Ledger) : (l.live.map LiveSub.id).Nodup := l.ascending.imp Nat.ne_of_lt

theorem eq_of_id {l : Ledger} {a b : LiveSub} (ha : a ∈ l.live) (hb : b ∈ l.live)
    (h : a.id = b.id) : a = b :=
  List.inj_on_of_nodup_map l.nodup_ids ha hb h

end Ledger

inductive BrokerOp where
  | subscribe (conn : ConnectionId) (pattern : SubjectPattern) (group : Option QueueGroupName)
      (handle : DeliveryHandle)
  | unsubscribe (conn : ConnectionId) (id : SubscriptionId)
  | removeConnection (conn : ConnectionId)
  | publish (message : Message)
  | publishWithStr (subject : Str) (payload : Bytes) (replyTo : Option Subject)
      (headers : Option HeaderMap)
  | publishBatch (order : PendingOrder) (items : List PublishItem)
  | parseSubject (input : Str)

def BrokerOp.apply (env : DeliveryPolicy) (b : BrokerCore) : BrokerOp → BrokerCore
  | .subscribe conn pattern group handle => (b.subscribe conn pattern group handle).1
  | .unsubscribe conn id => b.unsubscribe conn id
  | .removeConnection conn => b.removeConnection conn
  | .publish message => b.publish env message
  | .publishWithStr subject payload replyTo headers =>
    b.publishWithStr env subject payload replyTo headers
  | .publishBatch order items => b.publishBatch env order items
  | .parseSubject input => (b.parseSubject input).1

def BrokerOp.track (l : Ledger) : BrokerOp → Ledger
  | .subscribe conn pattern group handle => l.subscribe conn pattern group handle
  | .unsubscribe _ id => l.unsubscribe id
  | .removeConnection conn => l.removeConnection conn
  | .publish _ => l
  | .publishWithStr .. => l
  | .publishBatch .. => l
  | .parseSubject _ => l

/-- Only `subscribe` brings a subscription in, under a fresh id. -/
theorem mem_track {l : Ledger} {op : BrokerOp} {entry : LiveSub}
    (member : entry ∈ (op.track l).live) :
    entry ∈ l.live ∨ entry.id = l.nextId ∧
      op = .subscribe entry.conn entry.pattern entry.group entry.handle := by
  cases op with
  | subscribe conn pattern group handle =>
    rcases List.mem_append.mp member with old | new
    · exact .inl old
    · rw [List.mem_singleton.mp new]
      exact .inr ⟨rfl, rfl⟩
  | unsubscribe conn id => exact .inl (List.mem_of_mem_filter member)
  | removeConnection conn => exact .inl (List.mem_of_mem_filter member)
  | publish message => exact .inl member
  | publishWithStr subject payload replyTo headers => exact .inl member
  | publishBatch order items => exact .inl member
  | parseSubject input => exact .inl member

theorem nextId_le_track (l : Ledger) (op : BrokerOp) : l.nextId ≤ (op.track l).nextId := by
  cases op with
  | subscribe conn pattern group handle => exact Nat.le_succ _
  | _ => exact le_rfl

/-- The broker after a history of calls, and the ledger of the same history. -/
def run (env : DeliveryPolicy) (ops : List BrokerOp) : BrokerCore :=
  ops.foldl (BrokerOp.apply env) .new

def ledgerOf (ops : List BrokerOp) : Ledger := ops.foldl BrokerOp.track .empty

end ZetMQ.SubscriptionLedger
