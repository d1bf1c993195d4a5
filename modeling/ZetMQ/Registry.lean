import ZetMQ.Delivery
import ZetMQ.Routing

/-! The subscription registry: the live subscriptions by id, the ids of each
connection, and the routing engine it shares with the broker. -/
namespace ZetMQ.Registry
open Utf8Text SubjectGrammar WildcardTrie KeyedTable Routing Delivery

def maxQueueGroupName : ℕ := 128

structure QueueGroupName where
  name : Str
  trimmed : trim name = name
  filled : name ≠ []
  short : utf8Len name ≤ maxQueueGroupName

theorem QueueGroupName.name_inj {a b : QueueGroupName} : a.name = b.name ↔ a = b := by
  cases a
  cases b
  simp

instance : DecidableEq QueueGroupName := fun _ _ => decidable_of_iff _ QueueGroupName.name_inj

def QueueGroupName.new (name : Str) : Except CoreError QueueGroupName :=
  let trimmed := trim name
  if filled : trimmed = [] then
    .error (.invalidQueueGroupName "queue group name cannot be empty".toList)
  else if short : maxQueueGroupName < utf8Len trimmed then
    .error (.invalidQueueGroupName ("name exceeds max length: ".toList ++
      decimal (utf8Len trimmed) ++ " > ".toList ++ decimal maxQueueGroupName))
  else .ok ⟨trimmed, trim_trim name, filled, Nat.le_of_not_lt short⟩

/-- Subject pattern and group name. -/
abbrev QueueGroupKey := Str × Str

/-- A shared pointer to a key; `addr` is what `Arc::ptr_eq` compares. -/
structure KeyArc where
  addr : ℕ
  key : QueueGroupKey
deriving DecidableEq

structure Subscription where
  id : SubscriptionId
  connectionId : ConnectionId
  pattern : SubjectPattern
  queueGroup : Option QueueGroupName
  queueGroupKey : Option KeyArc
  delivery : DeliveryHandle
deriving DecidableEq

structure SubscriptionRegistry where
  subscriptions : Table SubscriptionId Subscription
  byConnection : Table ConnectionId (List SubscriptionId)
  router : RoutingEngine

namespace SubscriptionRegistry

def new : SubscriptionRegistry := ⟨∅, ∅, .new⟩

def add (r : SubscriptionRegistry) (sub : Subscription) : SubscriptionRegistry :=
  { router := r.router.insert sub.pattern sub.id
    subscriptions := r.subscriptions.insert sub.id sub
    byConnection := upsert sub.connectionId [] (· ++ [sub.id]) r.byConnection }

def remove (r : SubscriptionRegistry) (id : SubscriptionId) :
    SubscriptionRegistry × Option Subscription :=
  match r.subscriptions.lookup id with
  | none => (r, none)
  | some sub =>
    ({ subscriptions := r.subscriptions.erase id
       router := r.router.remove sub.pattern id
       byConnection := modify sub.connectionId (·.filter (· ≠ id)) r.byConnection }, some sub)

def dropOne (state : SubscriptionRegistry × List Subscription) (id : SubscriptionId) :
    SubscriptionRegistry × List Subscription :=
  match state.1.subscriptions.lookup id with
  | none => state
  | some sub =>
    ({ state.1 with
       subscriptions := state.1.subscriptions.erase id
       router := state.1.router.remove sub.pattern id }, state.2 ++ [sub])

def removeAllForConnection (r : SubscriptionRegistry) (conn : ConnectionId) :
    SubscriptionRegistry × List Subscription :=
  ((r.byConnection.lookup conn).getD []).foldl dropOne
    ({ r with byConnection := r.byConnection.erase conn }, [])

def getRef (r : SubscriptionRegistry) (id : SubscriptionId) : Option Subscription :=
  r.subscriptions.lookup id

def countForConnection (r : SubscriptionRegistry) (conn : ConnectionId) : ℕ :=
  ((r.byConnection.lookup conn).map List.length).getD 0

end SubscriptionRegistry

end ZetMQ.Registry
