import Mathlib.Data.List.Find
import ZetMQ.KeyedTable
import ZetMQ.Utf8Text

/-! The client's record of its subscriptions. It is keyed by the id that the server
assigned first, and used to subscribe again on a new connection. What the server
assigns is an argument; a channel is known by its number. -/
namespace ZetMQ.ClientSubscriptions
open Utf8Text KeyedTable

structure ActiveSubscription where
  subject : Str
  queueGroup : Option Str
  serverSubId : ℕ
  tx : ℕ
deriving DecidableEq

structure Client where
  subscriptions : Table ℕ ActiveSubscription

namespace Client

/-- The rest of `subscribe_internal` after the `SUBACK`. -/
def subscribeInternal (c : Client) (subject : Str) (queueGroup : Option Str)
    (trackReconnect : Bool) (serverSubId tx : ℕ) : Client :=
  if trackReconnect then
    ⟨c.subscriptions.insert serverSubId ⟨subject, queueGroup, serverSubId, tx⟩⟩
  else c

/-- The client after `unsubscribe`, and the id in the `UNSUB` frame. -/
def unsubscribe (c : Client) (id : ℕ) : Client × ℕ :=
  (⟨c.subscriptions.erase id⟩, ((c.subscriptions.lookup id).map (·.serverSubId)).getD id)

def remap (t : Table ℕ ActiveSubscription) (remapped : List (ℕ × ℕ)) :
    Table ℕ ActiveSubscription :=
  remapped.foldl (fun t pair => modify pair.1 (fun a => { a with serverSubId := pair.2 }) t) t

end Client

open Client

theorem lookup_remap {remapped : List (ℕ × ℕ)} (nodup : (remapped.map Prod.fst).Nodup)
    (t : Table ℕ ActiveSubscription) (id : ℕ) :
    (remap t remapped).lookup id = (t.lookup id).map fun a =>
      ((remapped.find? (·.1 = id)).map fun pair =>
        { a with serverSubId := pair.2 }).getD a := by
  induction remapped generalizing t with
  | nil => simp [remap]
  | cons pair remapped ih =>
    rw [List.map_cons, List.nodup_cons] at nodup
    rw [remap, List.foldl_cons, ← remap, ih nodup.2, lookup_modify]
    by_cases here : id = pair.1
    · have none : remapped.find? (·.1 = id) = none := by
        rw [List.find?_eq_none]
        intro other member same
        refine nodup.1 (List.mem_map.mpr ⟨other, member, ?_⟩)
        rw [← here]
        simpa using same
      rw [none, if_pos here, here, List.find?_cons_of_pos (by simp), Option.map_map]
      rfl
    · rw [if_neg here, List.find?_cons_of_neg (by simpa using Ne.symm here)]

end ZetMQ.ClientSubscriptions
