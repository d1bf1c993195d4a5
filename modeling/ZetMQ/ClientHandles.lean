import ZetMQ.ClientNumbers

/-! The subscriptions that a client has handed out, next to its record of them. A call that
unsubscribes takes the entry out of the record first and waits for the connection after
that; a replay copies the record, subscribes again and enters the new ids at its end. -/
namespace ZetMQ.ClientHandles
open Utf8Text KeyedTable ClientConnection ClientSubscriptions LockedTasks ClientTasks ClientNumbers

/-- A `Subscription` that was returned, by `subscribe` if it is tracked, else within a
`request`. -/
structure Handle where
  id : ℕ
  subject : Str
  queueGroup : Option Str
  tracked : Bool
  -- the call of `unsubscribe` that took it out of the record
  taker : Option ℕ
  -- whether `subscribe` or a replay had recorded it on this connection, while it was there
  settled : Bool
deriving DecidableEq

namespace Handle

def settle (h : Handle) : Handle := if h.taker.isNone then { h with settled := true } else h

@[simp] theorem settle_id (h : Handle) : h.settle.id = h.id := by
  rw [settle]
  split_ifs <;> rfl

@[simp] theorem settle_taker (h : Handle) : h.settle.taker = h.taker := by
  rw [settle]
  split_ifs <;> rfl

@[simp] theorem settle_tracked (h : Handle) : h.settle.tracked = h.tracked := by
  rw [settle]
  split_ifs <;> rfl

theorem settle_live {h : Handle} (live : h.taker = none) : h.settle = { h with settled := true } :=
  if_pos (by rw [live]; rfl)

theorem settle_taken {h : Handle} {i : ℕ} (taken : h.taker = some i) : h.settle = h :=
  if_neg (by simp [taken])

end Handle

/-- A client with its handles, known by their channels, and the id that the server has most
recently assigned to each channel. -/
structure Session (M : Type) where
  client : ClientTasks.Client M
  handles : ℕ → Option Handle
  latest : ℕ → ℕ

variable {M : Type}

def subFor (channel : ℕ) : Sent → Option ℕ
  | .sub corrId channel' => if channel' = channel then some corrId else none
  | _ => none

def channelFor (corrId : ℕ) : Sent → Option ℕ
  | .sub corrId' channel => if corrId' = corrId then some channel else none
  | _ => none

def subs (conn : Connection M) (channel : ℕ) : List ℕ := conn.sent.filterMap (subFor channel)

/-- On this connection the channel was subscribed exactly once, and under that id. -/
def Once (conn : Connection M) (channel subId : ℕ) : Prop :=
  (subs conn channel).map conn.subacks.lookup = [some subId]

instance (conn : Connection M) (channel subId : ℕ) : Decidable (Once conn channel subId) :=
  inferInstanceAs (Decidable (_ = _))

section
variable {conn conn' : Connection M} {channel subId corrId : ℕ}

theorem mem_subs : corrId ∈ subs conn channel ↔ .sub corrId channel ∈ conn.sent := by
  rw [subs, List.mem_filterMap]
  constructor
  · rintro ⟨frame, member, same⟩
    cases frame with
    | sub corrId' channel' =>
      rw [subFor] at same
      split_ifs at same with here
      cases same
      rwa [← here]
    | _ => cases same
  · intro member
    exact ⟨_, member, if_pos rfl⟩

theorem subs_post (conn : Connection M) (frame : Sent) (channel : ℕ) :
    subs (conn.post frame) channel = subs conn channel ++ (subFor channel frame).toList := by
  rw [subs, Connection.post, List.filterMap_append, ← subs]
  cases same : subFor channel frame <;> simp [same]

theorem once_iff : Once conn channel subId ↔
    ∃ corrId, subs conn channel = [corrId] ∧ conn.subacks.lookup corrId = some subId := by
  rw [Once, List.map_eq_singleton_iff]

theorem Once.unique {subId' : ℕ} (first : Once conn channel subId)
    (second : Once conn channel subId') : subId = subId' := by
  cases first.symm.trans second
  rfl

section
variable (once : Once conn channel subId)
include once

theorem Once.answered (member : corrId ∈ subs conn channel) :
    conn.subacks.lookup corrId = some subId := by
  obtain ⟨only, same, found⟩ := once_iff.mp once
  rw [same, List.mem_singleton] at member
  rwa [member]

theorem Once.of_eq (same : subs conn' channel = subs conn channel)
    (subacks : conn'.subacks = conn.subacks) : Once conn' channel subId := by
  rwa [Once, same, subacks]

theorem Once.post {frame : Sent} (other : subFor channel frame = none) :
    Once (conn.post frame) channel subId :=
  once.of_eq (by rw [subs_post, other]; simp) rfl

theorem Once.insert {corrId' subId' : ℕ} (new : conn.subacks.lookup corrId' = none)
    (same : subs conn' channel = subs conn channel)
    (subacks : conn'.subacks = conn.subacks.insert corrId' subId') : Once conn' channel subId := by
  obtain ⟨corrId, only, found⟩ := once_iff.mp once
  refine once_iff.mpr ⟨corrId, same.trans only, ?_⟩
  rw [subacks, lookup_insert_ite, if_neg, found]
  rintro rfl
  cases found.symm.trans new

end

end

namespace Session

def start (opts : Options) : Session M := ⟨.start opts, fun _ => none, fun _ => 0⟩

def conn (s : Session M) : Connection M := s.client.state.conn

def record (s : Session M) : Table ℕ ActiveSubscription := s.client.state.record.subscriptions

def answered (s : Session M) (corrId subId : ℕ) : Option ℕ :=
  if s.client.state.reading && (s.conn.subacks.lookup corrId).isNone &&
      decide (subId ∉ values s.conn.subacks) then
    (s.conn.sent.take s.conn.written).findSome? (channelFor corrId)
  else none

def marked (s : Session M) (i : ℕ) : Stage → Stage → ℕ → Option Handle
  | .recording subId channel subject queueGroup, _ =>
    Function.update s.handles channel (some ⟨subId, subject, queueGroup, true, none, true⟩)
  | .entering _ subId channel (.fresh subject queueGroup false), _ =>
    Function.update s.handles channel (some ⟨subId, subject, queueGroup, false, none, true⟩)
  | .taking _ channel, _ =>
    Function.update s.handles channel
      ((s.handles channel).map fun h => { h with taker := h.taker.or (some i) })
  -- a new connection
  | .connecting _ _ _, .copying _ =>
    fun channel => (s.handles channel).map fun h => { h with settled := false }
  | .remapping _ _, _ => fun channel => (s.handles channel).map Handle.settle
  | _, _ => s.handles

def step (opts : Options) (s : Session M) : Event M → Session M
  | .net (.read (.suback corrId subId)) =>
    match s.answered corrId subId with
    | none => s
    | some channel =>
      { s with
        client := s.client.step opts (.net (.read (.suback corrId subId)))
        latest := Function.update s.latest channel subId }
  | .advance i choice =>
    match s.client.next (program opts) i choice with
    | none => s
    | some (stage, state, stage') =>
      { s with
        client := ⟨state, s.client.stages.set i stage'⟩
        handles := s.marked i stage stage' }
  | event => { s with client := s.client.step opts event }

def LiveAt (s : Session M) (channel : ℕ) (h : Handle) : Prop :=
  s.handles channel = some h ∧ h.tracked = true ∧ h.taker = none

def Quiet (s : Session M) : Prop := ∀ stage ∈ s.client.stages, stage.replays = false

def recorded (s : Session M) (h : Handle) : Option ℕ :=
  (s.record.lookup h.id).map (·.serverSubId)

structure Booked (s : Session M) : Prop where
  entry : ∀ channel h, s.LiveAt channel h → ∃ serverSubId,
    s.record.lookup h.id = some ⟨h.subject, h.queueGroup, serverSubId, channel⟩
  current : s.Quiet → ∀ channel h, s.LiveAt channel h → s.recorded h = some (s.latest channel)
  subscribed : s.Quiet → s.conn.connected = true → ∀ channel h, s.LiveAt channel h →
    Once s.conn channel (s.latest channel)

def Right (opts : Options) (s : Session M) : Event M → Prop
  | .advance i choice => ∀ subId channel state h,
    s.client.next (program opts) i choice =
      some (.sendingUnsub subId channel, state, .removing subId channel) →
    s.handles channel = some h → h.tracked = true → h.taker = some i → Once s.conn channel subId
  | _ => True

def Unclaimed (s : Session M) (id : ℕ) : Prop := ∀ channel h, s.LiveAt channel h → h.id ≠ id

def Unchanged (s : Session M) : Prop := ∀ channel h, s.LiveAt channel h →
  (∀ subId, Once s.conn channel subId → s.recorded h = some subId) ∧
    (s.conn.connected = true → ∃ subId, Once s.conn channel subId)

def ClearStep (s : Session M) (i : ℕ) : Stage → Stage → Prop
  -- an id is recorded, or cleaned up, that another live handle has
  | .recording subId _ _ _, _ => s.Unclaimed subId
  | .taking id channel, _ => (∀ h, ¬ s.LiveAt channel h) → s.Unclaimed id
  -- a replay stops midway
  | .sendingSub _ _ (.replay _ _ _ _), .awaitingSuback _ _ _ => True
  | .sendingSub _ _ (.replay _ _ _ _), _ => s.Unchanged
  -- the entry was taken before or within the replay on this connection
  | .sendingUnsub subId channel, .removing _ _ => ∀ h, s.handles channel = some h →
    h.tracked = true → h.taker = some i → h.settled = false → Once s.conn channel subId
  | _, _ => True

def Clear (opts : Options) (s : Session M) : Event M → Prop
  | .advance i choice => ∀ stage state stage',
    s.client.next (program opts) i choice = some (stage, state, stage') → s.ClearStep i stage stage'
  -- a replay is dropped with the call it belongs to
  | .cancel i => ∀ stage, s.client.stages[i]? = some stage → stage.replays = true →
    Client.isLoop opts i = false → s.Unchanged
  -- an answer to a replay that was dropped
  | .net (.read (.suback corrId subId)) => ∀ channel h, s.answered corrId subId = some channel →
    s.Quiet → s.LiveAt channel h → s.recorded h = some subId
  | _ => True

def AlwaysBooked (opts : Options) : Session M → List (Event M) → Prop
  | s, [] => s.Booked
  | s, event :: events =>
    s.Booked ∧ s.Right opts event ∧ AlwaysBooked opts (s.step opts event) events

def AlwaysClear (opts : Options) : Session M → List (Event M) → Prop
  | _, [] => True
  | s, event :: events => s.Clear opts event ∧ AlwaysClear opts (s.step opts event) events

end Session

end ZetMQ.ClientHandles
