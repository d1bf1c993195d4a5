import Mathlib.Logic.Relation
import ZetMQ.ClientRequests
import ZetMQ.ClientTasks

/-! A request among the tasks of a client. It makes three calls one after the other; on a
connection that nothing else uses, their steps take the maps and the record from what an
endpoint has before the request to what it has after it. -/
namespace ZetMQ.RequestRuns
open Utf8Text KeyedTable ClientConnection ClientTasks ClientRequests

variable {M : Type} {opts : Options} {e : Endpoint} {s s' : ClientState M} {stage stage' : Stage}

/-- The steps of one task, and what happens beside it. -/
inductive Step (opts : Options) : ClientState M × Stage → ClientState M × Stage → Prop
  | goes {s s' : ClientState M} {stage stage' : Stage}
    (step : work opts s stage .go = some (s', stage')) : Step opts (s, stage) (s', stage')
  | stirs (s : ClientState M) (stage : Stage) (event : Net M) :
    Step opts (s, stage) (s.net opts event, stage)

def Runs (opts : Options) (s : ClientState M) (stage : Stage) (s' : ClientState M)
    (stage' : Stage) : Prop :=
  Relation.ReflTransGen (Step opts) (s, stage) (s', stage')

/-- The connection stands, and its tasks have nothing to do. -/
structure Ready (s : ClientState M) : Prop where
  up : s.conn.broken = false
  idle : s.conn.reader = .idle
  written : s.conn.written = s.conn.sent.length

structure Mirrors (e : Endpoint) (s : ClientState M) : Prop where
  ready : Ready s
  counter : s.conn.subCounter = e.subCounter
  pending : s.conn.maps.pendingSubs = e.state.pendingSubs
  entered : ∀ id, s.conn.maps.subscriptions.lookup id = none ↔
    e.state.subscriptions.lookup id = none
  record : s.record = e.client

theorem mirrors_start (client : e.client = ⟨∅⟩) (counter : e.subCounter = 1)
    (state : e.state = .new) : Mirrors e (ClientState.start : ClientState M) := by
  refine ⟨⟨rfl, rfl, rfl⟩, counter.symm, ?_, fun id => ?_, client.symm⟩ <;> rw [state] <;> rfl

theorem Ready.free (ready : Ready s) : s.conn.mapsFree = true := by
  rw [Connection.mapsFree, ready.idle]

def posted (s : ClientState M) (frame : Sent) : ClientState M :=
  s.setConn { s.conn.post frame with written := s.conn.written + 1 }

theorem Ready.posted (ready : Ready s) (frame : Sent) : Ready (posted s frame) := by
  refine ⟨ready.up, ready.idle, ?_⟩
  simp [RequestRuns.posted, ClientState.setConn, Connection.post, ready.written]

theorem Ready.posts (ready : Ready s) {frame : Sent} {failed : ClientState M × Stage}
    (step : work opts s stage .go = s.send opts frame stage' failed) :
    Runs opts s stage (RequestRuns.posted s frame) stage' := by
  have room : s.conn.full opts = false := by
    have some := opts.writeRoom
    rw [Connection.full, ready.written, Nat.sub_self, decide_eq_false_iff_not]
    omega
  have writing : s.conn.writing = true := by
    have up := ready.up
    rw [Connection.broken, Bool.not_eq_false', Bool.and_eq_true] at up
    exact up.2
  have sent : Step opts (s, stage) (s.setConn (s.conn.post frame), stage') := by
    refine .goes (step.trans ?_)
    simp [ClientState.send, ready.up, room]
  have written : (s.setConn (s.conn.post frame)).net opts .write = RequestRuns.posted s frame := by
    rw [ClientState.net, if_pos]
    · rfl
    · simp [ClientState.setConn, Connection.post, writing, ready.written]
  exact .tail (.single sent) (written ▸ .stirs _ _ _)

theorem publish_mirrors (opts : Options) (h : Mirrors e s) (frame : Frames.Frame) :
    ∃ s', Runs opts s (.locking .publish) s' (.returned .ok) ∧ Mirrors (e.post frame) s' := by
  refine ⟨_, .head (.goes rfl) (h.ready.posts rfl), ?_⟩
  exact ⟨h.ready.posted .pub, h.counter, h.pending, h.entered, h.record⟩

theorem subscribe_mirrors (opts : Options) (h : Mirrors e s) (subject : Str) (skipped : ℕ)
    (word : e.subCounter + 1 < 2 ^ 64) :
    ∃ s', Runs opts s (.locking (.subscribe subject none false)) s'
        (.returned (.subscribed (e.nextId + skipped) s.channels)) ∧
      Mirrors (e.subscribeInternal subject (.acked skipped)).1 s' := by
  let corrId := s.conn.subCounter
  let subId := e.nextId + skipped
  let purpose : Purpose := .fresh subject none false
  -- registered, sent and answered
  let s₁ : ClientState M := { s.setConn (s.conn.count.setMaps { s.conn.maps with
    pendingSubs := s.conn.maps.pendingSubs.insert corrId corrId }) with channels := s.channels + 1 }
  have ready₁ : Ready s₁ := ⟨h.ready.up, h.ready.idle, h.ready.written⟩
  let s₂ := posted s₁ (.sub corrId s.channels)
  have ready₂ : Ready s₂ := ready₁.posted _
  let s₃ := s₂.setConn { s₂.conn with
    maps := { s₂.conn.maps with pendingSubs := s₂.conn.maps.pendingSubs.erase corrId }
    subacks := s₂.conn.subacks.insert corrId subId }
  have ready₃ : Ready s₃ := ⟨ready₂.up, ready₂.idle, ready₂.written⟩
  have sent : Runs opts s (.locking (.subscribe subject none false)) s₂
      (.awaitingSuback corrId s.channels purpose) :=
    .head (.goes rfl) (.head (.goes (if_pos h.ready.free)) (ready₁.posts rfl))
  have answered : s₂.net opts (.read (.suback corrId subId)) = s₃ := by
    have reading : s₂.reading = true := by rw [ClientState.reading, ready₂.idle]
    have pending : s₂.conn.maps.pendingSubs.lookup corrId = some corrId := AList.lookup_insert _
    rw [ClientState.net, if_pos reading, take_suback, pending]
  have acked : work opts s₃ (.awaitingSuback corrId s.channels purpose) .go =
      some (s₃, .entering corrId subId s.channels purpose) := by
    rw [work, show s₃.conn.subacks.lookup corrId = some subId from AList.lookup_insert _]
    rfl
  refine ⟨_, ((sent.tail (answered ▸ .stirs s₂ _ _)).tail (.goes acked)).tail
    (.goes (if_pos ready₃.free)), ⟨ready₃.up, ready₃.idle, ready₃.written⟩, ?_, ?_, fun id => ?_,
    h.record⟩
  · exact (congrArg (· + 1) h.counter).trans (Nat.mod_eq_of_lt word).symm
  · change (s.conn.maps.pendingSubs.insert _ _).erase _ = (e.state.pendingSubs.insert _ _).erase _
    rw [h.pending, show corrId = e.subCounter from h.counter]
  · change (s.conn.maps.subscriptions.insert subId _).lookup id = none ↔
      (e.state.subscriptions.insert subId _).lookup id = none
    rw [lookup_insert_ite, lookup_insert_ite]
    split_ifs
    exacts [by simp, h.entered id]

theorem unsubscribe_mirrors (opts : Options) (h : Mirrors e s) (id channel : ℕ) :
    ∃ s', Runs opts s (.taking id channel) s' (.returned .ok) ∧
      Mirrors (e.unsubscribe id true).1 s' := by
  let target := (s.record.unsubscribe id).2
  let s₁ : ClientState M := { s with record := (s.record.unsubscribe id).1 }
  have ready₁ : Ready s₁ := ⟨h.ready.up, h.ready.idle, h.ready.written⟩
  have ready₂ := ready₁.posted (.unsub target)
  have sent : Runs opts s (.taking id channel) (posted s₁ (.unsub target))
      (.removing target channel) := .head (.goes rfl) (.head (.goes rfl) (ready₁.posts rfl))
  refine ⟨_, sent.tail (.goes (if_pos ready₂.free)), ⟨ready₂.up, ready₂.idle, ready₂.written⟩,
    h.counter, h.pending, fun id' => ?_, congrArg (fun c => (c.unsubscribe id).1) h.record⟩
  change (s.conn.maps.subscriptions.erase target).lookup id' = none ↔
    (e.state.subscriptions.erase (e.client.unsubscribe id).2).lookup id' = none
  rw [show target = (e.client.unsubscribe id).2 from
    congrArg (fun c => (c.unsubscribe id).2) h.record, lookup_erase_ite, lookup_erase_ite]
  split_ifs
  exacts [Iff.rfl, h.entered id']

/-- The steps of a request that gets its inbox, publishes and has its reply. -/
theorem request_mirrors (opts : Options) (h : Mirrors e s) (call : ClientRequests.Call M)
    (word : e.subCounter + 1 < 2 ^ 64) {skipped : ℕ}
    (acked : call.timing.subscribing = .acked skipped) (finishes : Finishes call.timing) :
    ∃ inbox s₁ s₂ s₃, Runs opts s (.locking (.subscribe inbox none false)) s₁
        (.returned (.subscribed (e.nextId + skipped) s.channels)) ∧
      Runs opts s₁ (.locking .publish) s₂ (.returned .ok) ∧
      Runs opts s₂ (.taking (e.nextId + skipped) s.channels) s₃ (.returned .ok) ∧
      Mirrors (e.after call) s₃ := by
  obtain ⟨published, ⟨message, replied⟩, taken⟩ := finishes
  have counted : Mirrors { e with replyCounter := (e.replyCounter + 1) % 2 ^ 64 } s :=
    ⟨h.ready, h.counter, h.pending, h.entered, h.record⟩
  obtain ⟨s₁, subscribes, h₁⟩ := subscribe_mirrors opts counted
    (e.inbox ++ ".".toList ++ decimal e.replyCounter) skipped word
  obtain ⟨s₂, publishes, h₂⟩ := publish_mirrors opts h₁ _
  obtain ⟨s₃, unsubscribes, h₃⟩ := unsubscribe_mirrors opts h₂ (e.nextId + skipped) s.channels
  refine ⟨_, s₁, s₂, s₃, subscribes, publishes, unsubscribes, ?_⟩
  rw [Endpoint.after, Endpoint.request, acked, published, replied, taken]
  exact h₃

end ZetMQ.RequestRuns
