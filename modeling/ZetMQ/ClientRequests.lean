import Mathlib.Data.Finset.Card
import ZetMQ.ClientConnection
import ZetMQ.ClientHandshake
import ZetMQ.ClientSubscriptions
import ZetMQ.PubRoundTrip
import ZetMQ.SubFrames

/-! `Client::request` over one connection: a temporary subscription to an inbox, the
publication, the wait for the reply and the clean-up behind it. How each step ends is an
argument; only the last way out reaches the clean-up. -/
namespace ZetMQ.ClientRequests
open Utf8Text ByteBuffer KeyedTable Frames ClientConnection ClientSubscriptions ClientHandshake
open SubFrames PubRoundTrip

/-- Both ends of a connection: the client with its maps and the frames it has handed to
the write task, and the ids that the server holds for the connection. The server takes ids
from a counter, so what it assigns next is new to both. -/
structure Endpoint where
  client : Client
  inbox : Str
  replyCounter : ℕ
  subCounter : ℕ
  state : ConnState ℕ ℕ
  sent : List Frame
  live : Finset ℕ
  nextId : ℕ
  liveBelow : ∀ id ∈ live, id < nextId
  channelsBelow : ∀ id channel, state.subscriptions.lookup id = some channel → id < nextId

/-- How subscribing ends: there is no connection, the write task is gone, the oneshot is
dropped (with the id the server assigned, if it got as far), or there is a `SUBACK`. Other
connections may have taken ids in between. -/
inductive Subscribing where
  | unconnected (e : ClientError)
  | unsent
  | unanswered (skipped : Option ℕ)
  | acked (skipped : ℕ)

inductive Waiting (M : Type) where
  | reply (message : M)
  | timeout
  | closed

structure Timing (M : Type) where
  subscribing : Subscribing
  publishing : Except ClientError Unit
  waiting : Waiting M
  -- whether the write task takes the `UNSUB`
  unsubscribing : Bool

def unsubFrame (id : ℕ) : Frame := (Frame.new .unsub id).withPayload (toBe 8 id)

namespace Endpoint

variable {M : Type}

def post (s : Endpoint) (frame : Frame) : Endpoint := { s with sent := s.sent ++ [frame] }

def assign (s : Endpoint) (skipped : ℕ) : Endpoint :=
  { s with
    live := insert (s.nextId + skipped) s.live
    nextId := s.nextId + skipped + 1
    liveBelow := by
      intro id member
      rcases Finset.mem_insert.mp member with rfl | old
      · exact Nat.lt_succ_self _
      · have below := s.liveBelow id old
        omega
    channelsBelow := by
      intro id channel found
      have below := s.channelsBelow id channel found
      omega }

def release (s : Endpoint) (id : ℕ) : Endpoint :=
  { s with
    live := s.live.erase id
    liveBelow := fun other member => s.liveBelow other (Finset.mem_of_mem_erase member) }

def dropChannel (s : Endpoint) (id : ℕ) : Endpoint :=
  { s with
    state := { s.state with subscriptions := s.state.subscriptions.erase id }
    channelsBelow := fun other channel found =>
      s.channelsBelow other channel (lookup_erase_eq_some.mp found).2 }

def addChannel (s : Endpoint) (id : ℕ) (below : id < s.nextId) (channel : ℕ) : Endpoint :=
  { s with
    state := { s.state with subscriptions := s.state.subscriptions.insert id channel }
    channelsBelow := by
      intro other channel' found
      rcases lookup_insert_eq_some.mp found with ⟨rfl, -⟩ | ⟨-, old⟩
      · exact below
      · exact s.channelsBelow other channel' old }

def register (s : Endpoint) : Endpoint :=
  { s with
    subCounter := (s.subCounter + 1) % 2 ^ 64
    state := { s.state with
      pendingSubs := s.state.pendingSubs.insert s.subCounter s.subCounter } }

def unregister (s : Endpoint) (corrId : ℕ) : Endpoint :=
  { s with state := { s.state with pendingSubs := s.state.pendingSubs.erase corrId } }

def subscribeInternal (s : Endpoint) (subject : Str) :
    Subscribing → Endpoint × Except ClientError ℕ
  | .unconnected e => (s, .error e)
  | .unsent => (s.register, .error .disconnected)
  | .unanswered skipped =>
    let corrId := s.subCounter
    let s := (s.register.post (buildSubFrame subject none corrId)).unregister corrId
    (match skipped with
      | none => s
      | some skipped => s.assign skipped, .error .disconnected)
  | .acked skipped =>
    let corrId := s.subCounter
    let s := s.register.post (buildSubFrame subject none corrId)
    let id := s.nextId + skipped
    (((s.assign skipped).unregister corrId).addChannel id (Nat.lt_succ_self _) corrId, .ok id)

def unsubscribe (s : Endpoint) (id : ℕ) (taken : Bool) : Endpoint × Except ClientError Unit :=
  let (client, target) := s.client.unsubscribe id
  let s := { s with client := client }
  if taken then (((s.post (unsubFrame target)).release target).dropChannel target, .ok ())
  else (s, .error .disconnected)

def request (s : Endpoint) (subject : Str) (payload : Bytes) (t : Timing M) :
    Endpoint × Except ClientError M :=
  let reply := s.inbox ++ ".".toList ++ decimal s.replyCounter
  let s := { s with replyCounter := (s.replyCounter + 1) % 2 ^ 64 }
  match s.subscribeInternal reply t.subscribing with
  | (s, .error e) => (s, .error e)
  | (s, .ok id) =>
    match t.publishing with
    | .error e => (s, .error e)
    | .ok () =>
      let s := s.post ((Frame.new .pub 0).withPayload (pubPayload subject (some reply) payload))
      match t.waiting with
      | .timeout => (s, .error .timeout)
      -- the sender is gone from the map
      | .closed => (s.dropChannel id, .error .disconnected)
      | .reply message => ((s.unsubscribe id t.unsubscribing).1, .ok message)

def temporary (s : Endpoint) (t : Timing M) : Option ℕ :=
  match t.subscribing with
  | .unconnected _ => none
  | .unsent => none
  | .unanswered skipped => skipped.map (s.nextId + ·)
  | .acked skipped => some (s.nextId + skipped)

end Endpoint

structure Call (M : Type) where
  subject : Str
  payload : Bytes
  timing : Timing M

variable {M : Type}

def Endpoint.after (s : Endpoint) (call : Call M) : Endpoint :=
  (s.request call.subject call.payload call.timing).1

structure SameEnds (origin s : Endpoint) : Prop where
  live : s.live = origin.live
  channels : ∀ id, s.state.subscriptions.lookup id = origin.state.subscriptions.lookup id

def GivenBack (s : Endpoint) (call : Call M) : Prop :=
  ∀ id, s.temporary call.timing = some id →
    unsubFrame id ∈ (s.after call).sent.drop s.sent.length ∧
      (s.after call).state.subscriptions.lookup id = none

def StaysClean (origin : Endpoint) : Endpoint → List (Call M) → Prop
  | _, [] => True
  | s, call :: calls => GivenBack s call ∧ SameEnds origin (s.after call) ∧
      StaysClean origin (s.after call) calls

def Finishes (t : Timing M) : Prop :=
  t.publishing = .ok () ∧ (∃ message, t.waiting = .reply message) ∧ t.unsubscribing = true

def Tidy (s : Endpoint) (t : Timing M) : Prop :=
  ∀ id, s.temporary t = some id → (∃ skipped, t.subscribing = .acked skipped) ∧ Finishes t ∧
    ∀ active, s.client.subscriptions.lookup id = some active → active.serverSubId = id

def AllTidy : Endpoint → List (Call M) → Prop
  | _, [] => True
  | s, call :: calls => Tidy s call.timing ∧ AllTidy (s.after call) calls

theorem SameEnds.refl (s : Endpoint) : SameEnds s s := ⟨rfl, fun _ => rfl⟩

theorem SameEnds.trans {r s t : Endpoint} (first : SameEnds r s) (later : SameEnds s t) :
    SameEnds r t :=
  ⟨later.live.trans first.live, fun id => (later.channels id).trans (first.channels id)⟩

theorem SameEnds.symm {r s : Endpoint} (same : SameEnds r s) : SameEnds s r :=
  ⟨same.live.symm, fun id => (same.channels id).symm⟩

theorem new_id (s : Endpoint) (skipped : ℕ) : s.nextId + skipped ∉ s.live := by
  intro member
  have below := s.liveBelow _ member
  omega

theorem not_same_of_insert {s t : Endpoint} {skipped : ℕ}
    (left : t.live = insert (s.nextId + skipped) s.live) : ¬SameEnds s t := by
  intro same
  rw [same.live] at left
  exact new_id s skipped (left ▸ Finset.mem_insert_self _ _)

theorem new_channel (s : Endpoint) (skipped : ℕ) :
    s.state.subscriptions.lookup (s.nextId + skipped) = none := by
  cases found : s.state.subscriptions.lookup (s.nextId + skipped) with
  | none => rfl
  | some channel =>
    have below := s.channelsBelow _ channel found
    omega

theorem target_eq_iff (c : Client) (id : ℕ) :
    (c.unsubscribe id).2 = id ↔
      ∀ active, c.subscriptions.lookup id = some active → active.serverSubId = id := by
  rw [Client.unsubscribe]
  cases c.subscriptions.lookup id <;> simp

section Acked

variable (s : Endpoint) (call : Call M) {skipped : ℕ}
  (acked : call.timing.subscribing = .acked skipped)

include acked

theorem live_unfinished (unfinished : ¬Finishes call.timing) :
    (s.after call).live = insert (s.nextId + skipped) s.live := by
  unfold Endpoint.after Endpoint.request Endpoint.subscribeInternal
  simp only [acked]
  cases published : call.timing.publishing with
  | error e => rfl
  | ok done =>
    cases waited : call.timing.waiting with
    | timeout => rfl
    | closed => rfl
    | reply message =>
      cases taken : call.timing.unsubscribing with
      | true => exact absurd ⟨published, ⟨message, waited⟩, taken⟩ unfinished
      | false => rfl

theorem after_finished (finishes : Finishes call.timing) :
    (s.after call).live = (insert (s.nextId + skipped) s.live).erase
        (s.client.unsubscribe (s.nextId + skipped)).2 ∧
      (∀ id, (s.after call).state.subscriptions.lookup id =
        if id = (s.client.unsubscribe (s.nextId + skipped)).2 then none
        else if id = s.nextId + skipped then some s.subCounter
        else s.state.subscriptions.lookup id) ∧
      unsubFrame (s.client.unsubscribe (s.nextId + skipped)).2 ∈
        (s.after call).sent.drop s.sent.length := by
  obtain ⟨published, ⟨message, waited⟩, taken⟩ := finishes
  unfold Endpoint.after Endpoint.request Endpoint.subscribeInternal
  simp only [acked, published, waited, taken, Endpoint.unsubscribe, if_true]
  refine ⟨rfl, fun id => ?_, ?_⟩
  · simp only [Endpoint.dropChannel, Endpoint.release, Endpoint.post, Endpoint.addChannel,
      Endpoint.unregister, Endpoint.assign, Endpoint.register, lookup_erase_ite,
      lookup_insert_ite]
  · simp [Endpoint.dropChannel, Endpoint.release, Endpoint.post, Endpoint.addChannel,
      Endpoint.unregister, Endpoint.assign, Endpoint.register]

theorem cleaned_acked_iff :
    GivenBack s call ∧ SameEnds s (s.after call) ↔ Tidy s call.timing := by
  have made : s.temporary call.timing = some (s.nextId + skipped) := by
    rw [Endpoint.temporary, acked]
  have tidy : Tidy s call.timing ↔ Finishes call.timing ∧
      (s.client.unsubscribe (s.nextId + skipped)).2 = s.nextId + skipped := by
    rw [target_eq_iff, Tidy, made]
    simp [acked]
  rw [tidy]
  by_cases finishes : Finishes call.timing
  · obtain ⟨live, channels, gone⟩ := after_finished s call acked finishes
    rw [and_iff_right finishes]
    constructor
    · -- the new id must be gone from the server, so it is the one that was released
      rintro ⟨-, same⟩
      by_contra differ
      have left : s.nextId + skipped ∈ (s.after call).live := by
        rw [live]
        exact Finset.mem_erase.mpr ⟨Ne.symm differ, Finset.mem_insert_self _ _⟩
      rw [same.live] at left
      exact new_id s skipped left
    · intro own
      rw [own] at live channels gone
      refine ⟨fun id temporary => ?_, ?_, fun id => ?_⟩
      · cases made.symm.trans temporary
        exact ⟨gone, (channels _).trans (if_pos rfl)⟩
      · rw [live, Finset.erase_insert (new_id s skipped)]
      · rw [channels]
        split_ifs with same
        · rw [same, new_channel]
        · rfl
  · refine iff_of_false (fun clean => ?_) (fun both => finishes both.1)
    exact not_same_of_insert (live_unfinished s call acked finishes) clean.2

end Acked

theorem after_untouched (s : Endpoint) {call : Call M}
    (none : s.temporary call.timing = none) : SameEnds s (s.after call) := by
  unfold Endpoint.after Endpoint.request
  unfold Endpoint.temporary at none
  cases how : call.timing.subscribing with
  | unconnected e => exact ⟨rfl, fun _ => rfl⟩
  | unsent => exact ⟨rfl, fun _ => rfl⟩
  | unanswered skipped =>
    rw [how, Option.map_eq_none_iff] at none
    subst none
    exact ⟨rfl, fun _ => rfl⟩
  | acked skipped =>
    rw [how] at none
    cases none

theorem live_unanswered (s : Endpoint) {call : Call M} {skipped : ℕ}
    (how : call.timing.subscribing = .unanswered (some skipped)) :
    (s.after call).live = insert (s.nextId + skipped) s.live := by
  unfold Endpoint.after Endpoint.request Endpoint.subscribeInternal
  rw [how]
  rfl

theorem cleaned_iff (s : Endpoint) (call : Call M) :
    GivenBack s call ∧ SameEnds s (s.after call) ↔ Tidy s call.timing := by
  cases made : s.temporary call.timing with
  | none =>
    refine iff_of_true ⟨fun id temporary => ?_, after_untouched s made⟩ fun id temporary => ?_
    · cases made.symm.trans temporary
    · cases made.symm.trans temporary
  | some id =>
    cases how : call.timing.subscribing with
    | unconnected e => simp [Endpoint.temporary, how] at made
    | unsent => simp [Endpoint.temporary, how] at made
    | acked skipped => exact cleaned_acked_iff s call how
    | unanswered skipped =>
      cases skipped with
      | none => simp [Endpoint.temporary, how] at made
      | some skipped =>
        refine iff_of_false (fun clean => ?_) fun tidy => ?_
        · exact not_same_of_insert (live_unanswered s how) clean.2
        · obtain ⟨other, acked⟩ := (tidy id made).1
          cases how.symm.trans acked

theorem staysClean_iff {origin s : Endpoint} (same : SameEnds origin s) (calls : List (Call M)) :
    StaysClean origin s calls ↔ AllTidy s calls := by
  induction calls generalizing s with
  | nil => rfl
  | cons call calls ih =>
    rw [StaysClean, AllTidy, ← cleaned_iff, and_assoc]
    constructor
    · rintro ⟨back, kept, later⟩
      exact ⟨back, same.symm.trans kept, (ih kept).mp later⟩
    · rintro ⟨back, kept, later⟩
      exact ⟨back, same.trans kept, (ih (same.trans kept)).mpr later⟩

/-- However many requests follow each other: all of them clean up behind themselves
exactly if all are tidy. -/
theorem requests_clean_up_iff (s : Endpoint) (calls : List (Call M)) :
    StaysClean s s calls ↔ AllTidy s calls :=
  staysClean_iff (.refl s) calls

theorem unfinished_pile_up (s : Endpoint) (calls : List (Call M))
    (acked : ∀ call ∈ calls, ∃ skipped, call.timing.subscribing = .acked skipped)
    (unfinished : ∀ call ∈ calls, ¬Finishes call.timing) :
    (calls.foldl Endpoint.after s).live.card = s.live.card + calls.length := by
  induction calls generalizing s with
  | nil => rfl
  | cons call calls ih =>
    obtain ⟨skipped, how⟩ := acked call (List.mem_cons_self ..)
    have now := live_unfinished s call how (unfinished call (List.mem_cons_self ..))
    rw [List.foldl_cons, ih _ (fun other member => acked other (List.mem_cons_of_mem _ member))
      (fun other member => unfinished other (List.mem_cons_of_mem _ member)), now,
      Finset.card_insert_of_notMem (new_id s skipped), List.length_cons]
    omega

def connectedEnds : Endpoint :=
  { client := ⟨∅⟩
    inbox := "_INBOX.0.0".toList
    replyCounter := 0
    subCounter := 1
    state := .new
    sent := []
    live := ∅
    nextId := 1
    liveBelow := by simp
    channelsBelow := by simp [ConnState.new] }

def missingResponder : Call Unit :=
  ⟨"rpc.missing".toList, [0x70], ⟨.acked 0, .ok (), .timeout, true⟩⟩

/-- Nobody answers: the request times out and its subscription stays, on both ends. -/
theorem timeout_leaks :
    (connectedEnds.request missingResponder.subject missingResponder.payload
        missingResponder.timing).2 = .error .timeout ∧
      (connectedEnds.after missingResponder).live = {1} ∧
      (connectedEnds.after missingResponder).state.subscriptions.lookup 1 = some 1 ∧
      unsubFrame 1 ∉ (connectedEnds.after missingResponder).sent ∧
      ¬StaysClean connectedEnds connectedEnds [missingResponder] := by
  have left : (connectedEnds.after missingResponder).live = {1} := by decide
  refine ⟨rfl, left, by decide, by decide, ?_⟩
  rintro ⟨-, same, -⟩
  rw [same.live] at left
  exact absurd left (by decide)

end ZetMQ.ClientRequests
