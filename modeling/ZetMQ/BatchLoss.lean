import ZetMQ.StreamChunking

/-! What a malformed publish does to the publishes in front of it. A batch is dispatched
only once it is complete, so the frames that share a batch with one that cannot be
decoded are lost with it. -/
namespace ZetMQ.BatchLoss
open Utf8Text ByteBuffer Frames RoutingTable Delivery Registry Broker SubscriptionLedger
open RegistryRefinement BrokerRefinement RunRefinement QueueGroups Commands Permissions PubFastPath
open SessionLoop SessionSteps AccessControl FullDelivery PubFrames PubVerdicts PubBatches
open PubDispatch SessionTurns StreamChunking

def Broken (maxFrameSize : ℕ) (bad : Bytes) : Prop :=
  refused maxFrameSize bad = true ∨ Whole maxFrameSize bad ∧ commandIn maxFrameSize bad = none

variable {maxFrameSize : ℕ} {bad : Bytes} {h : Host}

theorem Broken.cases (broken : Broken maxFrameSize bad) (live : List LiveSub) (ctx : AuthContext) :
    Fails live maxFrameSize ctx bad ∨
      live = [] ∧ Whole maxFrameSize bad ∧ drainTakes ctx bad = true := by
  rcases broken with isRefused | ⟨whole, none⟩
  · exact .inl (.inl isRefused)
  · by_cases taken : live = [] ∧ drainTakes ctx bad = true
    · exact .inr ⟨taken.1, whole, taken.2⟩
    · exact .inl (.inr ⟨whole, none, taken⟩)

section
variable (env : DeliveryPolicy) {l : Ledger} {config : ServerConfig}

theorem read_starts (config : ServerConfig) (serving : Serving l h) (waiting : h.position = .select)
    (empty : h.session.readBuf = []) {bytes : Bytes} (isPub : nextFrameIsPub bytes = true) :
    let h' := h.step env config (.received bytes)
    h'.position = .frames ∧ h'.session.readBuf = bytes ∧ Gained env l [] 0 h h' := by
  have woken : wakes config (.received bytes) = true := by
    cases bytes with
    | nil => exact absurd isPub (by decide)
    | cons => rfl
  obtain ⟨framing, buf, start⟩ := wake_starts serving env woken waiting
  rw [empty] at buf
  exact ⟨framing, buf, start⟩

section
variable (serving : Serving l h) (waiting : h.position = .select) (empty : h.session.readBuf = [])
include serving waiting empty

theorem read_takes {read : Read} {frame : Bytes}
    (takes : Takes l.live config.maxFrameSize h.session.authCtx frame)
    (wake : read.wake = .received frame) (enough : 1 < read.turns.length) :
    let h' := h.run env config read.events
    h'.position = .select ∧ h'.session.readBuf = [] ∧ Taken env l config [frame] h h' := by
  have isPub := takes.whole.isPub []
  rw [List.append_nil] at isPub
  obtain ⟨framing, buf, start⟩ := read_starts env config serving waiting empty isPub
  obtain ⟨done, rested, gained⟩ := @turns_all env l config read.turns _ (start.serving serving)
    framing [frame]
    (fun other member => by
      rw [List.mem_singleton.mp member, start.rights]
      exact takes)
    enough [] (incomplete_nil _)
    (by rw [buf, List.flatten_singleton, List.append_nil])
  have both := start.trans gained
  rw [start.rights, Nat.zero_add] at both
  rw [Read.events, wake]
  exact ⟨done, rested, both⟩

theorem read_fails {read : Read} (fails : Fails l.live config.maxFrameSize h.session.authCtx bad)
    (wake : read.wake = .received bad) (enough : 1 < read.turns.length) :
    let h' := h.run env config read.events
    h'.position = .select ∧ h'.session.readBuf = [] ∧ Gained env l [] 0 h h' := by
  obtain ⟨framing, buf, start⟩ := read_starts env config serving waiting empty fails.isPub
  obtain ⟨done, rested, gained⟩ := @turns_lost env l config read.turns _ (start.serving serving)
    framing [] nofun bad (start.rights ▸ fails) enough buf
  rw [Read.events, wake]
  exact ⟨done, rested, start.trans gained⟩

end

section
variable (reads : List Read) (serving : Serving l h) (waiting : h.position = .select)
  (empty : h.session.readBuf = [])
include serving waiting empty

theorem reads_all {frames : List Bytes}
    (takes : ∀ frame ∈ frames, Takes l.live config.maxFrameSize h.session.authCtx frame)
    (wakes : reads.map (·.wake) = frames.map .received)
    (enough : ∀ read ∈ reads, 1 < read.turns.length) :
    let h' := h.run env config (reads.flatMap Read.events)
    h'.position = .select ∧ h'.session.readBuf = [] ∧ Taken env l config frames h h' := by
  induction reads generalizing frames h with
  | nil =>
    rw [List.map_eq_nil_iff.mp wakes.symm]
    exact ⟨waiting, empty, .of_quiet serving.refines (.refl _) rfl, rfl, rfl, rfl⟩
  | cons read reads ih =>
    cases frames with
    | nil => cases wakes
    | cons frame frames =>
      obtain ⟨wake, wakes⟩ := List.cons.inj wakes
      obtain ⟨done, rested, first⟩ := read_takes env serving waiting empty
        (takes frame (List.mem_cons_self ..)) wake (enough read (List.mem_cons_self ..))
      obtain ⟨last, clear, later⟩ := ih (first.serving serving) done rested
        (fun other member => by
          rw [first.rights]
          exact takes other (List.mem_cons_of_mem _ member))
        wakes fun other member => enough other (List.mem_cons_of_mem _ member)
      rw [List.flatMap_cons, Host.run, List.foldl_append]
      exact ⟨last, clear, first.append later⟩

theorem reads_lost {frames : List Bytes}
    (takes : ∀ frame ∈ frames, Takes l.live config.maxFrameSize h.session.authCtx frame)
    (fails : Fails l.live config.maxFrameSize h.session.authCtx bad)
    (wakes : reads.map (·.wake) = (frames ++ [bad]).map .received)
    (enough : ∀ read ∈ reads, 1 < read.turns.length) :
    let h' := h.run env config (reads.flatMap Read.events)
    h'.position = .select ∧ h'.session.readBuf = [] ∧ Taken env l config frames h h' := by
  rw [List.map_append] at wakes
  obtain ⟨front, back, rfl, fronts, backs⟩ := List.map_eq_append_iff.mp wakes
  obtain ⟨read, rfl, wake⟩ := List.map_eq_singleton_iff.mp backs
  obtain ⟨done, rested, first⟩ := reads_all env front serving waiting empty takes fronts
    fun other member => enough other (List.mem_append_left _ member)
  obtain ⟨last, clear, later⟩ := read_fails env (first.serving serving) done rested
    (first.rights ▸ fails) wake
    (enough read (List.mem_append_right _ (List.mem_singleton_self read)))
  rw [List.flatMap_append, List.flatMap_singleton, Host.run, List.foldl_append]
  have both := first.trans later
  rw [List.append_nil] at both
  exact ⟨last, clear, both⟩

end

end

theorem ended_of_gained {env : DeliveryPolicy} {l : Ledger} {items : List PublishItem} {n : ℕ}
    {h' : Host} (gained : Gained env l items n h h') (waiting : h'.position = .select)
    (config : ServerConfig) :
    let ended := h'.run env config [.received [], .close]
    ended.broker.metrics.messagesPublished = accounted h + n ∧
      ∀ entry ∈ l.live, Accepts env entry →
        callsFor entry.id (newCalls h.broker ended.broker) =
          share l.live h.broker.queueGroups items entry := by
  intro ended
  obtain ⟨-, silent, count⟩ := eof_close waiting env config
  obtain ⟨new, calls, own, -⟩ := gained.shared.calls
  rw [newCalls_of_append (silent.trans calls)]
  exact ⟨count.trans gained.count, own⟩

def Alike (env : DeliveryPolicy) (b : BrokerCore) (one other : Host) : Prop :=
  (∀ id sub, b.registry.getRef id = some sub →
      (∀ log message, env log sub.delivery message = .delivered) →
      callsFor id (newCalls b one.broker) = callsFor id (newCalls b other.broker)) ∧
    one.broker.metrics.messagesPublished = other.broker.metrics.messagesPublished

def unread (h : Host) : Host := { h.setBuf [] with position := .select }

def Kept (h : Host) (maxFrameSize count : ℕ) (bad : Bytes) : Prop :=
  if !h.broker.hasActiveSubscriptions && !h.broker.router.hasWildcards then
    count % noSubPubBatchLimit = 0 ∨
      refused maxFrameSize bad = false ∧ drainTakes h.session.authCtx bad = true
  else count % pubBatchLimit = 0

instance (h : Host) (maxFrameSize count : ℕ) (bad : Bytes) :
    Decidable (Kept h maxFrameSize count bad) := by
  unfold Kept
  infer_instance

theorem kept_of_fails {l : Ledger} (refines : Refines h.broker l)
    (fails : Fails l.live maxFrameSize h.session.authCtx bad) (count : ℕ) :
    Kept h maxFrameSize count bad ↔ count % batchLimit l.live = 0 := by
  rw [Kept]
  by_cases nobody : l.live = []
  · rw [if_pos ((nobody_iff refines).mpr nobody), batchLimit_nobody nobody]
    refine or_iff_left fun ⟨accepted, drained⟩ => ?_
    rcases fails with isRefused | ⟨-, -, notDrained⟩
    · exact Bool.false_ne_true (accepted.symm.trans isRefused)
    · exact notDrained ⟨nobody, drained⟩
  · rw [if_neg (mt (nobody_iff refines).mp nobody), batchLimit_somebody nobody]

theorem kept_of_takes {l : Ledger} (refines : Refines h.broker l) (nobody : l.live = [])
    (whole : Whole maxFrameSize bad) (drained : drainTakes h.session.authCtx bad = true)
    (count : ℕ) : Kept h maxFrameSize count bad := by
  rw [Kept, if_pos ((nobody_iff refines).mpr nobody)]
  refine .inr ⟨?_, drained⟩
  have peeked := whole.peek []
  rw [List.append_nil] at peeked
  rw [refused, peeked, Except.isOk, Except.toBool, Bool.not_true, Bool.and_false]

theorem alike_iff {env : DeliveryPolicy} {l : Ledger} {one other : Host}
    (refines : Refines h.broker l) {items more : List PublishItem} {n m : ℕ}
    (first : Gained env l items n h one) (second : Gained env l more m (unread h) other)
    (rested : one.position = .select) (waiting : other.position = .select)
    (same : n = m → items = more) (config : ServerConfig) :
    Alike env h.broker (one.run env config [.received [], .close])
      (other.run env config [.received [], .close]) ↔ n = m := by
  obtain ⟨count, own⟩ := ended_of_gained first rested config
  obtain ⟨count', own'⟩ := ended_of_gained second waiting config
  have start : accounted (unread h) = accounted h := rfl
  rw [Alike, count, count', start, Nat.add_left_cancel_iff, and_iff_right_iff_imp]
  intro equal id sub found accepts
  obtain ⟨rfl, member⟩ := refines.registry.of_lookup found
  have shared := own _ member accepts
  rw [same equal] at shared
  exact shared.trans (own' _ member accepts).symm

/-- At any moment of any run: let the read buffer of a connected session hold publishes
that decode and are allowed, with a broken `PUB` frame behind them. The outcome is the
same as if each frame had come in a read of its own exactly when the broken frame starts
a batch or the drain does not look at what is broken in it. -/
theorem predecessors_survive_iff (before env : DeliveryPolicy) (config : ServerConfig)
    (history : List BrokerOp) (conn : ConnectionId) (past : List Event) :
    let h := Host.run before config ⟨run before history, .start conn, .select⟩ past
    h.position = .frames → h.session.state = .connected →
    ∀ frames : List Bytes,
      (∀ frame ∈ frames, Publishable config.maxFrameSize h.session.authCtx frame) →
    ∀ bad : Bytes, Broken config.maxFrameSize bad → h.session.readBuf = frames.flatten ++ bad →
    ∀ orders : List PendingOrder, frames.length + 1 < orders.length →
    ∀ reads : List Read, reads.map (·.wake) = (frames ++ [bad]).map .received →
      (∀ read ∈ reads, 1 < read.turns.length) →
    let together := h.run env config (orders.map .turn ++ [.received [], .close])
    let apart := (unread h).run env config (reads.flatMap Read.events ++ [.received [], .close])
    Alike env h.broker together apart ↔ Kept h config.maxFrameSize frames.length bad := by
  intro h framing connected frames publishable bad broken buf orders enough reads wakes turns
    together apart
  obtain ⟨l, refines⟩ : ∃ l, Refines h.broker l := exists_ledger before config history conn past
  have serving : Serving l h := ⟨refines, connected⟩
  have waiting : Serving l (unread h) := ⟨refines, connected⟩
  have takes : ∀ frame ∈ frames, Takes l.live config.maxFrameSize h.session.authCtx frame :=
    fun frame member => .inl (publishable frame member)
  have isTogether : together = (h.run env config (orders.map .turn)).run env config
      [.received [], .close] := List.foldl_append
  have isApart : apart = ((unread h).run env config (reads.flatMap Read.events)).run env config
      [.received [], .close] := List.foldl_append
  rw [isTogether, isApart]
  rcases broken.cases l.live h.session.authCtx with fails | ⟨nobody, whole, drained⟩
  · obtain ⟨rested, -, first⟩ := turns_lost env orders serving framing takes fails enough buf
    obtain ⟨stopped, -, second⟩ := reads_lost env reads waiting rfl rfl takes fails wakes turns
    rw [Taken, countP_mayPublish fun frame member =>
      publishable frame (List.mem_of_mem_take member), List.length_take] at first
    have all := countP_mayPublish publishable
    have part := Nat.mod_le frames.length (batchLimit l.live)
    rw [alike_iff refines first second rested stopped (fun equal => ?_) config,
      kept_of_fails refines fails]
    · rw [show (unread h).session.authCtx = h.session.authCtx from rfl, all]
      omega
    · rw [show (unread h).session.authCtx = h.session.authCtx from rfl, all] at equal
      rw [List.take_of_length_le (by omega)]
  -- The drain counts the broken frame like any other, however it comes.
  · have all : ∀ frame ∈ frames ++ [bad],
        Takes l.live config.maxFrameSize h.session.authCtx frame := by
      intro frame member
      rcases List.mem_append.mp member with front | last
      · exact takes frame front
      · rw [List.mem_singleton.mp last]
        exact .inr ⟨nobody, whole, drained⟩
    obtain ⟨rested, -, first⟩ := turns_all env orders serving framing all
      (by rw [List.length_append, List.length_singleton]; exact enough)
      (incomplete_nil _)
      (by rw [buf, List.flatten_append, List.flatten_singleton, List.append_nil])
    obtain ⟨stopped, -, second⟩ := reads_all env reads waiting rfl rfl all wakes turns
    rw [alike_iff refines first second rested stopped (fun _ => rfl) config]
    exact iff_of_true rfl (kept_of_takes refines nobody whole drained frames.length)

theorem cutSubject_broken : Broken openServer.maxFrameSize cutSubject :=
  .inr ⟨⟨⟨by decide, by decide, by decide, by decide, by decide, by decide⟩, by decide⟩, by decide⟩

private def badRead : List Event :=
  [.received (Frame.new .connect 1).encode, .turn (.stored _ _), .turn (.stored _ _),
    .received (pubFrame ++ cutSubject)]

private def threeTurns : List PendingOrder := [.stored _ _, .stored _ _, .stored _ _]

private def oneByOne : List Read := [pubFrame, cutSubject].map (⟨.received ·, threeTurns⟩)

set_option maxRecDepth 8000 in
theorem drained_predecessor_survives :
    let h := Host.run acceptAll openServer ⟨run acceptAll [], .start 1, .select⟩ badRead
    Alike acceptAll h.broker
      (h.run acceptAll openServer (threeTurns.map .turn ++ [.received [], .close]))
      ((unread h).run acceptAll openServer
        (oneByOne.flatMap Read.events ++ [.received [], .close])) :=
  (predecessors_survive_iff acceptAll acceptAll openServer [] 1 badRead (by decide) (by decide)
    [pubFrame] (fun frame member => publishable_free (by decide) (by
      rw [List.mem_singleton.mp member]
      decide)) cutSubject cutSubject_broken (by decide) threeTurns (by decide) oneByOne rfl
    (by decide)).mpr (by decide)

set_option maxRecDepth 8000 in
/-- With a listener the publish in front of the broken frame reaches nobody and is not
counted; in a read of its own it is. -/
theorem broken_frame_drops_its_predecessor :
    let h := Host.run acceptAll openServer
      ⟨run acceptAll [.subscribe 2 ordersNew none 7], .start 1, .select⟩ badRead
    let together := h.run acceptAll openServer (threeTurns.map .turn ++ [.received [], .close])
    let apart := (unread h).run acceptAll openServer
      (oneByOne.flatMap Read.events ++ [.received [], .close])
    h.position = .frames ∧ h.session.state = .connected ∧
      h.session.readBuf = pubFrame ++ cutSubject ∧
      (itemIn openServer.maxFrameSize pubFrame).isSome = true ∧
      h.session.authCtx.isPublishUnrestricted = true ∧
      commandIn openServer.maxFrameSize cutSubject = none ∧
      callsFor 1 (newCalls h.broker together.broker) = [] ∧
      together.broker.metrics.messagesPublished = 0 ∧
      callsFor 1 (newCalls h.broker apart.broker) =
        [⟨7, ⟨1, 2, newOrder, [1], none, none⟩, .delivered⟩] ∧
      apart.broker.metrics.messagesPublished = 1 := by
  decide

end ZetMQ.BatchLoss
