import ZetMQ.AccessControl
import ZetMQ.SessionTurns

/-! Publishing through a session does not depend on how its byte stream is cut into
reads: read boundaries decide the batches and whether frames are dispatched or only
counted, not what the subscriptions get and what is counted in the end. -/
namespace ZetMQ.StreamChunking
open Utf8Text ByteBuffer Frames KeyedTable SubjectGrammar WildcardTrie Routing RoutingTable
open Delivery Registry Broker SubscriptionLedger RegistryRefinement DeliveryFrame BrokerRefinement
open RunRefinement DeliveryPlan LedgerDelivery QueueGroups CallTargets Commands Permissions
open PubFastPath SessionLoop SessionSteps AccessControl FullDelivery PubFrames PubVerdicts
open PubDispatch SessionTurns

def wakes (config : ServerConfig) : Event → Bool
  | .received bytes => !bytes.isEmpty
  | .tick elapsedNanos => elapsedNanos ≤ config.heartbeatTimeoutSecs * 10 ^ 9
  | _ => false

def inbound : Event → Bytes
  | .received bytes => bytes
  | _ => []

/-- A wake of the session, with the orders in which the turns after it empty their
pending maps. -/
structure Read where
  wake : Event
  turns : List PendingOrder

def Read.events (read : Read) : List Event := read.wake :: read.turns.map .turn

theorem wake_starts {l : Ledger} {h : Host} (serving : Serving l h) (env : DeliveryPolicy)
    {config : ServerConfig} {event : Event} (woken : wakes config event = true)
    (waiting : h.position = .select) :
    let h' := h.step env config event
    h'.position = .frames ∧ h'.session.readBuf = h.session.readBuf ++ inbound event ∧
      Gained env l [] 0 h h' := by
  have quiet : Shared env l [] h.broker h.broker := .of_quiet serving.refines (.refl _) rfl
  cases event with
  | received bytes =>
    rw [Host.step, if_neg (not_not.mpr waiting),
      if_neg (Bool.not_eq_true' _ |>.mp woken ▸ Bool.false_ne_true)]
    exact ⟨rfl, rfl, quiet, rfl, rfl, rfl⟩
  | tick elapsedNanos =>
    rw [Host.step, if_pos waiting, Host.tick, if_neg (not_not.mpr serving.connected),
      if_neg (Nat.not_lt.mpr (of_decide_eq_true woken)),
      show inbound (.tick elapsedNanos) = [] from rfl, List.append_nil]
    split <;> exact ⟨rfl, rfl, quiet, rfl, rfl, rfl⟩
  | _ => cases woken

theorem reads_gain (env : DeliveryPolicy) {l : Ledger} {config : ServerConfig} (reads : List Read)
    {h : Host} (serving : Serving l h) (waiting : h.position = .select) {due : List Bytes}
    (takes : ∀ frame ∈ due, Takes l.live config.maxFrameSize h.session.authCtx frame)
    (enough : ∀ read ∈ reads, wakes config read.wake = true ∧ due.length < read.turns.length)
    (awaits : Awaits h.session.readBuf due)
    (joined : h.session.readBuf ++ reads.flatMap (inbound ·.wake) = due.flatten) :
    let h' := h.run env config (reads.flatMap Read.events)
    h'.position = .select ∧ Taken env l config due h h' := by
  induction reads generalizing due h with
  | nil =>
    rw [List.flatMap_nil, List.append_nil] at joined
    rw [awaits.eq_nil joined]
    exact ⟨waiting, .of_quiet serving.refines (.refl _) rfl, rfl, rfl, rfl⟩
  | cons read reads ih =>
    obtain ⟨woken, turns⟩ := enough read (List.mem_cons_self ..)
    obtain ⟨framing, buf, start⟩ := wake_starts serving env woken waiting
    have serving' := start.serving serving
    rw [List.flatMap_cons, ← List.append_assoc, ← buf] at joined
    obtain ⟨whole, rest, part, rfl, held, joined', awaits'⟩ := exists_awaits joined
    have due : ∀ frame ∈ rest, Whole config.maxFrameSize frame := fun frame member =>
      (takes frame (List.mem_append_right _ member)).whole
    rw [← start.rights] at takes
    obtain ⟨done, rested, taken⟩ := turns_all env read.turns serving' framing
      (fun frame member => takes frame (List.mem_append_left _ member))
      (by rw [List.length_append] at turns; omega)
      ⟨part_stops due awaits', part_short due awaits'⟩ held
    rw [← rested] at joined' awaits'
    rw [← taken.rights] at takes
    obtain ⟨last, later⟩ := ih (taken.serving serving') done
      (fun frame member => takes frame (List.mem_append_right _ member))
      (fun other member => by
        obtain ⟨woken, turns⟩ := enough other (List.mem_cons_of_mem _ member)
        rw [List.length_append] at turns
        exact ⟨woken, by omega⟩)
      awaits' joined'
    have both := start.trans (taken.append later)
    rw [start.rights, Nat.zero_add] at both
    rw [List.flatMap_cons, Read.events, Host.run, List.foldl_append, List.foldl_cons]
    exact ⟨last, both⟩

theorem removeConnection_published (b : BrokerCore) (conn : ConnectionId) :
    (b.removeConnection conn).metrics.messagesPublished = b.metrics.messagesPublished := by
  have left := foldl_leaveGroup ((b.registry.removeAllForConnection conn).2.map (·.id))
    (b.registry.removeAllForConnection conn).2
    { b with registry := (b.registry.removeAllForConnection conn).1 }
  have counters (subs : List Subscription) (m : CoreMetrics) :
      (subs.foldl (fun m _ => m.decSubscriptions) m).messagesPublished = m.messagesPublished := by
    induction subs generalizing m with
    | nil => rfl
    | cons sub subs ih => exact ih m.decSubscriptions
  have same := congrArg (·.metrics.messagesPublished) left.rest
  exact (counters _ _).trans same

theorem eof_close {h : Host} (waiting : h.position = .select) (env : DeliveryPolicy)
    (config : ServerConfig) :
    let h' := h.run env config [.received [], .close]
    h'.position = .finished ∧ h'.broker.calls = h.broker.calls ∧
      h'.broker.metrics.messagesPublished = accounted h := by
  have ended : h.step env config (.received []) = { h with position := .cleanup } := by
    rw [Host.step, if_neg (not_not.mpr waiting), List.isEmpty_nil, if_pos rfl]
  have closed : h.run env config [.received [], .close] =
      Host.close { h with position := .cleanup } := by
    rw [Host.run, List.foldl_cons, ended]
    rfl
  rw [closed]
  refine ⟨rfl, ?_, ?_⟩
  · rw [Host.close]
    exact (removeConnection_calls _ _).trans (flushPublished_quiet _).calls
  · rw [Host.close]
    exact (removeConnection_published _ _).trans (flushPublished_count _).1

structure Ready (h : Host) : Prop where
  waiting : h.position = .select
  connected : h.session.state = .connected
  unrestricted : h.session.authCtx.publishPatterns = []
  buffer : h.session.readBuf = []

theorem exists_ledger (env : DeliveryPolicy) (config : ServerConfig) (history : List BrokerOp)
    (conn : ConnectionId) (past : List Event) :
    ∃ l, Refines (Host.run env config ⟨run env history, .start conn, .select⟩ past).broker l :=
  run_preserves id (fun refines quiet => refines.frame quiet.same)
    (fun op refines => step_refines env refines op) config past (run_refines env history)

/-- At any moment of any run at which a session is ready to publish: if its inbound
bytes are `PUB` frames that each decode and the live subscriptions have no groups and
accept everything, then however the bytes are cut into reads, each subscription gets
the matching messages once each and in the order of the stream, nothing else is
delivered, and by the end every frame is counted, on top of what the session had
still to flush. -/
theorem reads_do_not_matter (before env : DeliveryPolicy) (config : ServerConfig)
    (history : List BrokerOp) (conn : ConnectionId) (past : List Event) :
    let h := Host.run before config ⟨run before history, .start conn, .select⟩ past
    Ready h →
    (∀ id sub, h.broker.registry.getRef id = some sub →
      sub.queueGroup = none ∧ ∀ log message, env log sub.delivery message = .delivered) →
    ∀ frames : List Bytes, (∀ frame ∈ frames, (itemIn config.maxFrameSize frame).isSome = true) →
    ∀ reads : List Read,
      (∀ read ∈ reads, wakes config read.wake = true ∧ frames.length < read.turns.length) →
      reads.flatMap (inbound ·.wake) = frames.flatten →
    let h' := h.run env config (reads.flatMap Read.events ++ [.received [], .close])
    let new := newCalls h.broker h'.broker
    h'.position = .finished ∧
      (∀ id sub, h.broker.registry.getRef id = some sub →
        new.filter (·.message.subscriptionId = id) =
          ((frames.filterMap (itemIn config.maxFrameSize)).filter
            (sub.pattern.matches ·.subject)).map fun item =>
              ⟨sub.delivery, item.deliveryTo id sub.connectionId, .delivered⟩) ∧
      (∀ call ∈ new, h.broker.registry.getRef call.message.subscriptionId ≠ none) ∧
      h'.broker.metrics.messagesPublished =
        h.broker.metrics.messagesPublished + h.session.localPublished + frames.length := by
  intro h ready plain frames decodes reads enough stream
  obtain ⟨l, refines⟩ : ∃ l, Refines h.broker l := exists_ledger before config history conn past
  have held {entry : LiveSub} (member : entry ∈ l.live) :
      ∃ sub, h.broker.registry.getRef entry.id = some sub ∧ toLive sub = entry :=
    refines.registry.lookup_of_mem member
  have free : ∀ entry ∈ l.live, entry.group = none := by
    intro entry member
    obtain ⟨sub, found, rfl⟩ := held member
    exact (plain _ sub found).1
  have accepting : Accepting env l := by
    intro entry member
    obtain ⟨sub, found, rfl⟩ := held member
    exact (plain _ sub found).2
  have publishable : ∀ frame ∈ frames,
      Publishable config.maxFrameSize h.session.authCtx frame := fun frame member =>
    publishable_free (by rw [AuthContext.isPublishUnrestricted, ready.unrestricted]; rfl)
      (decodes frame member)
  have awaits : Awaits h.session.readBuf frames := by
    rw [ready.buffer]
    cases frames with
    | nil => rfl
    | cons frame later =>
      exact ⟨⟨frame, rfl⟩, Nat.lt_of_lt_of_le (by decide)
        (publishable frame (List.mem_cons_self ..)).whole.peeked.long⟩
  obtain ⟨waiting, gained⟩ := reads_gain env reads ⟨refines, ready.connected⟩ ready.waiting
    (fun frame member => .inl (publishable frame member)) enough awaits
    (by rw [ready.buffer, List.nil_append, stream])
  obtain ⟨finished, silent, count⟩ := eof_close waiting env config
  obtain ⟨new, calls, own, inside⟩ := (gained.shared.reached accepting free).calls
  intro h' new'
  have ran : h' = (h.run env config (reads.flatMap Read.events)).run env config
      [.received [], .close] := List.foldl_append
  have isNew : new' = new := by
    simp only [new']
    rw [ran]
    exact newCalls_of_append (silent.trans calls)
  rw [isNew, ran]
  refine ⟨finished, fun id sub found => ?_, fun call member => ?_, ?_⟩
  · obtain ⟨rfl, member⟩ := refines.registry.of_lookup found
    exact (own _ member).trans (List.map_map ..)
  · obtain ⟨entry, listed, same⟩ := inside call member
    obtain ⟨sub, found, -⟩ := held listed
    rw [← same, found]
    exact Option.some_ne_none sub
  · rw [count, gained.count, countP_mayPublish publishable]
    rfl

def openServer : ServerConfig := ⟨2097152, 30, 60, 1000, ⟨"none".toList, none, []⟩⟩

def connectedSession : Host :=
  Host.run acceptAll openServer
    ⟨run acceptAll [.subscribe 2 ordersNew none 7], .start 1, .select⟩
    [.received (Frame.new .connect 1).encode, .turn (.stored _ _), .turn (.stored _ _)]

def twoReads : List Read :=
  [⟨.received (pubFrame.take 30), [.stored _ _, .stored _ _]⟩,
    ⟨.received (pubFrame.drop 30), [.stored _ _, .stored _ _]⟩]

set_option maxRecDepth 8000 in
theorem split_frame_is_published :
    let h' := connectedSession.run acceptAll openServer
      (twoReads.flatMap Read.events ++ [.received [], .close])
    (newCalls connectedSession.broker h'.broker).filter (·.message.subscriptionId = 1) =
        [⟨7, ⟨1, 2, newOrder, [1], none, none⟩, .delivered⟩] ∧
      h'.broker.metrics.messagesPublished = 1 := by
  have plain : ∀ entry ∈ connectedSession.broker.registry.subscriptions.entries,
      entry.2.queueGroup = none := by decide
  have result := reads_do_not_matter acceptAll acceptAll openServer
    [.subscribe 2 ordersNew none 7] 1
    [.received (Frame.new .connect 1).encode, .turn (.stored _ _), .turn (.stored _ _)]
    ⟨by decide, by decide, by decide, by decide⟩
    (fun id sub found => ⟨plain ⟨id, sub⟩ (AList.mem_lookup_iff.mp found), fun _ _ => rfl⟩)
    [pubFrame] (by decide) twoReads (by decide) (by decide)
  have listener : connectedSession.broker.registry.getRef 1 =
      some ⟨1, 2, ordersNew, none, none, 7⟩ := by decide
  exact ⟨(result.2.1 1 _ listener).trans (by decide), result.2.2.2.trans (by decide)⟩

end ZetMQ.StreamChunking
