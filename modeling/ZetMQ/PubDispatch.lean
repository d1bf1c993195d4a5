import ZetMQ.FullDelivery
import ZetMQ.PubBatches

/-! One call of `dispatch_publish_batch_from_read_buf`. It takes a batch of frames off
the buffer and shares out what can be published of them, or it fails and all that it
has taken is lost. -/
namespace ZetMQ.PubDispatch
open Utf8Text ByteBuffer Frames KeyedTable SubjectGrammar WildcardTrie Routing RoutingTable Delivery
open Registry Broker SubscriptionLedger RegistryRefinement BrokerRefinement LedgerDelivery
open DeliveryPlan BatchDelivery FrameCodec Commands Permissions PubFastPath SessionSteps
  FullDelivery
open PubFrames PubDecoders PubSections PubVerdicts PubBatches

/-- `dispatch_publish_batch_from_read_buf` past its shortcut. -/
def generalPath (env : DeliveryPolicy) (order : PendingOrder) (ctx : AuthContext)
    (maxFrameSize : ℕ) (loop : PubLoop) : Except ProtocolError (Bool × ℕ) × PubLoop :=
  match pubLoop (collectFrame ctx maxFrameSize) pubBatchLimit loop with
  | (some e, loop) => (.error e, loop)
  | (none, loop) =>
    let broker := if loop.commands.isEmpty then loop.broker
      else dispatchPublishBatch env order loop.broker loop.commands
    (.ok (0 < loop.processed, 0), { loop with broker := broker })

theorem dispatch_paths (env : DeliveryPolicy) (order : PendingOrder) (ctx : AuthContext)
    (maxFrameSize : ℕ) (loop : PubLoop) :
    dispatchPublishBatchFromReadBuf env order ctx maxFrameSize loop =
      if !loop.broker.hasActiveSubscriptions && !loop.broker.router.hasWildcards then
        drainPublishBatchWithoutSubscribers ctx maxFrameSize loop
      else generalPath env order ctx maxFrameSize loop := rfl

theorem nobody_iff {b : BrokerCore} {l : Ledger} (h : Refines b l) :
    (!b.hasActiveSubscriptions && !b.router.hasWildcards) = true ↔ l.live = [] := by
  rw [BrokerCore.hasActiveSubscriptions, h.active, readCounter_natCast]
  constructor
  · intro nobody
    simp only [Bool.and_eq_true, Bool.not_eq_true', decide_eq_false_iff_not] at nobody
    exact List.length_eq_zero_iff.mp (Nat.eq_zero_of_not_pos nobody.1)
  · intro empty
    have none : b.router.wildcardTrie.subscriberCount = 0 := by
      rw [BrokerCore.router, h.registry.routes.count, empty]
      rfl
    have flag : b.router.hasWildcards = !b.router.wildcardTrie.isEmpty := h.registry.routes.flag
    rw [flag, SubjectTrie.isEmpty, none, empty]
    rfl

theorem length_items {maxFrameSize : ℕ} {frames : List Bytes}
    (decodes : ∀ frame ∈ frames, (itemIn maxFrameSize frame).isSome = true) :
    (frames.filterMap (itemIn maxFrameSize)).length = frames.length := by
  rw [List.length_filterMap_eq_countP, List.countP_eq_length.mpr decodes]

theorem isSome_command {maxFrameSize : ℕ} {frame : Bytes}
    (decodes : (itemIn maxFrameSize frame).isSome = true) :
    (commandIn maxFrameSize frame).isSome = true := by
  unfold itemIn at decodes
  cases found : commandIn maxFrameSize frame with
  | none =>
    rw [found] at decodes
    exact decodes
  | some command => rfl

section
variable {b : BrokerCore} {l : Ledger} (refines : Refines b l) (env : DeliveryPolicy)
  (order : PendingOrder) (ctx : AuthContext) (maxFrameSize : ℕ) (buf : Bytes)
include refines

theorem dispatch_nobody (nobody : l.live = []) :
    dispatchPublishBatchFromReadBuf env order ctx maxFrameSize (.start buf b) =
      drainPublishBatchWithoutSubscribers ctx maxFrameSize (.start buf b) := by
  rw [dispatch_paths]
  exact if_pos ((nobody_iff refines).mpr nobody)

theorem dispatch_somebody (somebody : l.live ≠ []) :
    dispatchPublishBatchFromReadBuf env order ctx maxFrameSize (.start buf b) =
      generalPath env order ctx maxFrameSize (.start buf b) := by
  rw [dispatch_paths]
  exact if_neg (mt (nobody_iff refines).mp somebody)

end

theorem generalPath_dispatches {env : DeliveryPolicy} {order : PendingOrder} {ctx : AuthContext}
    {maxFrameSize : ℕ} {loop loop' : PubLoop}
    (looped : pubLoop (collectFrame ctx maxFrameSize) pubBatchLimit loop = (none, loop')) :
    generalPath env order ctx maxFrameSize loop = (.ok (0 < loop'.processed, 0), { loop' with
      broker := dispatchPublishBatch env order loop'.broker loop'.commands }) := by
  have same : (if loop'.commands.isEmpty then loop'.broker
      else dispatchPublishBatch env order loop'.broker loop'.commands) =
      dispatchPublishBatch env order loop'.broker loop'.commands := by
    rw [dispatchPublishBatch]
    split <;> rfl
  rw [generalPath, looped]
  dsimp only
  rw [same]

def batchLimit (live : List LiveSub) : ℕ :=
  if live.isEmpty then noSubPubBatchLimit else pubBatchLimit

variable {live : List LiveSub}

theorem batchLimit_nobody (nobody : live = []) : batchLimit live = noSubPubBatchLimit := by
  rw [nobody]
  rfl

theorem batchLimit_somebody (somebody : live ≠ []) : batchLimit live = pubBatchLimit := by
  rw [batchLimit, List.isEmpty_eq_false_iff.mpr somebody]
  rfl

theorem batchLimit_pos (live : List LiveSub) : 0 < batchLimit live := by
  rw [batchLimit]
  split <;> decide

/-- A frame that a session with given rights may publish. -/
def Publishable (maxFrameSize : ℕ) (ctx : AuthContext) (frame : Bytes) : Prop :=
  ∃ item, itemIn maxFrameSize frame = some item ∧ ctx.canPublish item.subject = true

def drainTakes (ctx : AuthContext) (frame : Bytes) : Bool :=
  ctx.isPublishUnrestricted || payloadParses frame

/-- What a batch takes, and what it fails on. -/
def Takes (live : List LiveSub) (maxFrameSize : ℕ) (ctx : AuthContext) (frame : Bytes) : Prop :=
  Publishable maxFrameSize ctx frame ∨
    live = [] ∧ Whole maxFrameSize frame ∧ drainTakes ctx frame = true

def Fails (live : List LiveSub) (maxFrameSize : ℕ) (ctx : AuthContext) (bad : Bytes) : Prop :=
  refused maxFrameSize bad = true ∨
    Whole maxFrameSize bad ∧ commandIn maxFrameSize bad = none ∧
      ¬(live = [] ∧ drainTakes ctx bad = true)

def cutSubject : Bytes := ((Frame.new .pub 7).withPayload [0, 9]).encode

section
variable {maxFrameSize : ℕ} {ctx : AuthContext} {frame : Bytes}

theorem publishable_free (free : ctx.isPublishUnrestricted = true)
    (decodes : (itemIn maxFrameSize frame).isSome = true) : Publishable maxFrameSize ctx frame := by
  obtain ⟨item, found⟩ := Option.isSome_iff_exists.mp decodes
  refine ⟨item, found, ?_⟩
  rw [AuthContext.canPublish, ← AuthContext.isPublishUnrestricted, if_pos free]

theorem Publishable.command (h : Publishable maxFrameSize ctx frame) :
    ∃ command, commandIn maxFrameSize frame = some command ∧ mayPublish ctx frame = true := by
  obtain ⟨item, found, allowed⟩ := h
  obtain ⟨command, isCommand, isItem⟩ := Option.bind_eq_some_iff.mp found
  obtain ⟨text, subject, decoded, parsed, rfl⟩ := itemOf_some isItem
  refine ⟨command, isCommand, ?_⟩
  rw [mayPublish, ← (accepted_parts isCommand).2.1.subject, allows, decoded]
  dsimp only
  rw [parsed]
  dsimp only
  rw [allowed, Bool.or_true]

theorem countP_mayPublish {frames : List Bytes}
    (publishable : ∀ frame ∈ frames, Publishable maxFrameSize ctx frame) :
    frames.countP (mayPublish ctx) = frames.length :=
  List.countP_eq_length.mpr fun frame member => by
    obtain ⟨command, -, allowed⟩ := (publishable frame member).command
    exact allowed

theorem Publishable.whole (h : Publishable maxFrameSize ctx frame) : Whole maxFrameSize frame := by
  obtain ⟨command, found, -⟩ := h.command
  exact whole_of_commandIn found

theorem Publishable.collects (h : Publishable maxFrameSize ctx frame) :
    (collectVerdict ctx frame).isOk = true ∧ itemAt ctx frame = itemIn maxFrameSize frame := by
  obtain ⟨command, found, allowed⟩ := h.command
  have parsed := fastCommand_of_commandIn found
  refine ⟨by rw [collectVerdict, parsed]; rfl, ?_⟩
  rw [itemAt, if_pos allowed, parsed, itemIn, found]
  rfl

theorem collectVerdict_of_none (whole : Whole maxFrameSize frame)
    (none : commandIn maxFrameSize frame = none) : (collectVerdict ctx frame).isOk = false := by
  rw [commandIn_whole whole] at none
  rw [collectVerdict]
  cases parsed : fastCommand (headersIn frame) (payloadIn frame) with
  | error e => rfl
  | ok command =>
    rw [parsed] at none
    cases none

theorem Publishable.parses (h : Publishable maxFrameSize ctx frame) :
    payloadParses frame = true := by
  obtain ⟨command, found, -⟩ := h.command
  have parsed := fastCommand_of_commandIn found
  rw [payloadParses]
  cases payload : parsePublishPayload (payloadIn frame) with
  | error e =>
    rw [fastCommand, payload] at parsed
    cases parsed
  | ok layout => rfl

theorem Takes.whole (h : Takes live maxFrameSize ctx frame) : Whole maxFrameSize frame := by
  rcases h with publishable | ⟨-, whole, -⟩
  · exact publishable.whole
  · exact whole

theorem Takes.parses (h : Takes live maxFrameSize ctx frame)
    (restricted : ¬ctx.isPublishUnrestricted = true) : payloadParses frame = true := by
  rcases h with publishable | ⟨-, -, taken⟩
  · exact publishable.parses
  · rw [drainTakes, Bool.or_eq_true] at taken
    exact taken.resolve_left restricted

end

theorem Fails.isPub {maxFrameSize : ℕ} {ctx : AuthContext} {bad : Bytes}
    (h : Fails live maxFrameSize ctx bad) : nextFrameIsPub bad = true := by
  rcases h with isRefused | ⟨whole, -⟩
  · exact (refused_iff.mp isRefused).1
  · have isPub := whole.isPub []
    rwa [List.append_nil] at isPub

theorem shared_nobody {env : DeliveryPolicy} {l : Ledger} (nobody : l.live = []) {b b' : BrokerCore}
    (h : Refines b l) (asked : Asked b b') (items : List PublishItem) :
    Shared env l items b b' := by
  have free : ∀ entry ∈ l.live, entry.group = none := by
    rw [nobody]
    exact nofun
  refine ⟨h.frame asked.same, ?_, [], by rw [asked.calls, List.append_nil], ?_, nofun⟩
  · rw [batchDemand_free free]
    exact asked.queueGroups
  · rw [nobody]
    exact nofun

section
variable {b : BrokerCore} {l : Ledger} (refines : Refines b l) {maxFrameSize : ℕ}
  {ctx : AuthContext}
  {frames : List Bytes} (takes : ∀ frame ∈ frames, Takes l.live maxFrameSize ctx frame)
include refines takes

theorem drain_takes {tail : Bytes}
    (ready : noSubPubBatchLimit ≤ frames.length ∨
      (nextFrameIsPub tail = true → peekPubFrameTotal tail maxFrameSize = .ok none)) :
    let taken := frames.take noSubPubBatchLimit
    ∃ loop, drainPublishBatchWithoutSubscribers ctx maxFrameSize
        (.start (frames.flatten ++ tail) b) =
          (.ok (0 < taken.length, taken.countP (mayPublish ctx)), loop) ∧
      loop.readBuf = (frames.drop noSubPubBatchLimit).flatten ++ tail ∧ Asked b loop.broker := by
  intro taken
  have whole : ∀ frame ∈ frames, Whole maxFrameSize frame := fun frame member =>
    (takes frame member).whole
  by_cases free : ctx.isPublishUnrestricted = true
  · obtain ⟨loop, looped, took⟩ := pubLoop_batch (skipFrame_judges l maxFrameSize) whole
      (fun _ _ => rfl) ready (show Refines (PubLoop.start _ b).broker l from refines) rfl
    have processed : loop.processed = taken.length := by
      rw [took.processed, length_verdictsOn, settled_of_passed fun _ _ => rfl]
      exact Nat.zero_add _
    have all : taken.countP (mayPublish ctx) = taken.length :=
      List.countP_eq_length.mpr fun frame _ => mayPublish_free free frame
    refine ⟨loop, ?_, took.readBuf, took.asked⟩
    rw [drainPublishBatchWithoutSubscribers, if_pos free, looped, all, ← processed]
  · have parses : ∀ frame ∈ frames, payloadParses frame = true := fun frame member =>
      (takes frame member).parses free
    have passed : ∀ frame ∈ frames, (checkVerdict ctx frame).isOk = true := fun frame member =>
      (checkVerdict_isOk ctx frame).trans (parses frame member)
    obtain ⟨loop, looped, took⟩ := pubLoop_batch (checkFrame_judges l ctx maxFrameSize) whole
      passed ready (show Refines (PubLoop.start _ b).broker l from refines) rfl
    have inside : ∀ frame ∈ taken, frame ∈ frames := fun frame => List.mem_of_mem_take
    have processed : loop.processed = taken.length := by
      rw [took.processed, length_verdictsOn,
        settled_of_passed fun frame member => passed frame (inside frame member)]
      exact Nat.zero_add _
    have published : loop.published = taken.countP (mayPublish ctx) := by
      rw [took.published, published_check, List.takeWhile_eq_self_iff.mpr fun frame member =>
        parses frame (inside frame member)]
      exact Nat.zero_add _
    refine ⟨loop, ?_, took.readBuf, took.asked⟩
    rw [drainPublishBatchWithoutSubscribers, if_neg free, looped, ← processed, ← published]

omit takes in
theorem general_takes (publishable : ∀ frame ∈ frames, Publishable maxFrameSize ctx frame)
    (env : DeliveryPolicy) (order : PendingOrder) {tail : Bytes}
    (ready : pubBatchLimit ≤ frames.length ∨
      (nextFrameIsPub tail = true → peekPubFrameTotal tail maxFrameSize = .ok none)) :
    let taken := frames.take pubBatchLimit
    ∃ loop, generalPath env order ctx maxFrameSize (.start (frames.flatten ++ tail) b) =
        (.ok (0 < taken.length, 0), loop) ∧
      loop.readBuf = (frames.drop pubBatchLimit).flatten ++ tail ∧
      Shared env l (taken.filterMap (itemIn maxFrameSize)) b loop.broker ∧
      loop.broker.metrics.messagesPublished = b.metrics.messagesPublished + taken.length := by
  intro taken
  obtain ⟨loop, looped, took⟩ := pubLoop_batch (collectFrame_judges l ctx maxFrameSize)
    (fun frame member => (publishable frame member).whole)
    (fun frame member => (publishable frame member).collects.1) ready
    (show Refines (PubLoop.start _ b).broker l from refines) rfl
  have inside : ∀ frame ∈ taken, Publishable maxFrameSize ctx frame :=
    fun frame member => publishable frame (List.mem_of_mem_take member)
  have passed := settled_of_passed fun frame member => (inside frame member).collects.1
  have processed : loop.processed = taken.length := by
    rw [took.processed, length_verdictsOn, passed]
    exact Nat.zero_add _
  have items : loop.commands.filterMap itemOf = taken.filterMap (itemIn maxFrameSize) := by
    rw [took.commands, show (PubLoop.start (frames.flatten ++ tail) b).commands = [] from rfl,
      List.nil_append, items_collect, passed]
    exact List.filterMap_congr fun frame member => (inside frame member).collects.2
  obtain ⟨b', spoken, dispatched⟩ := dispatchPublishBatch_spec (refines.frame took.asked.same) env
    order loop.commands
  have asked : Asked b b' := took.asked.trans spoken
  obtain ⟨shared, published⟩ := publishBatch_shared env (refines.frame asked.same) order
    (taken.filterMap (itemIn maxFrameSize))
  have quiet : Shared env l [] b b' := .of_quiet refines asked.quiet asked.queueGroups
  rw [items] at dispatched
  refine ⟨{ loop with broker := dispatchPublishBatch env order loop.broker loop.commands }, ?_,
    took.readBuf, dispatched ▸ quiet.trans shared, ?_⟩
  · rw [generalPath_dispatches looped, ← processed]
  · dsimp only
    rw [dispatched, published, asked.metrics, length_items fun frame member => by
      obtain ⟨item, found, -⟩ := inside frame member
      rw [found]
      rfl]

theorem dispatch_takes (env : DeliveryPolicy) (order : PendingOrder) {tail : Bytes}
    (ready : batchLimit l.live ≤ frames.length ∨
      (nextFrameIsPub tail = true → peekPubFrameTotal tail maxFrameSize = .ok none)) :
    let taken := frames.take (batchLimit l.live)
    ∃ published loop,
      dispatchPublishBatchFromReadBuf env order ctx maxFrameSize
          (.start (frames.flatten ++ tail) b) = (.ok (0 < taken.length, published), loop) ∧
      published ≤ taken.length ∧
      loop.readBuf = (frames.drop (batchLimit l.live)).flatten ++ tail ∧
      Shared env l (taken.filterMap (itemIn maxFrameSize)) b loop.broker ∧
      loop.broker.metrics.messagesPublished + published =
        b.metrics.messagesPublished + taken.countP (mayPublish ctx) := by
  by_cases nobody : l.live = []
  · rw [batchLimit_nobody nobody] at ready ⊢
    obtain ⟨loop, drained, left, asked⟩ := drain_takes refines takes ready
    refine ⟨(frames.take noSubPubBatchLimit).countP (mayPublish ctx), loop, ?_,
      List.countP_le_length, left, shared_nobody nobody refines asked _, ?_⟩
    · rw [dispatch_nobody refines env order ctx maxFrameSize _ nobody, drained]
    · rw [asked.metrics]
  · rw [batchLimit_somebody nobody] at ready ⊢
    have publishable : ∀ frame ∈ frames, Publishable maxFrameSize ctx frame := fun frame member =>
      (takes frame member).resolve_right fun drained => nobody drained.1
    obtain ⟨loop, dispatched, left, shared, published⟩ := general_takes refines publishable env
      order ready
    have all := countP_mayPublish fun frame member =>
      publishable frame (List.mem_of_mem_take (i := pubBatchLimit) member)
    refine ⟨0, loop, ?_, Nat.zero_le _, left, shared, by rw [all, published, Nat.add_zero]⟩
    rw [dispatch_somebody refines env order ctx maxFrameSize _ nobody, dispatched]

theorem dispatch_fails (env : DeliveryPolicy) (order : PendingOrder) {bad : Bytes}
    (short : frames.length < batchLimit l.live) (fails : Fails l.live maxFrameSize ctx bad) :
    ∃ e loop, dispatchPublishBatchFromReadBuf env order ctx maxFrameSize
        (.start (frames.flatten ++ bad) b) = (.error e, loop) ∧ Asked b loop.broker := by
  have whole : ∀ frame ∈ frames, Whole maxFrameSize frame := fun frame member =>
    (takes frame member).whole
  have start : Refines (PubLoop.start (frames.flatten ++ bad) b).broker l := refines
  by_cases nobody : l.live = []
  · rw [batchLimit_nobody nobody] at short
    rw [dispatch_nobody refines env order ctx maxFrameSize _ nobody]
    by_cases free : ctx.isPublishUnrestricted = true
    · have isRefused : refused maxFrameSize bad = true := fails.resolve_right fun whole =>
        whole.2.2 ⟨nobody, by rw [drainTakes, free, Bool.true_or]⟩
      obtain ⟨e, loop, looped, asked, -⟩ := pubLoop_lost (skipFrame_judges l maxFrameSize) whole
        (fun _ _ => rfl) short (.inl isRefused) start rfl
      refine ⟨e, loop, ?_, asked⟩
      rw [drainPublishBatchWithoutSubscribers, if_pos free, looped]
    · have failed : refused maxFrameSize bad = true ∨ ∃ frame more, bad = frame ++ more ∧
          Whole maxFrameSize frame ∧ (checkVerdict ctx frame).isOk = false := by
        refine fails.imp_right fun ⟨isWhole, _, left⟩ =>
          ⟨bad, [], (List.append_nil _).symm, isWhole, ?_⟩
        rw [checkVerdict_isOk, ← Bool.not_eq_true]
        exact fun parses => left ⟨nobody, by rw [drainTakes, parses, Bool.or_true]⟩
      obtain ⟨e, loop, looped, asked, -⟩ := pubLoop_lost (checkFrame_judges l ctx maxFrameSize)
        whole
        (fun frame member => (checkVerdict_isOk ctx frame).trans ((takes frame member).parses free))
        short failed start rfl
      refine ⟨e, loop, ?_, asked⟩
      rw [drainPublishBatchWithoutSubscribers, if_neg free, looped]
  · rw [batchLimit_somebody nobody] at short
    rw [dispatch_somebody refines env order ctx maxFrameSize _ nobody]
    have failed : refused maxFrameSize bad = true ∨ ∃ frame more, bad = frame ++ more ∧
        Whole maxFrameSize frame ∧ (collectVerdict ctx frame).isOk = false :=
      fails.imp_right fun ⟨isWhole, nothing, _⟩ =>
        ⟨bad, [], (List.append_nil _).symm, isWhole, collectVerdict_of_none isWhole nothing⟩
    obtain ⟨e, loop, looped, asked, -⟩ := pubLoop_lost (collectFrame_judges l ctx maxFrameSize)
      whole
      (fun frame member => ((takes frame member).resolve_right fun drained =>
        nobody drained.1).collects.1) short failed start rfl
    refine ⟨e, loop, ?_, asked⟩
    rw [generalPath, looped]

end

end ZetMQ.PubDispatch
