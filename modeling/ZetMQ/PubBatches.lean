import ZetMQ.PubVerdicts

/-! The batch loops over a list of frames: a loop takes frames up to its limit, stops
where no whole frame follows, and gives up at the first frame that it fails on. -/
namespace ZetMQ.PubBatches
open Utf8Text ByteBuffer Frames SubjectGrammar Delivery Broker SubscriptionLedger BrokerRefinement
open LedgerDelivery FrameCodec Commands Permissions PubFastPath SessionSteps PubFrames PubDecoders
open PubSections PubVerdicts

/-- A `PUB` frame stands in front, and its header is already wrong. -/
def refused (maxFrameSize : ℕ) (buf : Bytes) : Bool :=
  nextFrameIsPub buf && !(peekPubFrameTotal buf maxFrameSize).isOk

theorem refused_iff {maxFrameSize : ℕ} {buf : Bytes} :
    refused maxFrameSize buf = true ↔
      nextFrameIsPub buf = true ∧ ∃ e, peekPubFrameTotal buf maxFrameSize = .error e := by
  rw [refused, Bool.and_eq_true]
  refine and_congr_right fun _ => ?_
  cases peekPubFrameTotal buf maxFrameSize with
  | error e => exact ⟨fun _ => ⟨e, rfl⟩, fun _ => rfl⟩
  | ok total => exact ⟨nofun, nofun⟩

/-- The frames that a loop takes before it fails, and its verdicts on them. -/
def settled (judge : Bytes → Except ProtocolError Verdict) (frames : List Bytes) : List Bytes :=
  frames.takeWhile fun frame => (judge frame).isOk

def verdictsOn (judge : Bytes → Except ProtocolError Verdict) (frames : List Bytes) :
    List Verdict :=
  (settled judge frames).filterMap fun frame => (judge frame).toOption

theorem judged_settled (judge : Bytes → Except ProtocolError Verdict) (frames : List Bytes) :
    List.Forall₂ (fun frame verdict => judge frame = .ok verdict) (settled judge frames)
      (verdictsOn judge frames) := by
  unfold verdictsOn settled
  induction frames with
  | nil => exact .nil
  | cons frame frames ih =>
    cases judged : judge frame with
    | error e =>
      rw [List.takeWhile_cons_of_neg (by rw [judged]; exact Bool.false_ne_true)]
      exact .nil
    | ok verdict =>
      rw [List.takeWhile_cons_of_pos (by rw [judged]; rfl),
        List.filterMap_cons_some (by rw [judged]; rfl)]
      exact .cons judged ih

theorem filterMap_verdictsOn {β : Type} {judge : Bytes → Except ProtocolError Verdict}
    {part : Verdict → Option β} {rule : Bytes → Option β}
    (same : ∀ frame verdict, judge frame = .ok verdict → part verdict = rule frame)
    (frames : List Bytes) :
    (verdictsOn judge frames).filterMap part = (settled judge frames).filterMap rule := by
  have judged := judged_settled judge frames
  generalize settled judge frames = taken at judged
  generalize verdictsOn judge frames = verdicts at judged
  induction judged with
  | nil => rfl
  | @cons frame verdict taken verdicts first _ ih =>
    rw [List.filterMap_cons, List.filterMap_cons, same frame verdict first, ih]

theorem length_verdictsOn (judge : Bytes → Except ProtocolError Verdict) (frames : List Bytes) :
    (verdictsOn judge frames).length = (settled judge frames).length :=
  (judged_settled judge frames).length_eq.symm

variable {frames : List Bytes} {limit : ℕ} {loop : PubLoop} (ctx : AuthContext)

theorem settled_of_passed {judge : Bytes → Except ProtocolError Verdict}
    (passed : ∀ frame ∈ frames, (judge frame).isOk = true) : settled judge frames = frames :=
  List.takeWhile_eq_self_iff.mpr passed

section
variable {l : Ledger} {maxFrameSize : ℕ} {body : PubLoop → Turn × PubLoop}
  {judge : Bytes → Except ProtocolError Verdict} (judges : Judges l maxFrameSize body judge)
include judges

theorem pubLoop_takes {verdicts : List Verdict} (whole : ∀ frame ∈ frames, Whole maxFrameSize frame)
    (judged : List.Forall₂ (fun frame verdict => judge frame = .ok verdict) frames verdicts)
    (room : frames.length ≤ limit) (refines : Refines loop.broker l) {rest : Bytes}
    (buf : loop.readBuf = frames.flatten ++ rest) :
    ∃ loop', Took verdicts rest loop loop' ∧
      pubLoop body limit loop = pubLoop body (limit - frames.length) loop' := by
  induction judged generalizing limit loop with
  | nil =>
    rw [List.flatten_nil, List.nil_append] at buf
    exact ⟨loop, buf ▸ .nil loop, rfl⟩
  | @cons frame verdict frames verdicts first _ ih =>
    have isWhole := whole frame (List.mem_cons_self ..)
    rw [List.flatten_cons, List.append_assoc] at buf
    obtain ⟨loop₁, turned, took⟩ := judges.takes refines isWhole buf first
    rw [List.length_cons] at room ⊢
    obtain ⟨loop₂, later, looped⟩ := ih
      (fun other member => whole other (List.mem_cons_of_mem _ member))
      (Nat.le_sub_one_of_lt room) (refines.frame took.asked.same) took.readBuf
    refine ⟨loop₂, took.trans later, ?_⟩
    obtain ⟨less, rfl⟩ : ∃ less, limit = less + 1 := ⟨limit - 1, by omega⟩
    rw [pubLoop, if_pos (buf ▸ isWhole.isPub _), turned]
    dsimp only
    rw [Nat.add_sub_cancel] at looped
    rw [looped, Nat.add_sub_add_right]

theorem pubLoop_stops (limit : ℕ) (quiet : nextFrameIsPub loop.readBuf = true →
      peekPubFrameTotal loop.readBuf maxFrameSize = .ok none) :
    pubLoop body limit loop = (none, loop) := by
  cases limit with
  | zero => rfl
  | succ limit =>
    rw [pubLoop]
    split
    · rename_i isPub
      rw [judges.stops (quiet isPub)]
    · rfl

theorem pubLoop_refuses (positive : 0 < limit) {e : ProtocolError}
    (isPub : nextFrameIsPub loop.readBuf = true)
    (failed : peekPubFrameTotal loop.readBuf maxFrameSize = .error e) :
    pubLoop body limit loop = (some e, loop) := by
  obtain ⟨less, rfl⟩ : ∃ less, limit = less + 1 := ⟨limit - 1, by omega⟩
  rw [pubLoop, if_pos isPub, judges.refuses failed]

theorem pubLoop_fails (positive : 0 < limit) {frame rest : Bytes} {e : ProtocolError}
    (whole : Whole maxFrameSize frame) (buf : loop.readBuf = frame ++ rest)
    (judged : judge frame = .error e) :
    ∃ loop', pubLoop body limit loop = (some e, loop') ∧ GaveUp loop loop' := by
  obtain ⟨less, rfl⟩ : ∃ less, limit = less + 1 := ⟨limit - 1, by omega⟩
  obtain ⟨loop', turned, gaveUp⟩ := judges.fails whole buf judged
  refine ⟨loop', ?_, gaveUp⟩
  rw [pubLoop, if_pos (buf ▸ whole.isPub _), turned]

theorem pubLoop_batch {frames : List Bytes} (whole : ∀ frame ∈ frames, Whole maxFrameSize frame)
    (passed : ∀ frame ∈ frames, (judge frame).isOk = true) {limit : ℕ} {tail : Bytes}
    (ready : limit ≤ frames.length ∨
      (nextFrameIsPub tail = true → peekPubFrameTotal tail maxFrameSize = .ok none))
    {loop : PubLoop} (refines : Refines loop.broker l)
    (buf : loop.readBuf = frames.flatten ++ tail) :
    ∃ loop', pubLoop body limit loop = (none, loop') ∧
      Took (verdictsOn judge (frames.take limit)) ((frames.drop limit).flatten ++ tail) loop
        loop' := by
  have judged := judged_settled judge (frames.take limit)
  rw [settled_of_passed fun frame member => passed frame (List.mem_of_mem_take member)] at judged
  have split : loop.readBuf =
      (frames.take limit).flatten ++ ((frames.drop limit).flatten ++ tail) := by
    rw [buf, ← List.append_assoc, ← List.flatten_append, List.take_append_drop]
  obtain ⟨loop', took, looped⟩ := pubLoop_takes judges
    (fun frame member => whole frame (List.mem_of_mem_take member)) judged
    (List.length_take_le limit frames) refines split
  refine ⟨loop', looped.trans ?_, took⟩
  rw [List.length_take]
  by_cases full : limit ≤ frames.length
  · rw [Nat.min_eq_left full, Nat.sub_self]
    rfl
  · have rest := took.readBuf
    rw [List.drop_eq_nil_of_le (by omega), List.flatten_nil, List.nil_append] at rest
    exact pubLoop_stops judges _ (rest ▸ ready.resolve_left full)

theorem pubLoop_lost (whole : ∀ frame ∈ frames, Whole maxFrameSize frame)
    (passed : ∀ frame ∈ frames, (judge frame).isOk = true) {tail : Bytes}
    (short : frames.length < limit)
    (fails : refused maxFrameSize tail = true ∨ ∃ bad more, tail = bad ++ more ∧
      Whole maxFrameSize bad ∧ (judge bad).isOk = false) (refines : Refines loop.broker l)
    (buf : loop.readBuf = frames.flatten ++ tail) :
    ∃ e loop', pubLoop body limit loop = (some e, loop') ∧ Asked loop.broker loop'.broker ∧
      loop'.outbound = loop.outbound ++ (verdictsOn judge frames).filterMap Verdict.denied := by
  have judged := judged_settled judge frames
  rw [settled_of_passed passed] at judged
  obtain ⟨loop', took, looped⟩ := pubLoop_takes judges whole judged short.le refines buf
  have positive : 0 < limit - frames.length := by omega
  rcases fails with isRefused | ⟨bad, more, rfl, isWhole, failed⟩
  · obtain ⟨isPub, e, failed⟩ := refused_iff.mp isRefused
    exact ⟨e, loop', looped.trans (pubLoop_refuses judges positive (took.readBuf ▸ isPub)
      (took.readBuf ▸ failed)), took.asked, took.outbound⟩
  · cases verdict : judge bad with
    | ok verdict =>
      rw [verdict] at failed
      cases failed
    | error e =>
      obtain ⟨loop'', stopped, gaveUp⟩ := pubLoop_fails judges positive isWhole took.readBuf verdict
      exact ⟨e, loop'', looped.trans stopped, took.asked.trans gaveUp.asked,
        gaveUp.outbound.trans took.outbound⟩

end

def payloadParses (frame : Bytes) : Bool := (parsePublishPayload (payloadIn frame)).isOk

def headersDecode (frame : Bytes) : Bool := (headersFromFrame (headersIn frame)).isOk

theorem checkVerdict_isOk (frame : Bytes) :
    (checkVerdict ctx frame).isOk = payloadParses frame := by
  rw [checkVerdict, payloadParses]
  cases parsePublishPayload (payloadIn frame) <;> rfl

theorem collectVerdict_isOk (frame : Bytes) :
    (collectVerdict ctx frame).isOk = (payloadParses frame && headersDecode frame) := by
  rw [collectVerdict, fastCommand, payloadParses, headersDecode]
  cases parsePublishPayload (payloadIn frame) with
  | error e => rfl
  | ok layout => cases headersFromFrame (headersIn frame) <;> rfl

theorem settled_check (frames : List Bytes) :
    settled (checkVerdict ctx) frames = frames.takeWhile payloadParses :=
  congrArg (frames.takeWhile ·) (funext fun frame => checkVerdict_isOk ctx frame)

theorem settled_collect (frames : List Bytes) :
    settled (collectVerdict ctx) frames =
      (frames.takeWhile payloadParses).takeWhile headersDecode := by
  rw [List.takeWhile_takeWhile]
  refine congrArg (frames.takeWhile ·) (funext fun frame => ?_)
  rw [collectVerdict_isOk, Bool.decide_and, Bool.decide_eq_true, Bool.decide_eq_true, Bool.and_comm]

theorem published_check (frames : List Bytes) :
    ((verdictsOn (checkVerdict ctx) frames).map Verdict.published).sum =
      (frames.takeWhile payloadParses).countP (mayPublish ctx) := by
  rw [← settled_check ctx]
  have judged := judged_settled (checkVerdict ctx) frames
  generalize settled (checkVerdict ctx) frames = taken at judged
  generalize verdictsOn (checkVerdict ctx) frames = verdicts at judged
  induction judged with
  | nil => rfl
  | @cons frame verdict taken verdicts first _ ih =>
    rw [List.map_cons, List.sum_cons, ih, checkVerdict_ok first, List.countP_cons, ruling_own,
      Nat.add_comm]
    split <;> rfl

def itemAt (ctx : AuthContext) (frame : Bytes) : Option PublishItem :=
  if mayPublish ctx frame then
    (fastCommand (headersIn frame) (payloadIn frame)).toOption.bind itemOf
  else none

theorem items_collect (frames : List Bytes) :
    ((verdictsOn (collectVerdict ctx) frames).filterMap Verdict.command).filterMap itemOf =
      (settled (collectVerdict ctx) frames).filterMap (itemAt ctx) := by
  rw [List.filterMap_filterMap]
  refine filterMap_verdictsOn (fun frame verdict judged => ?_) frames
  obtain ⟨command, parsed, rfl⟩ := collectVerdict_ok judged
  rw [ruling_own, itemAt, parsed]
  split <;> rfl

end ZetMQ.PubBatches
