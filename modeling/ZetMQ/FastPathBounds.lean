import ZetMQ.DecoderBounds

/-! The publish fast path stays in bounds as well. The peek promises a whole frame, the
payload parser promises ranges inside of the payload, and every slice behind them is
covered by one of the two promises. -/
namespace ZetMQ.FastPathBounds
open Utf8Text ByteBuffer CheckedReads Frames Delivery Broker Commands Permissions PubFastPath
open PubFrames DecoderBounds

variable (buf : Bytes) (ctx : AuthContext) (maxFrameSize : ℕ) (loop : PubLoop)

theorem nextFrameIsPub_eq : CheckedDecoders.nextFrameIsPub buf = some (nextFrameIsPub buf) := by
  rw [CheckedDecoders.nextFrameIsPub, nextFrameIsPub]
  by_cases long : frameHeaderSize ≤ buf.length
  · have inside : 22 ≤ buf.length := long
    rw [if_pos long, readAt_inside (by omega), decide_eq_true long]
    rfl
  · rw [if_neg long, decide_eq_false long]
    rfl

theorem peekPubFrame_eq :
    CheckedDecoders.peekPubFrame buf maxFrameSize =
      some ((peekPubFrameTotal buf maxFrameSize).map
        (·.map fun total => (beAt buf 14 4, beAt buf 18 4, total))) := by
  simp only [peekPubFrameTotal, apply_ite (Except.map _)]
  refine guarded fun short => ?_
  have long : 22 ≤ buf.length := Nat.le_of_not_lt short
  rw [readBe_inside (by omega), readBe_inside (by omega)]
  simp only [Option.bind_eq_bind, Option.bind_some, word_announced]
  refine guarded fun _ => guarded fun _ => ?_
  rw [readBe_inside (by omega)]
  refine guarded fun _ => ?_
  rw [readAt_inside (by omega)]
  refine guarded fun _ => ?_
  rw [readAt_inside (by omega)]
  exact guarded fun _ => rfl

theorem peekPubFrameTotal_eq :
    CheckedDecoders.peekPubFrameTotal buf maxFrameSize =
      some (peekPubFrameTotal buf maxFrameSize) := by
  rw [CheckedDecoders.peekPubFrameTotal, peekPubFrame_eq]
  cases peekPubFrameTotal buf maxFrameSize with
  | error e => rfl
  | ok peeked => cases peeked <;> rfl

theorem peekPubFrameLayout_eq :
    CheckedDecoders.peekPubFrameLayout buf maxFrameSize =
      some (peekPubFrameLayout buf maxFrameSize) := by
  rw [CheckedDecoders.peekPubFrameLayout, peekPubFrame_eq, peekPubFrameLayout]
  cases found : peekPubFrameTotal buf maxFrameSize with
  | error e => rfl
  | ok peeked =>
    cases peeked with
    | none => rfl
    | some total =>
      have long : 22 ≤ buf.length := (peekPubFrameTotal_some.mp found).1.long
      have header := beAt_lt buf 14 4
      have payload := beAt_lt buf 18 4
      have headerEnd : word (frameHeaderSize + beAt buf 14 4) = frameHeaderSize + beAt buf 14 4 :=
        word_eq (by rw [frameHeaderSize]; omega)
      have payloadEnd : word (frameHeaderSize + beAt buf 14 4 + beAt buf 18 4) =
        frameHeaderSize + beAt buf 14 4 + beAt buf 18 4 := word_announced buf
      simp only [Option.bind_eq_bind, Option.bind_some, Except.map, Option.map_some,
        readBe_inside (show 6 + 8 ≤ buf.length by omega), headerEnd, payloadEnd, layoutOf]

theorem parsePublishPayload_eq (payload : Bytes) :
    CheckedDecoders.parsePublishPayload payload = some (parsePublishPayload payload) := by
  refine guarded fun short => ?_
  rw [readBe_inside (by omega)]
  refine guarded fun _ => guarded fun reply => ?_
  rw [readBe_inside (by omega)]
  exact guarded fun _ => rfl

/-- A range of a payload that can be sliced. -/
def Within (payload : Bytes) (range : ℕ × ℕ) : Prop :=
  range.1 ≤ range.2 ∧ range.2 ≤ payload.length

theorem readRange_within {payload : Bytes} {range : ℕ × ℕ} (within : Within payload range) :
    readRange payload range.1 range.2 = some (slice payload range.1 range.2) :=
  readRange_inside within.1 within.2

theorem parsed_within {payload : Bytes} {layout : PublishPayloadLayout}
    (parsed : parsePublishPayload payload = .ok layout) : Within payload layout.subject ∧
      Within payload layout.payload ∧ ∀ range ∈ layout.replyTo, Within payload range := by
  unfold parsePublishPayload at parsed
  dsimp only at parsed
  split_ifs at parsed with short subject missing reply <;> cases parsed
  all_goals
    refine ⟨⟨by dsimp only; omega, by dsimp only; omega⟩,
      ⟨by dsimp only; omega, le_refl _⟩, fun range member => ?_⟩
    cases member
  exact ⟨by dsimp only; omega, by dsimp only; omega⟩

theorem decodePublishCommandFromBuf_eq {buf : Bytes} {maxFrameSize : ℕ} {layout : PubFrameLayout}
    (found : peekPubFrameLayout buf maxFrameSize = .ok (some layout)) :
    CheckedDecoders.decodePublishCommandFromBuf buf layout =
      some (decodePublishCommandFromBuf buf layout) := by
  obtain ⟨peeked, rfl⟩ := peekPubFrameLayout_some.mp found
  have whole : (buf.take (Frame.announced buf)).length = Frame.announced buf :=
    List.length_take_of_le peeked.whole
  have total : Frame.announced buf = 22 + beAt buf 14 4 + beAt buf 18 4 := rfl
  have fixed : frameHeaderSize = 22 := rfl
  rw [CheckedDecoders.decodePublishCommandFromBuf, decodePublishCommandFromBuf]
  simp only [layoutOf, splitTo_inside peeked.whole, Option.bind_eq_bind, Option.bind_some]
  rw [readRange_inside (by omega) (by omega), readRange_inside (by omega) (by omega),
    Option.bind_some, Option.bind_some, parsePublishPayload_eq, Option.bind_some]
  generalize slice (buf.take (Frame.announced buf)) (frameHeaderSize + beAt buf 14 4)
    (frameHeaderSize + beAt buf 14 4 + beAt buf 18 4) = payload
  cases parsed : parsePublishPayload payload with
  | error e => rfl
  | ok payloadLayout =>
    obtain ⟨subject, data, reply⟩ := parsed_within parsed
    dsimp only
    rw [headersFromFrame_eq, Option.bind_some, readRange_within subject, readRange_within data]
    cases headersFromFrame (slice (buf.take (Frame.announced buf)) frameHeaderSize
        (frameHeaderSize + beAt buf 14 4)) with
    | error e => rfl
    | ok headers =>
      cases range : payloadLayout.replyTo with
      | none => rfl
      | some range' =>
        have sliced := readRange_within (reply range' range)
        simp only [Option.mapM_some, sliced]
        rfl

theorem skipFrame_eq :
    CheckedDecoders.skipFrame maxFrameSize loop = some (skipFrame maxFrameSize loop) := by
  rw [CheckedDecoders.skipFrame, skipFrame, peekPubFrameTotal_eq]
  cases found : peekPubFrameTotal loop.readBuf maxFrameSize with
  | error e => rfl
  | ok peeked =>
    cases peeked with
    | none => rfl
    | some total =>
      obtain ⟨peeked, rfl⟩ := peekPubFrameTotal_some.mp found
      simp only [Option.bind_eq_bind, Option.bind_some, advance_inside peeked.whole]

theorem checkFrame_eq :
    CheckedDecoders.checkFrame ctx maxFrameSize loop = some (checkFrame ctx maxFrameSize loop) := by
  rw [CheckedDecoders.checkFrame, checkFrame, peekPubFrameLayout_eq]
  cases found : peekPubFrameLayout loop.readBuf maxFrameSize with
  | error e => rfl
  | ok peeked =>
    cases peeked with
    | none => rfl
    | some layout =>
      obtain ⟨peeked, rfl⟩ := peekPubFrameLayout_some.mp found
      have total : Frame.announced loop.readBuf =
        frameHeaderSize + beAt loop.readBuf 14 4 + beAt loop.readBuf 18 4 := rfl
      have whole := peeked.whole
      simp only [layoutOf, Option.bind_eq_bind, Option.bind_some, advance_inside whole]
      rw [readRange_inside (by omega) (by omega), Option.bind_some, parsePublishPayload_eq,
        Option.bind_some]
      cases parsed : parsePublishPayload (slice loop.readBuf
          (frameHeaderSize + beAt loop.readBuf 14 4)
          (frameHeaderSize + beAt loop.readBuf 14 4 + beAt loop.readBuf 18 4)) with
      | error e => rfl
      | ok payloadLayout =>
        dsimp only
        rw [readRange_within (parsed_within parsed).1]
        rfl

theorem collectFrame_eq :
    CheckedDecoders.collectFrame ctx maxFrameSize loop =
      some (collectFrame ctx maxFrameSize loop) := by
  rw [CheckedDecoders.collectFrame, collectFrame, peekPubFrameLayout_eq]
  cases found : peekPubFrameLayout loop.readBuf maxFrameSize with
  | error e => rfl
  | ok peeked =>
    cases peeked with
    | none => rfl
    | some layout =>
      simp only [Option.bind_eq_bind, Option.bind_some, decodePublishCommandFromBuf_eq found]
      cases decodePublishCommandFromBuf loop.readBuf layout with
      | mk result rest => cases result <;> rfl

theorem pubLoop_eq {checked : PubLoop → Option (Turn × PubLoop)} {body : PubLoop → Turn × PubLoop}
    (turns : ∀ loop, checked loop = some (body loop)) (limit : ℕ) (loop : PubLoop) :
    CheckedDecoders.pubLoop checked limit loop = some (pubLoop body limit loop) := by
  induction limit generalizing loop with
  | zero => rfl
  | succ limit ih =>
    simp only [CheckedDecoders.pubLoop, pubLoop, nextFrameIsPub_eq, turns, Option.bind_eq_bind,
      Option.bind_some]
    refine taken fun _ => ?_
    cases body loop with
    | mk turn loop =>
      cases turn with
      | next => exact ih loop
      | stop => rfl
      | fail e => rfl

theorem drainPublishBatchWithoutSubscribers_eq :
    CheckedDecoders.drainPublishBatchWithoutSubscribers ctx maxFrameSize loop =
      some (drainPublishBatchWithoutSubscribers ctx maxFrameSize loop) := by
  rw [CheckedDecoders.drainPublishBatchWithoutSubscribers, drainPublishBatchWithoutSubscribers,
    pubLoop_eq (skipFrame_eq maxFrameSize), pubLoop_eq (checkFrame_eq ctx maxFrameSize)]
  by_cases unrestricted : ctx.isPublishUnrestricted
  · rw [if_pos unrestricted, if_pos unrestricted]
    cases pubLoop (skipFrame maxFrameSize) noSubPubBatchLimit loop with
    | mk failure loop => cases failure <;> rfl
  · rw [if_neg unrestricted, if_neg unrestricted]
    cases pubLoop (checkFrame ctx maxFrameSize) noSubPubBatchLimit loop with
    | mk failure loop => cases failure <;> rfl

theorem dispatchPublishBatchFromReadBuf_eq (env : DeliveryPolicy) (order : PendingOrder)
    (ctx : AuthContext) (maxFrameSize : ℕ) (loop : PubLoop) :
    CheckedDecoders.dispatchPublishBatchFromReadBuf env order ctx maxFrameSize loop =
      some (dispatchPublishBatchFromReadBuf env order ctx maxFrameSize loop) := by
  rw [CheckedDecoders.dispatchPublishBatchFromReadBuf, dispatchPublishBatchFromReadBuf,
    drainPublishBatchWithoutSubscribers_eq, pubLoop_eq (collectFrame_eq ctx maxFrameSize)]
  by_cases idle : (!loop.broker.hasActiveSubscriptions && !loop.broker.router.hasWildcards) = true
  · rw [if_pos idle, if_pos idle]
  · rw [if_neg idle, if_neg idle]
    cases pubLoop (collectFrame ctx maxFrameSize) pubBatchLimit loop with
    | mk failure loop => cases failure <;> rfl

/-- Every index and slice of the server's decoders is in bounds: on any bytes they come to
the `Ok` or `Err` of the plain decoders, and never to a panic. -/
theorem decoding_in_bounds (buf payload : Bytes) (maxFrameSize : ℕ) (frame : Frame)
    (env : DeliveryPolicy) (order : PendingOrder) (ctx : AuthContext) (loop : PubLoop) :
    CheckedDecoders.decodeFrom buf maxFrameSize = some (Frame.decodeFrom buf maxFrameSize) ∧
    CheckedDecoders.fromFrame frame = some (BrokerCommand.fromFrame frame) ∧
    CheckedDecoders.peekPubFrameTotal buf maxFrameSize =
      some (peekPubFrameTotal buf maxFrameSize) ∧
    CheckedDecoders.peekPubFrameLayout buf maxFrameSize =
      some (peekPubFrameLayout buf maxFrameSize) ∧
    CheckedDecoders.parsePublishPayload payload = some (parsePublishPayload payload) ∧
    (∀ layout, CheckedDecoders.peekPubFrameLayout buf maxFrameSize = some (.ok (some layout)) →
      CheckedDecoders.decodePublishCommandFromBuf buf layout =
        some (decodePublishCommandFromBuf buf layout)) ∧
    CheckedDecoders.dispatchPublishBatchFromReadBuf env order ctx maxFrameSize loop =
      some (dispatchPublishBatchFromReadBuf env order ctx maxFrameSize loop) := by
  refine ⟨decodeFrom_eq .., fromFrame_eq .., peekPubFrameTotal_eq .., peekPubFrameLayout_eq ..,
    parsePublishPayload_eq .., fun layout peeked => ?_, dispatchPublishBatchFromReadBuf_eq ..⟩
  rw [peekPubFrameLayout_eq] at peeked
  exact decodePublishCommandFromBuf_eq (Option.some.inj peeked)

end ZetMQ.FastPathBounds
