import ZetMQ.PubFrames

/-! The two decoders of `PUB` frames: the fast path of the session and the generic
frame decoder with the command parser behind it. They read the same frame and part
only at the reply section, which the one insists on and the other leaves out when it
is not whole. -/
namespace ZetMQ.PubDecoders
open Utf8Text ByteBuffer Frames FrameCodec Commands PubFastPath PubFrames

abbrev Decoded := Except ProtocolError (Option (PublishCommand × ℕ)) × Bytes

def fastDecode (buf : Bytes) (maxFrameSize : ℕ) : Decoded :=
  match peekPubFrameLayout buf maxFrameSize with
  | .error e => (.error e, buf)
  | .ok none => (.ok none, buf)
  | .ok (some layout) =>
    match decodePublishCommandFromBuf buf layout with
    | (.error e, rest) => (.error e, rest)
    | (.ok decoded, rest) => (.ok (some decoded), rest)

/-- `Frame::decode_from` followed by `BrokerCommand::from_frame`; any other command
than a publish is no result here. -/
def genericDecode (buf : Bytes) (maxFrameSize : ℕ) : Decoded :=
  match Frame.decodeFrom buf maxFrameSize with
  | (.error e, rest) => (.error e, rest)
  | (.ok none, rest) => (.ok none, rest)
  | (.ok (some frame), rest) =>
    match BrokerCommand.fromFrame frame with
    | .error e => (.error e, rest)
    | .ok (.publish command) => (.ok (some (command, frame.header.correlationId)), rest)
    | .ok _ => (.error (.unknownFrameType frame.header.frameType), rest)

def ReplyCut (payload : Bytes) : Prop :=
  2 + beAt payload 0 2 ≤ payload.length ∧ 2 ≤ payload.length ∧
    (payload.length < 2 + beAt payload 0 2 + 2 ∨
      payload.length < 2 + beAt payload 0 2 + 2 + beAt payload (2 + beAt payload 0 2) 2)

instance (payload : Bytes) : Decidable (ReplyCut payload) := inferInstanceAs (Decidable (_ ∧ _))

def fastCommand (headers payload : Bytes) : Except ProtocolError PublishCommand :=
  match parsePublishPayload payload with
  | .error e => .error e
  | .ok layout => (headersFromFrame headers).map fun headers =>
    ⟨slice payload layout.subject.1 layout.subject.2,
      slice payload layout.payload.1 layout.payload.2,
      layout.replyTo.map fun reply => slice payload reply.1 reply.2, headers⟩

theorem decodePublishCommandFromBuf_eq (buf : Bytes) :
    decodePublishCommandFromBuf buf (layoutOf buf (Frame.announced buf)) =
      ((fastCommand (headersIn buf) (payloadIn buf)).map fun command => (command, beAt buf 6 8),
        buf.drop (Frame.announced buf)) := by
  have payloadEnd : frameHeaderSize + beAt buf 14 4 + beAt buf 18 4 = Frame.announced buf := rfl
  simp only [decodePublishCommandFromBuf, layoutOf, payloadEnd, fastCommand, headersIn, payloadIn]
  cases parsePublishPayload (slice (buf.take (Frame.announced buf))
      (frameHeaderSize + beAt buf 14 4) (Frame.announced buf)) with
  | error e => rfl
  | ok layout =>
    dsimp only
    cases headersFromFrame (slice (buf.take (Frame.announced buf)) frameHeaderSize
        (frameHeaderSize + beAt buf 14 4)) with
    | error e => rfl
    | ok headers => rfl

variable {buf : Bytes} {maxFrameSize : ℕ}

theorem fastDecode_peeked (peeked : Peeked buf maxFrameSize) :
    fastDecode buf maxFrameSize =
      ((fastCommand (headersIn buf) (payloadIn buf)).map fun command =>
        some (command, beAt buf 6 8), buf.drop (Frame.announced buf)) := by
  rw [fastDecode, peekPubFrameLayout_some.mpr ⟨peeked, rfl⟩]
  dsimp only
  rw [decodePublishCommandFromBuf_eq]
  cases fastCommand (headersIn buf) (payloadIn buf) with
  | error e => rfl
  | ok command => rfl

theorem fromFrame_pub {frame : Frame} (isPub : frame.header.frameType = FrameType.pub.asU8) :
    BrokerCommand.fromFrame frame = (publishFromFrame frame).map .publish := by
  rw [BrokerCommand.fromFrame, isPub]
  rfl

theorem genericDecode_peeked (peeked : Peeked buf maxFrameSize) :
    genericDecode buf maxFrameSize =
      ((publishFromFrame ⟨headerIn buf, headersIn buf, payloadIn buf⟩).map fun command =>
        some (command, beAt buf 6 8), buf.drop (Frame.announced buf)) := by
  have decoded : FrameHeader.decode (buf.take frameHeaderSize) = .ok (headerIn buf) := by
    rw [decode_take peeked.long, if_neg (not_not.mpr peeked.magic),
      if_neg (not_not.mpr peeked.version)]
  rw [genericDecode, decodeFrom_whole peeked.long peeked.fits peeked.whole, decoded]
  dsimp only [Except.map]
  rw [fromFrame_pub (by exact peeked.isPub)]
  cases publishFromFrame ⟨headerIn buf, headersIn buf, payloadIn buf⟩ with
  | error e => rfl
  | ok command => rfl

theorem fastCommand_cut {payload : Bytes} (cut : ReplyCut payload) (headers : Bytes) :
    ∃ e, fastCommand headers payload = .error e := by
  obtain ⟨subject, long, reply⟩ := cut
  unfold fastCommand parsePublishPayload
  dsimp only
  rw [if_neg (Nat.not_lt.mpr long), if_neg (Nat.not_lt.mpr subject)]
  by_cases missing : payload.length < 2 + beAt payload 0 2 + 2
  · rw [if_pos missing]
    exact ⟨_, rfl⟩
  · rw [if_neg missing, if_pos (reply.resolve_left missing)]
    exact ⟨_, rfl⟩

theorem publishFromFrame_cut {header : FrameHeader} {headers payload : Bytes}
    (cut : ReplyCut payload) :
    ∃ command : Option Delivery.HeaderMap → PublishCommand,
      publishFromFrame ⟨header, headers, payload⟩ = (headersFromFrame headers).map command := by
  obtain ⟨subject, long, -⟩ := cut
  unfold publishFromFrame
  dsimp only
  rw [if_neg (Nat.not_lt.mpr long), if_neg (Nat.not_lt.mpr subject)]
  exact ⟨_, rfl⟩

theorem publishFromFrame_eq {payload : Bytes} (whole : ¬ReplyCut payload) (header : FrameHeader)
    (headers : Bytes) :
    publishFromFrame ⟨header, headers, payload⟩ = fastCommand headers payload := by
  unfold publishFromFrame fastCommand parsePublishPayload
  dsimp only
  by_cases short : payload.length < 2
  · rw [if_pos short, if_pos short]
  · by_cases subject : payload.length < 2 + beAt payload 0 2
    · rw [if_neg short, if_neg short, if_pos subject, if_pos subject]
    · have present : ¬payload.length < 2 + beAt payload 0 2 + 2 := fun missing =>
        whole ⟨Nat.le_of_not_lt subject, Nat.le_of_not_lt short, .inl missing⟩
      have complete : ¬payload.length < 2 + beAt payload 0 2 + 2 +
          beAt payload (2 + beAt payload 0 2) 2 := fun missing =>
        whole ⟨Nat.le_of_not_lt subject, Nat.le_of_not_lt short, .inr missing⟩
      have field : beAt (payload.drop (2 + beAt payload 0 2)) 0 2 =
          beAt payload (2 + beAt payload 0 2) 2 := beAt_drop payload _ 0 2
      have left : (payload.drop (2 + beAt payload 0 2)).length =
          payload.length - (2 + beAt payload 0 2) := List.length_drop
      rw [if_neg short, if_neg short, if_neg subject, if_neg subject, if_neg present,
        if_neg complete, if_pos (by omega), field]
      by_cases none : beAt payload (2 + beAt payload 0 2) 2 = 0
      · rw [if_neg (by omega), if_neg (by omega), none]
        dsimp only
        rw [slice_to_end]
        rfl
      · rw [if_pos (by omega), if_pos (by omega)]
        dsimp only
        rw [slice_to_end, ← Nat.add_assoc (2 + beAt payload 0 2) 2]
        rfl

def Rejected (buf : Bytes) (maxFrameSize : ℕ) : Prop :=
  (∃ e, (fastDecode buf maxFrameSize).1 = .error e) ∧
    ∃ e, (genericDecode buf maxFrameSize).1 = .error e

section
variable (long : frameHeaderSize ≤ buf.length)
include long

theorem rejected_large (large : maxFrameSize < Frame.announced buf) :
    Rejected buf maxFrameSize := by
  have notShort := Nat.not_lt.mpr long
  constructor
  · rw [fastDecode, peekPubFrameLayout, peekPubFrameTotal, if_neg notShort]
    dsimp only
    rw [if_pos large]
    exact ⟨_, rfl⟩
  · rw [genericDecode, Frame.decodeFrom, if_neg notShort]
    dsimp only
    rw [if_pos large]
    exact ⟨_, rfl⟩

theorem rejected_invalid (fits : Frame.announced buf ≤ maxFrameSize)
    (whole : Frame.announced buf ≤ buf.length)
    (invalid : ¬(beAt buf 0 2 = zetmqMagic ∧ byteAt buf 2 = currentVersion)) :
    Rejected buf maxFrameSize := by
  constructor
  · rw [fastDecode, peekPubFrameLayout, peekPubFrameTotal, if_neg (Nat.not_lt.mpr long)]
    dsimp only
    rw [if_neg (Nat.not_lt.mpr fits), if_neg (Nat.not_lt.mpr whole)]
    split_ifs with magic version isPub
    · exact ⟨_, rfl⟩
    · exact ⟨_, rfl⟩
    · exact ⟨_, rfl⟩
    · exact absurd ⟨not_not.mp magic, not_not.mp version⟩ invalid
  · rw [genericDecode, decodeFrom_whole long fits whole, decode_take long]
    split_ifs with magic version
    · exact ⟨_, rfl⟩
    · exact ⟨_, rfl⟩
    · exact absurd ⟨not_not.mp magic, not_not.mp version⟩ invalid

theorem decode_cases (isPub : byteAt buf 3 = FrameType.pub.asU8) (maxFrameSize : ℕ) :
    Peeked buf maxFrameSize ∨
    (fastDecode buf maxFrameSize = (.ok none, buf) ∧
      genericDecode buf maxFrameSize = (.ok none, buf)) ∨
    Rejected buf maxFrameSize := by
  by_cases large : maxFrameSize < Frame.announced buf
  · exact .inr (.inr (rejected_large long large))
  · have fits := Nat.le_of_not_lt large
    by_cases part : buf.length < Frame.announced buf
    · refine .inr (.inl ⟨?_, ?_⟩)
      · rw [fastDecode, peekPubFrameLayout, peekPubFrameTotal, if_neg (Nat.not_lt.mpr long)]
        dsimp only
        rw [if_neg large, if_pos part]
        rfl
      · rw [genericDecode, decodeFrom_part fits part]
    · have whole := Nat.le_of_not_lt part
      by_cases valid : beAt buf 0 2 = zetmqMagic ∧ byteAt buf 2 = currentVersion
      · exact .inl ⟨long, fits, whole, valid.1, valid.2, isPub⟩
      · exact .inr (.inr (rejected_invalid long fits whole valid))

end

structure Disputed (buf : Bytes) (maxFrameSize : ℕ) : Prop where
  peeked : Peeked buf maxFrameSize
  cut : ReplyCut (payloadIn buf)
  headers : ∃ headers, headersFromFrame (headersIn buf) = .ok headers

theorem Disputed.differ (disputed : Disputed buf maxFrameSize) :
    (∃ e, (fastDecode buf maxFrameSize).1 = .error e) ∧
      ∃ decoded rest, genericDecode buf maxFrameSize = (.ok (some decoded), rest) := by
  obtain ⟨peeked, cut, headers, decoded⟩ := disputed
  obtain ⟨e, failed⟩ := fastCommand_cut cut (headersIn buf)
  obtain ⟨command, parsed⟩ := @publishFromFrame_cut (headerIn buf) (headersIn buf) _ cut
  refine ⟨⟨e, ?_⟩, (command headers, beAt buf 6 8), buf.drop (Frame.announced buf), ?_⟩
  · rw [fastDecode_peeked peeked, failed]
    rfl
  · rw [genericDecode_peeked peeked, parsed, decoded]
    rfl

theorem agree_or_rejected (peeked : Peeked buf maxFrameSize)
    (undisputed : ¬Disputed buf maxFrameSize) :
    fastDecode buf maxFrameSize = genericDecode buf maxFrameSize ∨ Rejected buf maxFrameSize := by
  by_cases cut : ReplyCut (payloadIn buf)
  · obtain ⟨e, failed⟩ := fastCommand_cut cut (headersIn buf)
    obtain ⟨command, parsed⟩ := @publishFromFrame_cut (headerIn buf) (headersIn buf) _ cut
    cases decoded : headersFromFrame (headersIn buf) with
    | error e' =>
      refine .inr ⟨⟨e, ?_⟩, e', ?_⟩
      · rw [fastDecode_peeked peeked, failed]
        rfl
      · rw [genericDecode_peeked peeked, parsed, decoded]
        rfl
    | ok headers => exact absurd ⟨peeked, cut, headers, decoded⟩ undisputed
  · exact .inl (by rw [fastDecode_peeked peeked, genericDecode_peeked peeked,
      publishFromFrame_eq cut])

theorem Rejected.not_ok (rejected : Rejected buf maxFrameSize)
    (found : Option (PublishCommand × ℕ)) :
    (fastDecode buf maxFrameSize).1 ≠ .ok found ∧
      (genericDecode buf maxFrameSize).1 ≠ .ok found := by
  obtain ⟨⟨e, fast⟩, e', generic⟩ := rejected
  rw [fast, generic]
  exact ⟨nofun, nofun⟩

theorem whole_not_none (peeked : Peeked buf maxFrameSize) :
    (fastDecode buf maxFrameSize).1 ≠ .ok none ∧
      (genericDecode buf maxFrameSize).1 ≠ .ok none := by
  rw [fastDecode_peeked peeked, genericDecode_peeked peeked]
  constructor
  · cases fastCommand (headersIn buf) (payloadIn buf) <;> exact nofun
  · cases publishFromFrame ⟨headerIn buf, headersIn buf, payloadIn buf⟩ <;> exact nofun

/-- The decoders find the same buffers incomplete, and they yield the same commands
on every buffer that does not hold a whole valid frame with a cut reply section. -/
theorem decoders_agree_iff_undisputed (buf : Bytes) (maxFrameSize : ℕ)
    (long : frameHeaderSize ≤ buf.length) (isPub : byteAt buf 3 = FrameType.pub.asU8) :
    ((fastDecode buf maxFrameSize).1 = .ok none ↔
      (genericDecode buf maxFrameSize).1 = .ok none) ∧
    ((∀ decoded rest, fastDecode buf maxFrameSize = (.ok (some decoded), rest) ↔
        genericDecode buf maxFrameSize = (.ok (some decoded), rest)) ↔
      ¬Disputed buf maxFrameSize) := by
  have rejected_agree : Rejected buf maxFrameSize → ∀ decoded rest,
      fastDecode buf maxFrameSize = (.ok (some decoded), rest) ↔
        genericDecode buf maxFrameSize = (.ok (some decoded), rest) := by
    intro rejected decoded rest
    obtain ⟨fast, generic⟩ := rejected.not_ok (some decoded)
    exact iff_of_false (fun same => fast (congrArg Prod.fst same))
      (fun same => generic (congrArg Prod.fst same))
  constructor
  · rcases decode_cases long isPub maxFrameSize with peeked | ⟨fast, generic⟩ | rejected
    · exact iff_of_false (whole_not_none peeked).1 (whole_not_none peeked).2
    · rw [fast, generic]
    · exact iff_of_false (rejected.not_ok none).1 (rejected.not_ok none).2
  constructor
  · intro agree disputed
    obtain ⟨⟨e, failed⟩, decoded, rest, found⟩ := disputed.differ
    rw [(agree decoded rest).mpr found] at failed
    cases failed
  · intro undisputed
    rcases decode_cases long isPub maxFrameSize with peeked | ⟨fast, generic⟩ | rejected
    · rcases agree_or_rejected peeked undisputed with same | rejected
      · rw [same]
        exact fun _ _ => Iff.rfl
      · exact rejected_agree rejected
    · rw [fast, generic]
      exact fun _ _ => Iff.rfl
    · exact rejected_agree rejected

private def bareFrame : Bytes :=
  (((Frame.new .pub 7).withPayload [0, 1, 0x61]).encode)

theorem decoders_agree_on_part_of_bareFrame :
    ((fastDecode (bareFrame.take 24) 64).1 = .ok none ↔
      (genericDecode (bareFrame.take 24) 64).1 = .ok none) ∧
    ((∀ decoded rest, fastDecode (bareFrame.take 24) 64 = (.ok (some decoded), rest) ↔
        genericDecode (bareFrame.take 24) 64 = (.ok (some decoded), rest)) ↔
      ¬Disputed (bareFrame.take 24) 64) :=
  decoders_agree_iff_undisputed _ _ (by decide) (by decide)

set_option maxRecDepth 4000 in
/-- The fast path rejects it, the generic decoder publishes it. -/
theorem bareFrame_is_disputed :
    fastDecode bareFrame 64 =
      (.error (.decodingError "PUB reply length missing".toList), []) ∧
    genericDecode bareFrame 64 = (.ok (some (⟨[0x61], [], none, none⟩, 7)), []) := by
  decide

end ZetMQ.PubDecoders
