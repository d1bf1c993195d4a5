import ZetMQ.CheckedDecoders

/-! No decoder of the server reads out of bounds: each checked decoder comes to the
result of the plain one, whatever the bytes. The guards in front of every read are what
the proofs discharge. -/
namespace ZetMQ.DecoderBounds
open Utf8Text ByteBuffer CheckedReads Frames KeyedTable Delivery Commands PubFastPath

variable (frame : Frame) (payload buf : Bytes)

theorem headerDecode_eq : CheckedDecoders.headerDecode buf = some (FrameHeader.decode buf) := by
  refine guarded fun short => ?_
  have long : 22 ≤ buf.length := Nat.le_of_not_lt short
  have magic : getBe buf 2 = some (beAt buf 0 2, buf.drop 2) := getBe_inside (by omega)
  have version : getByte (buf.drop 2) = some (byteAt buf 2, buf.drop 3) := getByte_drop (by omega)
  have frameType : getByte (buf.drop 3) = some (byteAt buf 3, buf.drop 4) := getByte_drop (by omega)
  have flags : getBe (buf.drop 4) 2 = some (beAt buf 4 2, buf.drop 6) := getBe_drop (by omega)
  have correlationId : getBe (buf.drop 6) 8 = some (beAt buf 6 8, buf.drop 14) :=
    getBe_drop (by omega)
  have headerLen : getBe (buf.drop 14) 4 = some (beAt buf 14 4, buf.drop 18) :=
    getBe_drop (by omega)
  have payloadLen : getBe (buf.drop 18) 4 = some (beAt buf 18 4, buf.drop 22) :=
    getBe_drop (by omega)
  simp only [magic, version, frameType, flags, correlationId, headerLen, payloadLen,
    Option.bind_eq_bind, Option.bind_some, apply_ite some]

theorem readSection_eq {buf : Bytes} {len start stop : ℕ} (ordered : start ≤ stop)
    (inside : stop ≤ buf.length) : CheckedDecoders.readSection buf len start stop =
      some (if 0 < len then slice buf start stop else []) := by
  rw [CheckedDecoders.readSection, readRange_inside ordered inside, apply_ite some]

theorem readTail_eq (offset : ℕ) :
    CheckedDecoders.readTail payload offset = some (payload.drop offset) := by
  rw [CheckedDecoders.readTail]
  by_cases more : offset < payload.length
  · rw [if_pos more, readFrom_inside more.le]
  · rw [if_neg more, List.drop_of_length_le (Nat.le_of_not_lt more)]

/-- Two lengths of four bytes do not wrap a word of eight. -/
theorem word_announced :
    word (frameHeaderSize + beAt buf 14 4 + beAt buf 18 4) = Frame.announced buf := by
  have header := beAt_lt buf 14 4
  have payload := beAt_lt buf 18 4
  refine word_eq ?_
  simp only [frameHeaderSize]
  omega

theorem decodeFrom_eq (maxFrameSize : ℕ) :
    CheckedDecoders.decodeFrom buf maxFrameSize = some (Frame.decodeFrom buf maxFrameSize) := by
  refine guarded fun short => ?_
  have long : 22 ≤ buf.length := Nat.le_of_not_lt short
  rw [readBe_inside (by omega), readBe_inside (by omega)]
  simp only [Option.bind_eq_bind, Option.bind_some, word_announced]
  refine guarded fun _ => guarded fun cut => ?_
  have whole : (buf.take (Frame.announced buf)).length = Frame.announced buf :=
    List.length_take_of_le (Nat.le_of_not_lt cut)
  have total : Frame.announced buf = 22 + beAt buf 14 4 + beAt buf 18 4 := rfl
  have fixed : frameHeaderSize = 22 := rfl
  rw [splitTo_inside (Nat.le_of_not_lt cut), Option.bind_some]
  dsimp only
  rw [readRange_inside (Nat.zero_le _) (by omega), Option.bind_some, headerDecode_eq,
    Option.bind_some, readSection_eq (by omega) (by omega), readSection_eq (by omega) (by omega)]
  cases FrameHeader.decode (slice (buf.take (Frame.announced buf)) 0 frameHeaderSize) with
  | error e => rfl
  | ok header => rfl

theorem decodeHeaderEntries_eq (n : ℕ) (buf : Bytes) (headers : HeaderMap) :
    CheckedDecoders.decodeHeaderEntries n buf headers =
      some (decodeHeaderEntries n buf headers) := by
  induction n generalizing buf headers with
  | zero => rfl
  | succ n ih =>
    refine guarded fun noKeyLen => ?_
    rw [getBe_inside (Nat.le_of_not_lt noKeyLen)]
    refine guarded fun noKey => ?_
    rw [readRange_inside (Nat.zero_le _) (Nat.le_of_not_lt noKey),
      advance_inside (Nat.le_of_not_lt noKey)]
    refine guarded fun noValLen => ?_
    rw [getBe_inside (Nat.le_of_not_lt noValLen)]
    refine guarded fun noVal => ?_
    rw [readRange_inside (Nat.zero_le _) (Nat.le_of_not_lt noVal),
      advance_inside (Nat.le_of_not_lt noVal)]
    exact ih ..

theorem decodeHeaders_eq (data : Bytes) :
    CheckedDecoders.decodeHeaders data = some (decodeHeaders data) := by
  refine guarded fun short => ?_
  rw [getBe_inside (Nat.le_of_not_lt short)]
  exact decodeHeaderEntries_eq ..

theorem headersFromFrame_eq (headers : Bytes) :
    CheckedDecoders.headersFromFrame headers = some (headersFromFrame headers) := by
  refine guarded fun _ => ?_
  rw [decodeHeaders_eq]
  rfl

theorem authDecode_eq (authType : UInt8) (data : Bytes) :
    CheckedDecoders.authDecode authType data = some (AuthInfo.decode authType data) := by
  refine guarded fun _ => ?_
  by_cases token : authType = 1
  · rw [if_pos token, if_pos token]
    refine guarded fun short => ?_
    rw [readBe_inside (by omega)]
    refine guarded fun cut => ?_
    rw [readRange_inside (by omega) (by omega)]
    rfl
  rw [if_neg token, if_neg token]
  by_cases userPass : authType = 2
  · rw [if_pos userPass, if_pos userPass]
    refine guarded fun short => ?_
    rw [readBe_inside (by omega)]
    refine guarded fun noName => ?_
    rw [readRange_inside (by omega) (by omega), readBe_inside (by omega)]
    refine guarded fun noPass => ?_
    rw [readRange_inside (by omega) (by omega)]
    rfl
  · rw [if_neg userPass, if_neg userPass]

theorem not_isEmpty {buf : Bytes} (filled : ¬buf.isEmpty) : 0 < buf.length :=
  List.length_pos_of_ne_nil fun empty => filled (by rw [empty]; rfl)

/-- Where the name ends there are the bytes that are asked for behind it. -/
theorem decodeName_eq (extra : ℕ) : CheckedDecoders.decodeName payload extra =
    some ((decodeNamed payload extra).map fun named =>
      (named.1, 1 + (byteAt payload 0).toNat)) := by
  rw [decodeNamed, apply_ite (Except.map _)]
  refine guarded fun filled => ?_
  rw [readAt_inside (not_isEmpty filled)]
  simp only [apply_ite (Except.map _)]
  refine guarded fun short => ?_
  rw [readRange_inside (by omega) (by omega)]
  rfl

theorem decodeNamed_ok {payload rest : Bytes} {extra : ℕ} {name : Str}
    (decoded : decodeNamed payload extra = .ok (name, rest)) :
    rest = payload.drop (1 + (byteAt payload 0).toNat) ∧
      1 + (byteAt payload 0).toNat + extra ≤ payload.length := by
  rw [decodeNamed] at decoded
  by_cases empty : payload.isEmpty
  · rw [if_pos empty] at decoded
    cases decoded
  · by_cases short : payload.length < 1 + (byteAt payload 0).toNat + extra
    · rw [if_neg empty, if_pos short] at decoded
      cases decoded
    · rw [if_neg empty, if_neg short] at decoded
      cases decoded
      exact ⟨rfl, Nat.le_of_not_lt short⟩

theorem createStreamDecode_eq :
    CheckedDecoders.createStreamDecode payload = some (CreateStreamCommand.decode payload) := by
  rw [CheckedDecoders.createStreamDecode, decodeName_eq, CreateStreamCommand.decode]
  cases decoded : decodeNamed payload 24 with
  | error e => rfl
  | ok named =>
    obtain ⟨behind, long⟩ := decodeNamed_ok decoded
    change (do
      let rest ← readFrom payload (1 + (byteAt payload 0).toNat)
      _) = _
    rw [readFrom_inside (by omega), ← behind]
    have length : 24 ≤ named.2.length := by rw [behind, List.length_drop]; omega
    have maxMsgs : rangeBe named.2 0 8 8 = _ := @rangeBe_inside named.2 0 8 (by omega)
    have maxBytes : rangeBe named.2 8 16 8 = _ := @rangeBe_inside named.2 8 8 (by omega)
    have maxAgeSecs : rangeBe named.2 16 24 8 = _ := @rangeBe_inside named.2 16 8 (by omega)
    simp only [maxMsgs, maxBytes, maxAgeSecs, Option.bind_eq_bind, Option.bind_some]
    rfl

theorem deleteStreamDecode_eq :
    CheckedDecoders.deleteStreamDecode payload = some (DeleteStreamCommand.decode payload) := by
  rw [CheckedDecoders.deleteStreamDecode, decodeName_eq, DeleteStreamCommand.decode]
  cases decodeNamed payload 0 with
  | error e => rfl
  | ok named => rfl

theorem sequenceDecode_eq {α : Type} (build : Str → ℕ → α) (payload : Bytes) :
    CheckedDecoders.sequenceDecode build payload =
      some ((decodeNamed payload 8).map fun named => build named.1 (beAt named.2 0 8)) := by
  rw [CheckedDecoders.sequenceDecode, decodeName_eq]
  cases decoded : decodeNamed payload 8 with
  | error e => rfl
  | ok named =>
    obtain ⟨behind, long⟩ := decodeNamed_ok decoded
    change (do
      let sequence ← rangeBe payload (1 + (byteAt payload 0).toNat) _ 8
      _) = _
    rw [rangeBe_inside long, Except.map, behind, beAt_drop]
    rfl

theorem connectFromFrame_eq :
    CheckedDecoders.connectFromFrame frame = some (connectFromFrame frame) := by
  refine guarded fun filled => ?_
  have length := not_isEmpty filled
  rw [readAt_inside length, readFrom_inside length]
  simp only [Option.bind_eq_bind, Option.bind_some, authDecode_eq]
  cases AuthInfo.decode (byteAt frame.payload 0) (frame.payload.drop 1) with
  | error e => rfl
  | ok auth => rfl

theorem publishReply_eq {payload : Bytes} {stop : ℕ} (inside : stop ≤ payload.length) :
    CheckedDecoders.publishReply payload stop =
      some (if 2 ≤ (payload.drop stop).length then
          if 2 + beAt (payload.drop stop) 0 2 ≤ (payload.drop stop).length ∧
              0 < beAt (payload.drop stop) 0 2 then
            (some (slice payload (stop + 2) (stop + 2 + beAt (payload.drop stop) 0 2)),
              2 + beAt (payload.drop stop) 0 2)
          else (none, 2)
        else (none, 0)) := by
  have left : (payload.drop stop).length = payload.length - stop := List.length_drop
  rw [CheckedDecoders.publishReply, readFrom_inside inside]
  refine taken fun long => ?_
  rw [readBe_inside long]
  refine taken fun fits => ?_
  rw [readRange_inside (by omega) (by omega)]
  rfl

theorem publishFromFrame_eq :
    CheckedDecoders.publishFromFrame frame = some (publishFromFrame frame) := by
  refine guarded fun short => ?_
  rw [readBe_inside (Nat.le_of_not_lt short)]
  refine guarded fun cut => ?_
  rw [readRange_inside (by omega) (by omega), publishReply_eq (by omega)]
  simp only [Option.bind_eq_bind, Option.bind_some, readTail_eq, headersFromFrame_eq]
  cases headersFromFrame frame.headers with
  | error e => rfl
  | ok headers => rfl

theorem subscribeGroup_eq (patternLen : ℕ) :
    CheckedDecoders.subscribeGroup payload patternLen =
      some (if 1 + patternLen + 1 < payload.length then
          if 2 + patternLen + (byteAt payload (1 + patternLen)).toNat ≤ payload.length ∧
              0 < (byteAt payload (1 + patternLen)).toNat then
            some (fromUtf8Lossy (slice payload (2 + patternLen)
              (2 + patternLen + (byteAt payload (1 + patternLen)).toNat)))
          else none
        else none) := by
  refine taken fun more => ?_
  rw [readAt_inside (by omega)]
  refine taken fun fits => ?_
  rw [readRange_inside (by omega) fits.1]
  rfl

theorem subscribeFromFrame_eq :
    CheckedDecoders.subscribeFromFrame frame = some (subscribeFromFrame frame) := by
  refine guarded fun filled => ?_
  rw [readAt_inside (not_isEmpty filled)]
  refine guarded fun cut => ?_
  rw [readRange_inside (by omega) (by omega), subscribeGroup_eq]
  rfl

theorem unsubscribeFromFrame_eq :
    CheckedDecoders.unsubscribeFromFrame frame = some (unsubscribeFromFrame frame) := by
  refine guarded fun short => ?_
  rw [readBe_inside (by omega)]
  rfl

theorem fromFrame_eq : CheckedDecoders.fromFrame frame = some (BrokerCommand.fromFrame frame) := by
  rw [CheckedDecoders.fromFrame, BrokerCommand.fromFrame, connectFromFrame_eq,
    publishFromFrame_eq, subscribeFromFrame_eq, unsubscribeFromFrame_eq, createStreamDecode_eq,
    deleteStreamDecode_eq, CheckedDecoders.ackDecode, CheckedDecoders.nackDecode,
    sequenceDecode_eq, sequenceDecode_eq]
  cases FrameType.fromU8 frame.header.frameType with
  | error e => rfl
  | ok frameType => cases frameType <;> rfl

end ZetMQ.DecoderBounds
