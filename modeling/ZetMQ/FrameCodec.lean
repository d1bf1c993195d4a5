import ZetMQ.Frames

/-! What the frame decoder reads, and that it reads back what the encoder wrote,
however the encodings are cut on their way. -/
namespace ZetMQ.FrameCodec
open Utf8Text ByteBuffer Frames

/-- The parts of the first frame in a buffer. -/
def headerIn (buf : Bytes) : FrameHeader :=
  { magic := beAt buf 0 2
    version := byteAt buf 2
    frameType := byteAt buf 3
    flags := beAt buf 4 2
    correlationId := beAt buf 6 8
    headerLen := beAt buf 14 4
    payloadLen := beAt buf 18 4 }

theorem headerIn_headerLen (buf : Bytes) : (headerIn buf).headerLen = beAt buf 14 4 := rfl
theorem headerIn_payloadLen (buf : Bytes) : (headerIn buf).payloadLen = beAt buf 18 4 := rfl
theorem headerIn_magic (buf : Bytes) : (headerIn buf).magic = beAt buf 0 2 := rfl
theorem headerIn_frameType (buf : Bytes) : (headerIn buf).frameType = byteAt buf 3 := rfl
theorem headerIn_version (buf : Bytes) : (headerIn buf).version = byteAt buf 2 := rfl
theorem headerIn_correlationId (buf : Bytes) : (headerIn buf).correlationId = beAt buf 6 8 := rfl

def headersIn (buf : Bytes) : Bytes :=
  slice (buf.take (Frame.announced buf)) frameHeaderSize (frameHeaderSize + beAt buf 14 4)

def payloadIn (buf : Bytes) : Bytes :=
  slice (buf.take (Frame.announced buf)) (frameHeaderSize + beAt buf 14 4) (Frame.announced buf)

variable {buf : Bytes}

theorem announced_append (long : frameHeaderSize ≤ buf.length) (rest : Bytes) :
    Frame.announced (buf ++ rest) = Frame.announced buf := by
  rw [frameHeaderSize] at long
  rw [Frame.announced, beAt_append (by omega), beAt_append (by omega), Frame.announced]

theorem section_eq (bytes : Bytes) (start width : ℕ) :
    (if 0 < width then slice bytes start (start + width) else []) =
      slice bytes start (start + width) := by
  split
  · rfl
  · rename_i empty
    rw [Nat.eq_zero_of_not_pos empty, Nat.add_zero, slice, List.drop_take_self]

theorem decodeFrom_short (short : buf.length < frameHeaderSize) (maxFrameSize : ℕ) :
    Frame.decodeFrom buf maxFrameSize = (.ok none, buf) := by
  rw [Frame.decodeFrom, if_pos short]

theorem decodeFrom_part {maxFrameSize : ℕ} (fits : Frame.announced buf ≤ maxFrameSize)
    (part : buf.length < Frame.announced buf) :
    Frame.decodeFrom buf maxFrameSize = (.ok none, buf) := by
  by_cases short : buf.length < frameHeaderSize
  · exact decodeFrom_short short maxFrameSize
  · rw [Frame.decodeFrom, if_neg short]
    dsimp only
    rw [if_neg (Nat.not_lt.mpr fits), if_pos part]

section
variable (long : frameHeaderSize ≤ buf.length)
include long

theorem decodeFrom_whole {maxFrameSize : ℕ} (fits : Frame.announced buf ≤ maxFrameSize)
    (whole : Frame.announced buf ≤ buf.length) :
    Frame.decodeFrom buf maxFrameSize =
      ((FrameHeader.decode (buf.take frameHeaderSize)).map fun header =>
        some ⟨header, headersIn buf, payloadIn buf⟩, buf.drop (Frame.announced buf)) := by
  have header : slice (buf.take (Frame.announced buf)) 0 frameHeaderSize =
      buf.take frameHeaderSize := by
    rw [slice_take (by rw [Frame.announced]; omega)]
    rfl
  have payload : (if 0 < beAt buf 18 4
      then slice (buf.take (Frame.announced buf)) (frameHeaderSize + beAt buf 14 4)
        (Frame.announced buf) else []) = payloadIn buf :=
    section_eq _ (frameHeaderSize + beAt buf 14 4) (beAt buf 18 4)
  unfold Frame.decodeFrom
  dsimp only
  rw [if_neg (Nat.not_lt.mpr long), if_neg (Nat.not_lt.mpr fits), if_neg (Nat.not_lt.mpr whole),
    header, section_eq, payload]
  cases FrameHeader.decode (buf.take frameHeaderSize) with
  | error e => rfl
  | ok header => rfl

theorem decode_take :
    FrameHeader.decode (buf.take frameHeaderSize) =
      if beAt buf 0 2 ≠ zetmqMagic then .error (.invalidMagic zetmqMagic (beAt buf 0 2))
      else if byteAt buf 2 ≠ currentVersion then .error (.unsupportedVersion (byteAt buf 2))
      else .ok (headerIn buf) := by
  have length : (buf.take frameHeaderSize).length = frameHeaderSize := List.length_take_of_le long
  have be : ∀ {start width}, start + width ≤ 22 →
      beAt (buf.take frameHeaderSize) start width = beAt buf start width :=
    fun inside => beAt_take inside
  have byte : ∀ {i}, i < 22 → byteAt (buf.take frameHeaderSize) i = byteAt buf i :=
    fun inside => byteAt_take inside
  rw [FrameHeader.decode, length, if_neg (Nat.lt_irrefl _)]
  simp only [be (show 0 + 2 ≤ 22 by decide), be (show 4 + 2 ≤ 22 by decide),
    be (show 6 + 8 ≤ 22 by decide), be (show 14 + 4 ≤ 22 by decide),
    be (show 18 + 4 ≤ 22 by decide), byte (show 2 < 22 by decide), byte (show 3 < 22 by decide),
    headerIn]

theorem encode_headerIn : (headerIn buf).encode = slice buf 0 frameHeaderSize := by
  rw [frameHeaderSize] at long ⊢
  have bytes : [byteAt buf 2, byteAt buf 3] = slice buf 2 3 ++ slice buf 3 4 := by
    rw [← singleton_byteAt (by omega), ← singleton_byteAt (by omega)]
    rfl
  simp only [FrameHeader.encode, headerIn]
  rw [bytes, toBe_beAt (by omega), toBe_beAt (by omega), toBe_beAt (by omega),
    toBe_beAt (by omega), toBe_beAt (by omega), slice_concat buf (by decide) (by decide),
    slice_concat buf (by decide) (by decide), slice_concat buf (by decide) (by decide),
    slice_concat buf (by decide) (by decide), slice_concat buf (by decide) (by decide),
    slice_concat buf (by decide) (by decide)]

theorem decode_take_ok {header : FrameHeader}
    (decoded : FrameHeader.decode (buf.take frameHeaderSize) = .ok header) :
    header = headerIn buf := by
  rw [decode_take long] at decoded
  split_ifs at decoded
  exact (Except.ok.inj decoded).symm

end

theorem decodeFrom_cases {rest : Bytes} {maxFrameSize : ℕ} {found : Option Frame}
    (decoded : Frame.decodeFrom buf maxFrameSize = (.ok found, rest)) :
    found = none ∧ rest = buf ∨
      (frameHeaderSize ≤ buf.length ∧ Frame.announced buf ≤ maxFrameSize ∧
        Frame.announced buf ≤ buf.length) ∧
      found = some ⟨headerIn buf, headersIn buf, payloadIn buf⟩ ∧
      rest = buf.drop (Frame.announced buf) := by
  by_cases short : buf.length < frameHeaderSize
  · rw [decodeFrom_short short] at decoded
    cases decoded
    exact .inl ⟨rfl, rfl⟩
  · have long := Nat.le_of_not_lt short
    by_cases large : maxFrameSize < Frame.announced buf
    · rw [Frame.decodeFrom, if_neg short] at decoded
      dsimp only at decoded
      rw [if_pos large] at decoded
      cases decoded
    · have fits := Nat.le_of_not_lt large
      by_cases part : buf.length < Frame.announced buf
      · rw [decodeFrom_part fits part] at decoded
        cases decoded
        exact .inl ⟨rfl, rfl⟩
      · have whole := Nat.le_of_not_lt part
        rw [decodeFrom_whole long fits whole] at decoded
        cases header : FrameHeader.decode (buf.take frameHeaderSize) with
        | error e =>
          rw [header] at decoded
          cases decoded
        | ok fields =>
          rw [header, decode_take_ok long header] at decoded
          cases decoded
          exact .inr ⟨⟨long, fits, whole⟩, rfl, rfl⟩

theorem encode_parts (long : frameHeaderSize ≤ buf.length) :
    Frame.encode ⟨headerIn buf, headersIn buf, payloadIn buf⟩ =
      buf.take (Frame.announced buf) := by
  have headers : frameHeaderSize + beAt buf 14 4 ≤ Frame.announced buf := Nat.le_add_right ..
  rw [Frame.encode, encode_headerIn long, headersIn, payloadIn,
    ← slice_take (show frameHeaderSize ≤ Frame.announced buf by omega),
    slice_concat _ (Nat.zero_le _) (Nat.le_add_right ..), slice_concat _ (Nat.zero_le _) headers,
    slice_take le_rfl, slice, List.drop_zero]

theorem encode_decoded {rest : Bytes} {maxFrameSize : ℕ} {frame : Frame}
    (decoded : Frame.decodeFrom buf maxFrameSize = (.ok (some frame), rest)) :
    frame.encode ++ rest = buf := by
  obtain ⟨nothing, -⟩ | ⟨⟨long, -, -⟩, here, left⟩ := decodeFrom_cases decoded
  · cases nothing
  · cases here
    rw [encode_parts long, left, List.take_append_drop]

/-- A frame that was taken off the buffer is encoded to what was taken, within the
limit, and announces its sections; a decoder that waits leaves the buffer alone. -/
theorem decodeFrom_inverse (buf : Bytes) (maxFrameSize : ℕ) :
    (∀ frame rest, Frame.decodeFrom buf maxFrameSize = (.ok (some frame), rest) →
      frame.encode ++ rest = buf ∧ buf.length - rest.length ≤ maxFrameSize ∧
      frame.header.headerLen = frame.headers.length ∧
      frame.header.payloadLen = frame.payload.length) ∧
    (∀ rest, Frame.decodeFrom buf maxFrameSize = (.ok none, rest) → rest = buf) := by
  constructor
  · intro frame rest decoded
    obtain ⟨nothing, -⟩ | ⟨⟨long, fits, whole⟩, here, left⟩ := decodeFrom_cases decoded
    · cases nothing
    · cases here
      have headers : frameHeaderSize + beAt buf 14 4 ≤ Frame.announced buf := Nat.le_add_right ..
      have taken : (buf.take (Frame.announced buf)).length = Frame.announced buf :=
        List.length_take_of_le whole
      refine ⟨encode_decoded decoded, ?_, ?_, ?_⟩
      · rw [left, List.length_drop]
        omega
      · rw [headerIn_headerLen, headersIn, slice_length (by omega), Nat.add_sub_cancel_left]
      · rw [headerIn_payloadLen, payloadIn, slice_length (by omega), Frame.announced,
          Nat.add_sub_cancel_left]
  · intro rest decoded
    obtain ⟨-, same⟩ | ⟨-, here, -⟩ := decodeFrom_cases decoded
    · exact same
    · cases here

private def pingBytes : Bytes :=
  [0x5a, 0x4d, 1, 0x10, 0, 0, 0, 0, 0, 0, 0, 0, 0, 7, 0, 0, 0, 0, 0, 0, 0, 0, 0xff]

set_option maxRecDepth 2000 in
theorem ping_inverse :
    Frame.decodeFrom pingBytes 64 = (.ok (some (Frame.new .ping 7)), [0xff]) ∧
    (Frame.new .ping 7).encode ++ [0xff] = pingBytes :=
  ⟨by decide, ((decodeFrom_inverse pingBytes 64).1 (Frame.new .ping 7) [0xff] (by decide)).1⟩

structure Sized (header : FrameHeader) : Prop where
  magic : header.magic < 2 ^ 16
  flags : header.flags < 2 ^ 16
  correlationId : header.correlationId < 2 ^ 64
  headerLen : header.headerLen < 2 ^ 32
  payloadLen : header.payloadLen < 2 ^ 32

theorem header_encode_length (header : FrameHeader) : header.encode.length = frameHeaderSize := by
  simp only [FrameHeader.encode, List.length_append, toBe_length, List.length_cons,
    List.length_nil, frameHeaderSize]

theorem headerIn_encode {header : FrameHeader} (sized : Sized header) (rest : Bytes) :
    headerIn (header.encode ++ rest) = header := by
  obtain ⟨magic, version, frameType, flags, correlationId, headerLen, payloadLen⟩ := header
  obtain ⟨magicFits, flagsFits, correlationFits, headerFits, payloadFits⟩ := sized
  -- what stands in front of each field, and behind it
  let toType := toBe 2 magic ++ [version]
  let toFlags := toType ++ [frameType]
  let toId := toFlags ++ toBe 2 flags
  let toHeaderLen := toId ++ toBe 8 correlationId
  let toPayloadLen := toHeaderLen ++ toBe 4 headerLen
  let fromPayloadLen := toBe 4 payloadLen ++ rest
  let fromHeaderLen := toBe 4 headerLen ++ fromPayloadLen
  let fromId := toBe 8 correlationId ++ fromHeaderLen
  let fromFlags := toBe 2 flags ++ fromId
  rw [headerIn, FrameHeader.mk.injEq]
  refine ⟨@beAt_written _ [] (version :: frameType :: fromFlags) 0 2 magic ?_ rfl magicFits,
    @byteAt_written _ (toBe 2 magic) (frameType :: fromFlags) version 2 ?_ rfl,
    @byteAt_written _ toType fromFlags frameType 3 ?_ rfl,
    @beAt_written _ toFlags fromId 4 2 flags ?_ rfl flagsFits,
    @beAt_written _ toId fromHeaderLen 6 8 correlationId ?_ rfl correlationFits,
    @beAt_written _ toHeaderLen fromPayloadLen 14 4 headerLen ?_ rfl headerFits,
    @beAt_written _ toPayloadLen rest 18 4 payloadLen ?_ rfl payloadFits⟩
  all_goals
    simp only [FrameHeader.encode, toType, toFlags, toId, toHeaderLen, toPayloadLen, fromFlags,
      fromId, fromHeaderLen, fromPayloadLen, List.append_assoc, List.nil_append, List.cons_append]

/-- A frame as its constructors leave it: a current header that announces the two
sections, within the limit. -/
structure WellFormed (maxFrameSize : ℕ) (frame : Frame) : Prop where
  magic : frame.header.magic = zetmqMagic
  version : frame.header.version = currentVersion
  sized : Sized frame.header
  headerLen : frame.header.headerLen = frame.headers.length
  payloadLen : frame.header.payloadLen = frame.payload.length
  fits : frameHeaderSize + frame.headers.length + frame.payload.length ≤ maxFrameSize

section
variable {maxFrameSize : ℕ} {frame : Frame}

theorem frame_encode_length (frame : Frame) :
    frame.encode.length = frameHeaderSize + frame.headers.length + frame.payload.length := by
  rw [Frame.encode, List.length_append, List.length_append, header_encode_length]

section
variable (wellFormed : WellFormed maxFrameSize frame)
include wellFormed

theorem headerIn_frame (rest : Bytes) : headerIn (frame.encode ++ rest) = frame.header := by
  rw [Frame.encode, List.append_assoc, List.append_assoc]
  exact headerIn_encode wellFormed.sized _

theorem announced_frame (rest : Bytes) :
    Frame.announced (frame.encode ++ rest) = frame.encode.length := by
  rw [Frame.announced, ← headerIn_headerLen, ← headerIn_payloadLen, headerIn_frame wellFormed,
    wellFormed.headerLen, wellFormed.payloadLen, frame_encode_length]

theorem sections_frame (rest : Bytes) :
    headersIn (frame.encode ++ rest) = frame.headers ∧
      payloadIn (frame.encode ++ rest) = frame.payload := by
  have headerLen : beAt (frame.encode ++ rest) 14 4 = frame.headers.length := by
    rw [← headerIn_headerLen, headerIn_frame wellFormed, wellFormed.headerLen]
  have headers := slice_field frame.header.encode frame.headers
  have payload := slice_field (frame.header.encode ++ frame.headers) frame.payload
  rw [header_encode_length] at headers
  rw [← List.length_append, List.length_append, header_encode_length] at payload
  rw [headersIn, payloadIn, announced_frame wellFormed, List.take_left, headerLen]
  constructor
  · rw [Frame.encode, slice_append (by rw [List.length_append, header_encode_length]), headers]
  · exact payload

theorem decodeFrom_encode (rest : Bytes) :
    Frame.decodeFrom (frame.encode ++ rest) maxFrameSize = (.ok (some frame), rest) := by
  have announced := announced_frame wellFormed rest
  have length := frame_encode_length frame
  have header := headerIn_frame wellFormed rest
  have magic : beAt (frame.encode ++ rest) 0 2 = zetmqMagic := by
    rw [← headerIn_magic, header, wellFormed.magic]
  have version : byteAt (frame.encode ++ rest) 2 = currentVersion := by
    rw [← headerIn_version, header, wellFormed.version]
  have long : frameHeaderSize ≤ (frame.encode ++ rest).length := by
    rw [List.length_append]
    omega
  obtain ⟨headers, payload⟩ := sections_frame wellFormed rest
  rw [decodeFrom_whole long (by rw [announced, length]; exact wellFormed.fits)
    (by rw [announced, List.length_append]; omega), decode_take long,
    if_neg (not_not.mpr magic), if_neg (not_not.mpr version), header, headers, payload, announced,
    List.drop_left]
  rfl

theorem decodeFrom_encode_part {part : Bytes} (start : part <+: frame.encode)
    (short : part.length < frame.encode.length) :
    Frame.decodeFrom part maxFrameSize = (.ok none, part) := by
  by_cases long : frameHeaderSize ≤ part.length
  · obtain ⟨more, joined⟩ := start
    have announced := announced_frame wellFormed []
    rw [List.append_nil, ← joined, announced_append long, joined] at announced
    refine decodeFrom_part ?_ (by rwa [announced])
    rw [announced, frame_encode_length]
    exact wellFormed.fits
  · exact decodeFrom_short (Nat.lt_of_not_le long) maxFrameSize

end

theorem wellFormed_raw (frameType : FrameType) {correlationId : ℕ} {payload : Bytes}
    (id : correlationId < 2 ^ 64) (short : payload.length < 2 ^ 32)
    (fits : frameHeaderSize + payload.length ≤ maxFrameSize) :
    WellFormed maxFrameSize ((Frame.new frameType correlationId).withPayload payload) where
  magic := rfl
  version := rfl
  sized := ⟨show zetmqMagic < 2 ^ 16 by decide, show 0 < 2 ^ 16 by decide, id,
    show 0 < 2 ^ 32 by decide, Nat.mod_lt _ (by decide)⟩
  headerLen := rfl
  payloadLen := Nat.mod_eq_of_lt short
  fits := fits

end

end ZetMQ.FrameCodec
