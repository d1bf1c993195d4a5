import ZetMQ.MsgFrames
import ZetMQ.PubDecoders

/-! The `PUB` frame that a client builds, read by both decoders of the server. The
frame counts the bytes of its sections in 32 bits. -/
namespace ZetMQ.PubRoundTrip
open Utf8Text Utf8Codec ByteBuffer Frames Delivery Commands FrameCodec HeaderCodec MsgFrames
open PubFastPath PubFrames PubDecoders

def replyText : Option Str → Bytes
  | some reply => toBe 2 (encode reply).length ++ encode reply
  | none => toBe 2 0

def pubPayload (subject : Str) (replyTo : Option Str) (payload : Bytes) : Bytes :=
  toBe 2 (encode subject).length ++ encode subject ++ replyText replyTo ++ payload

def publishWithReply (order : HeaderOrder) (subject : Str) (replyTo : Option Str)
    (payload : Bytes) (headers : Option HeaderMap) : Frame :=
  let frame := (Frame.new .pub 0).withPayload (pubPayload subject replyTo payload)
  match headers with
  | some map => frame.withHeaders (encodeHeaders order map)
  | none => frame

section
variable {order : HeaderOrder} {subject : Str} {replyTo : Option Str} {payload : Bytes}
  {headers : Option HeaderMap}

theorem publishWithReply_sections :
    (publishWithReply order subject replyTo payload headers).headers =
        headersSection order headers ∧
      (publishWithReply order subject replyTo payload headers).payload =
        pubPayload subject replyTo payload := by
  cases headers with
  | none => exact ⟨rfl, rfl⟩
  | some map => exact ⟨rfl, rfl⟩

theorem publishWithReply_header :
    (publishWithReply order subject replyTo payload headers).header =
      { FrameHeader.new FrameType.pub.asU8 0 with
        headerLen := (headersSection order headers).length % 2 ^ 32
        payloadLen := (pubPayload subject replyTo payload).length % 2 ^ 32 } := by
  cases headers with
  | none => rfl
  | some map => rfl

def replyBytesOf (replyTo : Option Str) : Bytes := (replyTo.map encode).getD []

theorem pubPayload_eq : pubPayload subject replyTo payload =
    addressed (encode subject) (replyBytesOf replyTo) payload := by
  cases replyTo with
  | none => simp [pubPayload, replyText, addressed, replyBytesOf]
  | some reply => simp [pubPayload, replyText, addressed, replyBytesOf]

theorem replyBytesOf_length (short : ∀ reply ∈ replyTo, utf8Len reply ≤ 65535) :
    (replyBytesOf replyTo).length ≤ 65535 := by
  cases replyTo with
  | none => exact Nat.zero_le _
  | some reply =>
    rw [replyBytesOf, Option.map_some, Option.getD_some, encode_length]
    exact short reply rfl

theorem replyBytesOf_some (filled : ∀ reply ∈ replyTo, reply ≠ []) :
    (if 0 < (replyBytesOf replyTo).length then some (replyBytesOf replyTo) else none) =
      replyTo.map encode := by
  cases replyTo with
  | none => rfl
  | some reply =>
    have scalars := List.length_pos_of_ne_nil (filled reply rfl)
    exact if_pos (scalars.trans_le (length_le_encode reply))

theorem fastCommand_pubPayload (subjectFits : utf8Len subject ≤ 65535)
    (filled : ∀ reply ∈ replyTo, reply ≠ []) (short : ∀ reply ∈ replyTo, utf8Len reply ≤ 65535)
    {bytes : Bytes} {decoded : Option HeaderMap} (read : headersFromFrame bytes = .ok decoded) :
    fastCommand bytes (pubPayload subject replyTo payload) =
      .ok ⟨encode subject, payload, replyTo.map encode, decoded⟩ := by
  rw [← encode_length] at subjectFits
  have length := addressed_length (encode subject) (replyBytesOf replyTo) payload
  obtain ⟨subjectLen, subjectSlice⟩ :=
    @addressed_subject _ (replyBytesOf replyTo) payload subjectFits
  obtain ⟨replyLen, replySlice⟩ :=
    @addressed_reply (encode subject) _ payload (replyBytesOf_length short)
  have rest := addressed_drop (encode subject) (replyBytesOf replyTo) payload 0
  rw [Nat.add_zero, List.drop_zero] at rest
  rw [pubPayload_eq, ← replyBytesOf_some filled]
  simp only [fastCommand, parsePublishPayload, subjectLen, replyLen]
  rw [if_neg (by omega), if_neg (by omega), if_neg (by omega), if_neg (by omega), read]
  simp only [Except.map, subjectSlice, slice_to_end, rest]
  split
  · rw [Option.map_some, replySlice]
  · rfl

theorem peeked_frame {maxFrameSize : ℕ} {frame : Frame} (wellFormed : WellFormed maxFrameSize frame)
    (isPub : frame.header.frameType = FrameType.pub.asU8) (rest : Bytes) :
    Peeked (frame.encode ++ rest) maxFrameSize := by
  have announced := announced_frame wellFormed rest
  have length := frame_encode_length frame
  have header := headerIn_frame wellFormed rest
  constructor
  · rw [List.length_append]
    omega
  · rw [announced, length]
    exact wellFormed.fits
  · rw [announced, List.length_append]
    omega
  · rw [← headerIn_magic, header, wellFormed.magic]
  · rw [← headerIn_version, header, wellFormed.version]
  · rw [← headerIn_frameType, header, isPub]

def BothDecode (maxFrameSize : ℕ) (buf : Bytes) (command : PublishCommand) (id : ℕ)
    (rest : Bytes) : Prop :=
  fastDecode buf maxFrameSize = (.ok (some (command, id)), rest) ∧
    genericDecode buf maxFrameSize = (.ok (some (command, id)), rest)

theorem bothDecode_frame {maxFrameSize : ℕ} {frame : Frame}
    (wellFormed : WellFormed maxFrameSize frame)
    (isPub : frame.header.frameType = FrameType.pub.asU8) {command : PublishCommand}
    (read : fastCommand frame.headers frame.payload = .ok command) (rest : Bytes) :
    BothDecode maxFrameSize (frame.encode ++ rest) command frame.header.correlationId rest := by
  have peeked := peeked_frame wellFormed isPub rest
  obtain ⟨headers, payload⟩ := sections_frame wellFormed rest
  have left : (frame.encode ++ rest).drop (Frame.announced (frame.encode ++ rest)) = rest := by
    rw [announced_frame wellFormed, List.drop_left]
  have id : beAt (frame.encode ++ rest) 6 8 = frame.header.correlationId := by
    rw [← headerIn_correlationId, headerIn_frame wellFormed]
  have uncut : ¬ReplyCut frame.payload := by
    intro cut
    obtain ⟨e, failed⟩ := fastCommand_cut cut frame.headers
    rw [failed] at read
    cases read
  constructor
  · rw [fastDecode_peeked peeked, headers, payload, read, left, id]
    rfl
  · rw [genericDecode_peeked peeked, headers, payload, publishFromFrame_eq uncut, read, left, id]
    rfl

theorem fastDecode_left {buf rest : Bytes} {maxFrameSize : ℕ} {found : PublishCommand × ℕ}
    (decoded : fastDecode buf maxFrameSize = (.ok (some found), rest)) :
    Frame.announced buf ≤ buf.length ∧ rest = buf.drop (Frame.announced buf) := by
  cases peek : peekPubFrameLayout buf maxFrameSize with
  | error e =>
    rw [fastDecode, peek] at decoded
    cases decoded
  | ok layout =>
    cases layout with
    | none =>
      rw [fastDecode, peek] at decoded
      cases decoded
    | some layout =>
      have peeked := (peekPubFrameLayout_some.mp peek).1
      rw [fastDecode_peeked peeked, Prod.mk.injEq] at decoded
      exact ⟨peeked.whole, decoded.2.symm⟩

theorem publishWithReply_sized :
    Sized (publishWithReply order subject replyTo payload headers).header := by
  rw [publishWithReply_header]
  exact ⟨show zetmqMagic < 2 ^ 16 by decide, show 0 < 2 ^ 16 by decide,
    show 0 < 2 ^ 64 by decide, Nat.mod_lt _ (by decide), Nat.mod_lt _ (by decide)⟩

theorem publishWithReply_length :
    (publishWithReply order subject replyTo payload headers).encode.length = frameHeaderSize +
      (headersSection order headers).length + (pubPayload subject replyTo payload).length := by
  rw [frame_encode_length, publishWithReply_sections.1, publishWithReply_sections.2]

theorem publishWithReply_announced (rest : Bytes) :
    Frame.announced ((publishWithReply order subject replyTo payload headers).encode ++ rest) =
      frameHeaderSize + (headersSection order headers).length % 2 ^ 32 +
        (pubPayload subject replyTo payload).length % 2 ^ 32 := by
  rw [Frame.announced, ← headerIn_headerLen, ← headerIn_payloadLen, Frame.encode,
    List.append_assoc, List.append_assoc, headerIn_encode publishWithReply_sized,
    publishWithReply_header]

theorem sections_short {maxFrameSize : ℕ} {rest : Bytes} {found : PublishCommand × ℕ}
    (decoded : fastDecode ((publishWithReply order subject replyTo payload headers).encode ++ rest)
      maxFrameSize = (.ok (some found), rest)) :
    (headersSection order headers).length < 2 ^ 32 ∧
      (pubPayload subject replyTo payload).length < 2 ^ 32 := by
  obtain ⟨inside, left⟩ := fastDecode_left decoded
  have size := congrArg List.length left
  rw [List.length_drop, publishWithReply_announced, List.length_append,
    publishWithReply_length] at size
  rw [publishWithReply_announced, List.length_append, publishWithReply_length] at inside
  generalize (headersSection order headers).length = m at *
  generalize (pubPayload subject replyTo payload).length = n at *
  have := Nat.mod_lt m (show 0 < 2 ^ 32 by decide)
  have := Nat.mod_lt n (show 0 < 2 ^ 32 by decide)
  have := Nat.mod_le m (2 ^ 32)
  have := Nat.mod_le n (2 ^ 32)
  omega

end

/-- The frame of a publish goes through both decoders unchanged and leaves what follows
it, exactly if its two sections are shorter than 2^32 bytes. -/
theorem pub_round_trip_iff (order : HeaderOrder) (subject : Str) (replyTo : Option Str)
    (payload : Bytes) (headers : Option HeaderMap) (maxFrameSize : ℕ) (rest : Bytes)
    (subjectFits : utf8Len subject ≤ 65535)
    (replyFits : ∀ reply ∈ replyTo, reply ≠ [] ∧ utf8Len reply ≤ 65535)
    (headersFit : ∀ map ∈ headers, Fits map)
    (fits : (publishWithReply order subject replyTo payload headers).encode.length ≤
      maxFrameSize) :
    (∃ decoded, Option.Rel SameMap headers decoded ∧
      BothDecode maxFrameSize
        ((publishWithReply order subject replyTo payload headers).encode ++ rest)
        ⟨encode subject, payload, replyTo.map encode, decoded⟩ 0 rest) ↔
      (headersSection order headers).length < 2 ^ 32 ∧
        (pubPayload subject replyTo payload).length < 2 ^ 32 := by
  constructor
  · rintro ⟨decoded, -, fast, -⟩
    exact sections_short fast
  · rintro ⟨headersShort, payloadShort⟩
    obtain ⟨decoded, read, same⟩ := headersFromFrame_section headersFit order
    have header := @publishWithReply_header order subject replyTo payload headers
    obtain ⟨headersEq, payloadEq⟩ :=
      @publishWithReply_sections order subject replyTo payload headers
    have wellFormed : WellFormed maxFrameSize
        (publishWithReply order subject replyTo payload headers) :=
      { magic := by rw [header]; rfl
        version := by rw [header]; rfl
        sized := publishWithReply_sized
        headerLen := by rw [header, headersEq]; exact Nat.mod_eq_of_lt headersShort
        payloadLen := by rw [header, payloadEq]; exact Nat.mod_eq_of_lt payloadShort
        fits := by rwa [← frame_encode_length] }
    have command := @fastCommand_pubPayload subject replyTo payload subjectFits
      (fun reply member => (replyFits reply member).1)
      (fun reply member => (replyFits reply member).2) _ decoded read
    rw [← headersEq, ← payloadEq] at command
    have both := bothDecode_frame wellFormed (by rw [header]; rfl) command rest
    rw [header] at both
    exact ⟨decoded, same, both⟩

private theorem emptyMap_fits : Fits ∅ := ⟨by decide, by simp⟩

set_option maxRecDepth 2000 in
theorem plain_pub_round_trip :
    ∃ decoded, Option.Rel SameMap (some ∅) decoded ∧
      BothDecode 64
        ((publishWithReply (.stored _ _) ['a'] (some ['b']) [1, 2] (some ∅)).encode ++ [9])
        ⟨[0x61], [1, 2], some [0x62], decoded⟩ 0 [9] :=
  (pub_round_trip_iff (.stored _ _) ['a'] (some ['b']) [1, 2] (some ∅) 64 [9] (by decide)
    (by simpa using (by decide : utf8Len ['b'] ≤ 65535)) (by simpa using emptyMap_fits)
    (by decide)).mpr (by decide)

private def hugePayload : Bytes := List.replicate (2 ^ 32) 0

/-- A publish whose payload alone has 2^32 bytes announces a section of 5 bytes. -/
theorem huge_publish_is_cut :
    (publishWithReply (.stored _ _) ['a'] none hugePayload none).encode.length = 2 ^ 32 + 27 ∧
    (publishWithReply (.stored _ _) ['a'] none hugePayload none).header.payloadLen = 5 ∧
    ¬BothDecode (2 ^ 33) (publishWithReply (.stored _ _) ['a'] none hugePayload none).encode
      ⟨[0x61], hugePayload, none, none⟩ 0 [] := by
  have payload : (pubPayload ['a'] none hugePayload).length = 2 ^ 32 + 5 := by
    have front : (encode ['a']).length = 1 := rfl
    rw [pubPayload, List.length_append, hugePayload, List.length_replicate]
    simp [replyText, toBe_length, front, Nat.add_comm]
  have total := @publishWithReply_length (.stored _ _) ['a'] none hugePayload none
  have header := @publishWithReply_header (.stored _ _) ['a'] none hugePayload none
  rw [payload] at total header
  rw [headersSection, List.length_nil, frameHeaderSize] at total
  refine ⟨total, congrArg FrameHeader.payloadLen header, not_and.mpr ?_⟩
  intro fast
  rw [← List.append_nil (Frame.encode _)] at fast
  have short := (sections_short fast).2
  rw [payload] at short
  exact absurd short (by decide)

end ZetMQ.PubRoundTrip
