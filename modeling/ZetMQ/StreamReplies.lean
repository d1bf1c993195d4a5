import ZetMQ.AgeLimit
import ZetMQ.CommandCodec
import ZetMQ.StreamStore
import ZetMQ.Utf8Cut

/-! The reply to a `CREATE_STREAM` request. The name comes from the wire with its
malformed sequences replaced, which can make it longer than the byte in front of it
can say when it is sent back. -/
namespace ZetMQ.StreamReplies
open Utf8Text Utf8Codec Utf8Cut ByteBuffer Frames KeyedTable Commands CommandCodec
open Streams StreamStore AgeLimit

def responseOf (info : StreamInfo) : StreamInfoResponse where
  name := info.name
  messages := info.state.messages
  bytes := info.state.bytes
  firstSeq := info.state.firstSeq
  lastSeq := info.state.lastSeq
  maxMsgs := info.config.maxMsgs
  maxBytes := info.config.maxBytes
  maxAgeSecs := info.config.maxAgeSecs

/-- The frame that the task of a `CREATE_STREAM` request sends, and the store after it. -/
def createStreamReply (store : MemoryStore) (cmd : CreateStreamCommand) : Frame × MemoryStore :=
  match store.createStream cmd.name (configOf cmd) with
  | (.ok info, store) =>
    ((Frame.new .streamInfo 0).withPayload (responseOf info).encodePayload, store)
  | (.error e, store) =>
    ((Frame.new .error 0).withPayload (encode ("create stream error: ".toList ++ e.display)), store)

def created (cmd : CreateStreamCommand) : StreamInfoResponse :=
  ⟨cmd.name, 0, 0, 1, 0, cmd.maxMsgs, cmd.maxBytes, cmd.maxAgeSecs⟩

theorem createStreamReply_ok {store store' : MemoryStore} {cmd : CreateStreamCommand}
    {info : StreamInfo} (made : store.createStream cmd.name (configOf cmd) = (.ok info, store')) :
    (createStreamReply store cmd).1.payload = (created cmd).encodePayload := by
  have here : info = (Stream.new cmd.name (configOf cmd)).info := by
    rw [MemoryStore.createStream] at made
    cases found : store.streams.lookup cmd.name with
    | some stream => simp [found] at made
    | none =>
      simp only [found, Prod.mk.injEq, Except.ok.injEq] at made
      exact made.1.symm
  rw [createStreamReply, made, here]
  rfl

theorem decode_numbers {payload : Bytes} {cmd : CreateStreamCommand}
    (decoded : CreateStreamCommand.decode payload = .ok cmd) :
    cmd.maxMsgs < 2 ^ 64 ∧ cmd.maxBytes < 2 ^ 64 ∧ cmd.maxAgeSecs < 2 ^ 64 := by
  rw [CreateStreamCommand.decode] at decoded
  cases named : decodeNamed payload 24 with
  | error e => simp [named, Except.map] at decoded
  | ok parts =>
    rw [named] at decoded
    cases decoded
    exact ⟨beAt_lt .., beAt_lt .., beAt_lt ..⟩

theorem decode_created_name {cmd : CreateStreamCommand} {info : StreamInfoResponse}
    (decoded : StreamInfoResponse.decode (created cmd).encodePayload = .ok info) :
    info.name = fromUtf8Lossy ((encode cmd.name).take (utf8Len cmd.name % 256)) := by
  have length : 56 ≤ (words (infoValues (created cmd))).length := by
    rw [words_length]
    rfl
  rw [StreamInfoResponse.decode, info_encodePayload, decodeNamed_encodeName _ length] at decoded
  cases decoded
  rfl

/-- The reply to a request that was accepted describes the created stream exactly if
the decoded name has at most 255 bytes. -/
theorem reply_describes_stream_iff (payload : Bytes) (cmd : CreateStreamCommand)
    (accepted : CreateStreamCommand.decode payload = .ok cmd) (store store' : MemoryStore)
    (info : StreamInfo) (made : store.createStream cmd.name (configOf cmd) = (.ok info, store')) :
    StreamInfoResponse.decode (createStreamReply store cmd).1.payload =
        .ok ⟨cmd.name, 0, 0, 1, 0, cmd.maxMsgs, cmd.maxBytes, cmd.maxAgeSecs⟩ ↔
      utf8Len cmd.name ≤ 255 := by
  rw [createStreamReply_ok made]
  constructor
  · intro decoded
    by_contra long
    have cut : utf8Len cmd.name % 256 + 12 < utf8Len cmd.name := by omega
    exact fromUtf8Lossy_cut_ne cut (decode_created_name decoded).symm
  · intro short
    obtain ⟨msgs, bytes, age⟩ := decode_numbers accepted
    have fits : InfoFits (created cmd) := by
      refine ⟨short, ?_⟩
      simp only [infoValues, created, List.forall_mem_cons]
      exact ⟨by decide, by decide, by decide, by decide, msgs, bytes, age, by simp⟩
    have back := streamInfo_codec.inverts (created cmd) fits []
    rwa [List.append_nil] at back

private def malformedName : Bytes := 86 :: List.replicate 86 0xff ++ List.replicate 24 0

set_option maxRecDepth 4000 in
theorem malformed_name_is_cut :
    CreateStreamCommand.decode malformedName = .ok ⟨List.replicate 86 '�', 0, 0, 0⟩ ∧
    (MemoryStore.new.createStream (List.replicate 86 '�') ⟨0, 0, 0⟩).1.isOk ∧
    (StreamInfoResponse.decode
      (createStreamReply .new ⟨List.replicate 86 '�', 0, 0, 0⟩).1.payload).map (·.name) =
        .ok ['�'] := by
  decide +kernel

theorem plain_name_is_described :
    StreamInfoResponse.decode (createStreamReply .new ⟨['s'], 5, 0, 0⟩).1.payload =
      .ok ⟨['s'], 0, 0, 1, 0, 5, 0, 0⟩ :=
  (reply_describes_stream_iff ([1, 0x73] ++ words [5, 0, 0]) ⟨['s'], 5, 0, 0⟩ (by decide) .new _ _
    rfl).mpr (by decide)

end ZetMQ.StreamReplies
