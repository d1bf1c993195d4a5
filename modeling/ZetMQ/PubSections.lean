import ZetMQ.PubDecoders

/-! The sections of a `PUB` frame that the fast path accepts: where its subject, its
reply and its data lie, and what command they make up. -/
namespace ZetMQ.PubSections
open Utf8Text ByteBuffer Frames FrameCodec Commands PubFastPath PubFrames PubDecoders

/-- The subject and the reply in the payload of a `PUB`. -/
def subjectIn (payload : Bytes) : Bytes := slice payload 2 (2 + beAt payload 0 2)

def replyIn (payload : Bytes) : Bytes :=
  slice payload (2 + beAt payload 0 2 + 2)
    (2 + beAt payload 0 2 + 2 + beAt payload (2 + beAt payload 0 2) 2)

/-- How an accepted payload is divided. -/
structure Divided (payload : Bytes) (command : PublishCommand) : Prop where
  subject : command.subject = subjectIn payload
  reply : command.replyTo = if 0 < (replyIn payload).length then some (replyIn payload) else none
  length : payload.length =
    2 + (subjectIn payload).length + 2 + (replyIn payload).length + command.payload.length

theorem parsePublishPayload_ok {payload : Bytes} {layout : PublishPayloadLayout}
    (ok : parsePublishPayload payload = .ok layout) :
    let subjectEnd := 2 + beAt payload 0 2
    let replyLen := beAt payload subjectEnd 2
    subjectEnd + 2 + replyLen ≤ payload.length ∧
      layout = ⟨(2, subjectEnd), if 0 < replyLen
        then some (subjectEnd + 2, subjectEnd + 2 + replyLen) else none,
        (subjectEnd + 2 + replyLen, payload.length)⟩ := by
  unfold parsePublishPayload at ok
  dsimp only at ok
  by_cases short : payload.length < 2
  · rw [if_pos short] at ok
    cases ok
  by_cases subject : payload.length < 2 + beAt payload 0 2
  · rw [if_neg short, if_pos subject] at ok
    cases ok
  by_cases missing : payload.length < 2 + beAt payload 0 2 + 2
  · rw [if_neg short, if_neg subject, if_pos missing] at ok
    cases ok
  by_cases cut : payload.length < 2 + beAt payload 0 2 + 2 + beAt payload (2 + beAt payload 0 2) 2
  · rw [if_neg short, if_neg subject, if_neg missing, if_pos cut] at ok
    cases ok
  rw [if_neg short, if_neg subject, if_neg missing, if_neg cut] at ok
  exact ⟨Nat.le_of_not_lt cut, (Except.ok.inj ok).symm⟩

variable {command : PublishCommand} {maxFrameSize : ℕ} {frame : Bytes}

theorem divided_of_fastCommand {headers payload : Bytes}
    (ok : fastCommand headers payload = .ok command) :
    headersFromFrame headers = .ok command.headers ∧ Divided payload command := by
  unfold fastCommand at ok
  cases parsed : parsePublishPayload payload with
  | error e =>
    rw [parsed] at ok
    cases ok
  | ok layout =>
    obtain ⟨whole, rfl⟩ := parsePublishPayload_ok parsed
    rw [parsed] at ok
    cases decoded : headersFromFrame headers with
    | error e =>
      rw [decoded] at ok
      cases ok
    | ok map =>
      rw [decoded] at ok
      obtain rfl := Except.ok.inj ok
      have subjectLength := @slice_length payload (2 + beAt payload 0 2) (by omega) 2
      have replyLength := slice_length whole (2 + beAt payload 0 2 + 2)
      refine ⟨rfl, rfl, ?_, ?_⟩
      · rw [replyIn, replyLength, Nat.add_sub_cancel_left]
        dsimp only
        split <;> rfl
      · dsimp only
        rw [subjectIn, replyIn, subjectLength, replyLength, slice_to_end, List.length_drop]
        omega

theorem commandIn_whole (whole : Whole maxFrameSize frame) :
    commandIn maxFrameSize frame =
      (fastCommand (headersIn frame) (payloadIn frame)).toOption := by
  have peek := whole.peekLayout []
  have decoded := decodePublishCommandFromBuf_eq frame
  rw [List.append_nil] at peek
  rw [whole.exactly, List.drop_length] at decoded
  rw [commandIn, peek]
  dsimp only
  rw [decoded]
  cases fastCommand (headersIn frame) (payloadIn frame) with
  | error e => rfl
  | ok command => rfl

theorem fastCommand_of_commandIn (found : commandIn maxFrameSize frame = some command) :
    fastCommand (headersIn frame) (payloadIn frame) = .ok command := by
  rw [commandIn_whole (whole_of_commandIn found)] at found
  cases result : fastCommand (headersIn frame) (payloadIn frame) with
  | error e =>
    rw [result] at found
    cases found
  | ok other =>
    rw [result] at found
    rw [Option.some.inj found]

theorem accepted_parts (accepted : commandIn maxFrameSize frame = some command) :
    headersFromFrame (headersIn frame) = .ok command.headers ∧
      Divided (payloadIn frame) command ∧
      frame.length = frameHeaderSize + (headersIn frame).length + (payloadIn frame).length := by
  have framed := whole_of_commandIn accepted
  obtain ⟨headers, divided⟩ := divided_of_fastCommand (fastCommand_of_commandIn accepted)
  refine ⟨headers, divided, ?_⟩
  have announced : Frame.announced frame =
      frameHeaderSize + beAt frame 14 4 + beAt frame 18 4 := rfl
  have exactly := framed.exactly
  rw [headersIn, payloadIn, exactly, List.take_length, slice_length (by omega),
    slice_length (by omega)]
  omega

end ZetMQ.PubSections
