import ZetMQ.ClientConnection
import ZetMQ.DecoderBounds
import ZetMQ.MsgFrames

/-! The client's decoding of `MSG` frames with its slices checked. The reply is sliced
before its length is held against the payload, so a frame with a reply length past the
end panics the read task. -/
namespace ZetMQ.MsgBounds
open Utf8Text ByteBuffer CheckedReads Frames Commands KeyedTable ClientConnection MsgFrames
open DecoderBounds

def readReply (payload : Bytes) (replyLen offset : ℕ) : Option (Option Bytes × ℕ) :=
  if 0 < replyLen then do
    let reply ← readRange payload offset (offset + replyLen)
    some (some reply, offset + replyLen)
  else some (none, offset)

def decodeMsg (frame : Frame) : Option (Except ProtocolError (ℕ × ClientMessage)) :=
  let payload := frame.payload
  if payload.length < 2 then some (.error (.decodingError "MSG too short".toList))
  else do
    let subjLen ← readBe payload 0 2
    if payload.length < 2 + subjLen + 2 then
      some (.error (.decodingError "MSG subject truncated".toList))
    else do
      let subject ← readRange payload 2 (2 + subjLen)
      let replyLen ← readBe payload (2 + subjLen) 2
      let (replyTo, dataOffset) ← readReply payload replyLen (2 + subjLen + 2)
      if payload.length < dataOffset + 8 then
        some (.error (.decodingError "MSG sub_id truncated".toList))
      else do
        let subId ← readBe payload dataOffset 8
        let msgPayload ← CheckedDecoders.readTail payload (dataOffset + 8)
        match ← CheckedDecoders.headersFromFrame frame.headers with
        | .error e => some (.error e)
        | .ok headers => some (.ok (subId, ⟨subject, replyTo, headers, msgPayload⟩))

def outcome {α : Type} : Except MsgFailure α → Option (Except ProtocolError α)
  | .error .sliceOutOfBounds => none
  | .error (.protocol e) => some (.error e)
  | .ok a => some (.ok a)

theorem readReply_inside {payload : Bytes} {replyLen offset : ℕ}
    (inside : offset + replyLen ≤ payload.length) : readReply payload replyLen offset =
      some (if 0 < replyLen then some (slice payload offset (offset + replyLen)) else none,
        offset + replyLen) := by
  rw [readReply]
  by_cases present : 0 < replyLen
  · rw [if_pos present, if_pos present, readRange_inside (Nat.le_add_right ..) inside]
    rfl
  · rw [if_neg present, if_neg present, Nat.eq_zero_of_not_pos present, Nat.add_zero]

theorem readReply_outside {payload : Bytes} {replyLen offset : ℕ} (present : 0 < replyLen)
    (outside : payload.length < offset + replyLen) : readReply payload replyLen offset = none := by
  rw [readReply, if_pos present, readRange_outside outside]
  rfl

theorem decodeMsg_eq (frame : Frame) : decodeMsg frame = outcome (parseMsg frame) := by
  simp only [decodeMsg, parseMsg, apply_ite outcome]
  refine ite_congr rfl (fun _ => rfl) fun short => ?_
  rw [readBe_inside (by omega)]
  refine ite_congr rfl (fun _ => rfl) fun cut => ?_
  rw [readRange_inside (by omega) (by omega), readBe_inside (by omega)]
  simp only [Option.bind_eq_bind, Option.bind_some]
  by_cases outside : 0 < beAt frame.payload (2 + beAt frame.payload 0 2) 2 ∧
      frame.payload.length <
        2 + beAt frame.payload 0 2 + 2 + beAt frame.payload (2 + beAt frame.payload 0 2) 2
  · rw [if_pos outside, readReply_outside outside.1 outside.2]
    rfl
  · rw [if_neg outside, readReply_inside (by omega), Option.bind_some]
    refine ite_congr rfl (fun _ => rfl) fun noId => ?_
    rw [readBe_inside (Nat.le_of_not_lt noId), readTail_eq, headersFromFrame_eq]
    cases headersFromFrame frame.headers with
    | error e => rfl
    | ok headers => rfl

def ReplyInside (payload : Bytes) : Prop :=
  2 + beAt payload 0 2 + 2 ≤ payload.length →
    2 + beAt payload 0 2 + 2 + beAt payload (2 + beAt payload 0 2) 2 ≤ payload.length

instance (payload : Bytes) : Decidable (ReplyInside payload) :=
  inferInstanceAs (Decidable (_ → _))

theorem parseMsg_outside_iff (frame : Frame) :
    parseMsg frame = .error .sliceOutOfBounds ↔ ¬ReplyInside frame.payload := by
  rw [parseMsg]
  dsimp only
  by_cases short : frame.payload.length < 2
  · rw [if_pos short]
    exact iff_of_false (by simp) (not_not.mpr fun room => by omega)
  rw [if_neg short]
  by_cases cut : frame.payload.length < 2 + beAt frame.payload 0 2 + 2
  · rw [if_pos cut]
    exact iff_of_false (by simp) (not_not.mpr fun room => by omega)
  rw [if_neg cut]
  by_cases outside : 0 < beAt frame.payload (2 + beAt frame.payload 0 2) 2 ∧
      frame.payload.length <
        2 + beAt frame.payload 0 2 + 2 + beAt frame.payload (2 + beAt frame.payload 0 2) 2
  · rw [if_pos outside]
    refine iff_of_true rfl fun inside => ?_
    have covered := inside (Nat.le_of_not_lt cut)
    omega
  · rw [if_neg outside]
    refine iff_of_false ?_ (not_not.mpr fun room => by omega)
    by_cases noId : frame.payload.length < 2 + beAt frame.payload 0 2 + 2 +
        beAt frame.payload (2 + beAt frame.payload 0 2) 2 + 8
    · rw [if_pos noId]
      simp
    · rw [if_neg noId]
      cases headersFromFrame frame.headers <;> simp

theorem outcome_isSome {α : Type} (result : Except MsgFailure α) :
    (outcome result).isSome ↔ ¬result = .error .sliceOutOfBounds := by
  cases result with
  | ok a => simp [outcome]
  | error failure => cases failure <;> simp [outcome]

section
variable {Chan Tx : Type}

/-- All of `dispatch_msg`: the result, the state and the message passed on. -/
def dispatchMsg (closed : Chan → Bool) (st : ConnState Chan Tx) (frame : Frame) :
    Option (Except ProtocolError Unit × ConnState Chan Tx ×
      Option (Effect Chan Tx ClientMessage)) := do
  match ← decodeMsg frame with
  | .error e => some (.error e, st, none)
  | .ok (subId, message) => some (.ok (), st.dispatchMsg closed subId message)

theorem dispatchMsg_isSome (closed : Chan → Bool) (st : ConnState Chan Tx) (frame : Frame) :
    (dispatchMsg closed st frame).isSome = (decodeMsg frame).isSome := by
  rw [dispatchMsg]
  cases decodeMsg frame with
  | none => rfl
  | some result => cases result <;> rfl

/-- Whatever the state of the connection, `dispatch_msg` comes to a result exactly on
payloads that cover the reply they announce. -/
theorem dispatchMsg_in_bounds_iff (closed : Chan → Bool) (st : ConnState Chan Tx) (frame : Frame) :
    (dispatchMsg closed st frame).isSome ↔ ReplyInside frame.payload := by
  rw [dispatchMsg_isSome, decodeMsg_eq, outcome_isSome, parseMsg_outside_iff, not_not]

end

def missingReply : Bytes := ((Frame.new .msg 1).withPayload [0, 0, 0, 1]).encode

set_option maxRecDepth 4000 in
theorem dispatchMsg_panics :
    Frame.decodeFrom missingReply 64 =
      (.ok (some ((Frame.new .msg 1).withPayload [0, 0, 0, 1])), []) ∧
    dispatchMsg (fun _ : ℕ => false) (ConnState.new : ConnState ℕ ℕ)
      ((Frame.new .msg 1).withPayload [0, 0, 0, 1]) = none := by
  refine ⟨by decide, ?_⟩
  rfl

end ZetMQ.MsgBounds
