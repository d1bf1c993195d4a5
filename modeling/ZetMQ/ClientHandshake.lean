import Mathlib.Data.List.DropRight
import ZetMQ.FrameReceiver

/-! How a client opens a connection. The handshake decodes at most one frame per read
until it finds `CONNACK`, and leaves what its buffer holds behind; the read task starts
with a buffer of its own. -/
namespace ZetMQ.ClientHandshake
open Utf8Text ByteBuffer Frames FrameCodec FrameReceiver

inductive ClientError where
  | connectionFailed (message : Str)
  | disconnected
  | protocol (e : ProtocolError)
  | io
  | timeout
  | subscriptionClosed
  | server (message : Str)
deriving DecidableEq

/-- What one read of the socket brings; no bytes at all at the end of the stream. -/
inductive Read where
  | bytes (chunk : Bytes)
  | failed
deriving DecidableEq

inductive Handshake where
  | waiting
  | failed (e : ClientError)
  | accepted (unread : List Read)
deriving DecidableEq

def handshake (maxFrameSize : ℕ) : Bytes → List Read → Handshake
  | _, [] => .waiting
  | _, .failed :: _ => .failed .io
  | buf, .bytes chunk :: reads =>
    if chunk = [] then .failed (.connectionFailed "connection closed before CONNACK".toList)
    else match Frame.decodeFrom (buf ++ chunk) maxFrameSize with
      | (.ok (some frame), buf) =>
        match FrameType.fromU8 frame.header.frameType with
        | .error e => .failed (.protocol e)
        | .ok .connack => .accepted reads
        | .ok .error => .failed (.server (fromUtf8Lossy frame.payload))
        | .ok _ => handshake maxFrameSize buf reads
      | (.ok none, buf) => handshake maxFrameSize buf reads
      | (.error e, _) => .failed (.protocol e)

def readTaskLimit : ℕ := 2 * 1024 * 1024

/-- The frames that the read task takes off its buffer. A decoding error only ends the
loop over the frames of one read. -/
def readTask : Bytes → List Read → List Frame
  | _, [] => []
  | _, .failed :: _ => []
  | buf, .bytes chunk :: reads =>
    if chunk = [] then []
    else
      let (frames, _, buf) := decodeAll readTaskLimit (buf ++ chunk)
      frames ++ readTask buf reads

def size (frames : List Frame) : ℕ := (encodings frames).flatten.length

@[simp] theorem size_nil : size [] = 0 := rfl

@[simp] theorem size_cons (frame : Frame) (frames : List Frame) :
    size (frame :: frames) = frame.encode.length + size frames := by
  simp [size, encodings]

theorem size_append (first rest : List Frame) : size (first ++ rest) = size first + size rest := by
  simp [size, encodings]

theorem length_decodeFrom_le (buf : Bytes) (maxFrameSize : ℕ) :
    (Frame.decodeFrom buf maxFrameSize).2.length ≤ buf.length := by
  have dropped : (buf.drop (Frame.announced buf)).length ≤ buf.length := by simp
  unfold Frame.decodeFrom
  dsimp only
  generalize (if 0 < beAt buf 14 4 then _ else _ : Bytes) = headers
  generalize (if 0 < beAt buf 18 4 then _ else _ : Bytes) = payload
  split_ifs
  · exact le_rfl
  · exact le_rfl
  · exact le_rfl
  · cases FrameHeader.decode (slice (buf.take (Frame.announced buf)) 0 frameHeaderSize) <;>
      exact dropped

theorem size_decodeLoop {maxFrameSize turns : ℕ} {buf left : Bytes} {frames : List Frame}
    {stop : Stop} (looped : decodeLoop maxFrameSize turns buf = (frames, stop, left)) :
    size frames + left.length ≤ buf.length := by
  induction turns generalizing buf frames with
  | zero =>
    cases looped
    simp
  | succ turns ih =>
    have shrunk := length_decodeFrom_le buf maxFrameSize
    rw [decodeLoop] at looped
    cases decoded : Frame.decodeFrom buf maxFrameSize with
    | mk result rest =>
      rw [decoded] at looped shrunk
      cases result with
      | error e =>
        cases looped
        simpa using shrunk
      | ok found =>
        cases found with
        | none =>
          cases looped
          simpa using shrunk
        | some frame =>
          have whole := congrArg List.length (encode_decoded decoded)
          rcases later : decodeLoop maxFrameSize turns rest with ⟨more, stop', left'⟩
          simp only [later] at looped
          cases looped
          have fewer := ih later
          rw [List.length_append] at whole
          rw [size_cons]
          omega

theorem size_readTask (buf : Bytes) (reads : List Bytes) :
    size (readTask buf (reads.map .bytes)) ≤ buf.length + reads.flatten.length := by
  induction reads generalizing buf with
  | nil => simp [readTask]
  | cons chunk reads ih =>
    rw [List.map_cons, readTask]
    split_ifs
    · simp
    · rcases looped : decodeAll readTaskLimit (buf ++ chunk) with ⟨frames, stop, left⟩
      have now := size_decodeLoop looped
      have later := ih left
      rw [List.length_append] at now
      rw [List.flatten_cons, List.length_append, size_append]
      omega

theorem readTask_of_receiveAll {buf rest : Bytes} {chunks : List Bytes} {frames : List Frame}
    (filled : ∀ chunk ∈ chunks, chunk ≠ [])
    (received : receiveAll readTaskLimit buf chunks = (frames, .waiting, rest)) :
    readTask buf (chunks.map .bytes) = frames := by
  induction chunks generalizing buf frames with
  | nil =>
    cases received
    rfl
  | cons chunk chunks ih =>
    rw [receiveAll] at received
    rw [List.map_cons, readTask, if_neg (filled chunk (List.mem_cons_self ..))]
    rcases looped : decodeAll readTaskLimit (buf ++ chunk) with ⟨now, stop, left⟩
    rw [looped] at received
    cases stop with
    | waiting =>
      rcases later : receiveAll readTaskLimit left chunks with ⟨more, stop, left'⟩
      simp only [later] at received
      cases received
      have rest := ih (fun other member => filled other (List.mem_cons_of_mem _ member)) later
      simp only [rest]
    | failed e => cases received
    | outOfTurns => cases received

theorem readTask_encodings {chunks : List Bytes} {frames : List Frame}
    (filled : ∀ chunk ∈ chunks, chunk ≠ [])
    (wellFormed : ∀ frame ∈ frames, WellFormed readTaskLimit frame)
    (cut : chunks.flatten = (encodings frames).flatten) :
    readTask [] (chunks.map .bytes) = frames :=
  readTask_of_receiveAll filled (receiveAll_due wellFormed (awaits_encodings frames) cut)

section Steps
variable {maxFrameSize : ℕ} {buf chunk : Bytes} (filled : chunk ≠ []) (reads : List Read)

include filled

theorem handshake_waits
    (waits : Frame.decodeFrom (buf ++ chunk) maxFrameSize = (.ok none, buf ++ chunk)) :
    handshake maxFrameSize buf (.bytes chunk :: reads) =
      handshake maxFrameSize (buf ++ chunk) reads := by
  rw [handshake, if_neg filled, waits]

variable {frame : Frame} {left : Bytes} (wellFormed : WellFormed maxFrameSize frame)
  (arrived : buf ++ chunk = frame.encode ++ left)

include wellFormed arrived

theorem handshake_accepts (kind : FrameType.fromU8 frame.header.frameType = .ok .connack) :
    handshake maxFrameSize buf (.bytes chunk :: reads) = .accepted reads := by
  rw [handshake, if_neg filled, arrived, decodeFrom_encode wellFormed]
  simp only [kind]

theorem handshake_unknown {e : ProtocolError}
    (kind : FrameType.fromU8 frame.header.frameType = .error e) :
    handshake maxFrameSize buf (.bytes chunk :: reads) = .failed (.protocol e) := by
  rw [handshake, if_neg filled, arrived, decodeFrom_encode wellFormed]
  simp only [kind]

theorem handshake_passes {kind : FrameType}
    (known : FrameType.fromU8 frame.header.frameType = .ok kind)
    (ack : kind ≠ .connack) (error : kind ≠ .error) :
    handshake maxFrameSize buf (.bytes chunk :: reads) = handshake maxFrameSize left reads := by
  rw [handshake, if_neg filled, arrived, decodeFrom_encode wellFormed]
  simp only [known]

end Steps

theorem handshake_connack {maxFrameSize : ℕ} {frame : Frame}
    (wellFormed : WellFormed maxFrameSize frame)
    (kind : FrameType.fromU8 frame.header.frameType = .ok .connack) {buf : Bytes}
    {opening : List Bytes} (filled : ∀ chunk ∈ opening, chunk ≠ [])
    (arrived : buf ++ opening.flatten = frame.encode)
    (short : buf.length < frame.encode.length) (reads : List Read) :
    handshake maxFrameSize buf (opening.map .bytes ++ reads) = .accepted reads := by
  induction opening generalizing buf with
  | nil =>
    rw [List.flatten_nil, List.append_nil] at arrived
    exact absurd (congrArg List.length arrived) short.ne
  | cons chunk opening ih =>
    have some := filled chunk (List.mem_cons_self ..)
    have rest := fun other member => filled other (List.mem_cons_of_mem _ member)
    rw [List.flatten_cons, ← List.append_assoc] at arrived
    by_cases whole : opening = []
    · subst whole
      rw [List.flatten_nil] at arrived
      exact handshake_accepts some reads wellFormed
        ((List.append_nil _).symm.trans (arrived.trans (List.append_nil _).symm)) kind
    · have part : (buf ++ chunk).length < frame.encode.length := by
        obtain ⟨other, listed⟩ := List.exists_mem_of_ne_nil opening whole
        have more := List.length_pos_iff.mpr (rest other listed)
        have within := (List.sublist_flatten_of_mem listed).length_le
        have total := congrArg List.length arrived
        rw [List.length_append] at total
        omega
      rw [List.map_cons, List.cons_append, handshake_waits some _
        (decodeFrom_encode_part wellFormed ⟨_, arrived⟩ part)]
      exact ih rest arrived part

theorem accepted_shorter {maxFrameSize : ℕ} {buf : Bytes} {reads unread : List Read}
    (accepted : handshake maxFrameSize buf reads = .accepted unread) :
    unread.length < reads.length := by
  induction reads generalizing buf with
  | nil => simp [handshake] at accepted
  | cons read reads ih =>
    cases read with
    | failed => simp [handshake] at accepted
    | bytes chunk =>
      rw [handshake] at accepted
      split_ifs at accepted
      cases decoded : Frame.decodeFrom (buf ++ chunk) maxFrameSize with
      | mk result left =>
        rw [decoded] at accepted
        cases result with
        | error e => cases accepted
        | ok found =>
          cases found with
          | none => exact Nat.lt_succ_of_lt (ih accepted)
          | some frame =>
            dsimp only at accepted
            cases known : FrameType.fromU8 frame.header.frameType with
            | error e => simp [known] at accepted
            | ok kind =>
              rw [known] at accepted
              cases kind
              case connack =>
                cases accepted
                exact Nat.lt_succ_self _
              case error => cases accepted
              all_goals exact Nat.lt_succ_of_lt (ih accepted)

end ZetMQ.ClientHandshake
