import ZetMQ.ClientHandshake

/-! Which frames survive the handshake. The frames in front of `CONNACK` are decoded one
per read, and what was read behind it is lost with the buffer. -/
namespace ZetMQ.HandshakeLoss
open Utf8Text ByteBuffer Frames FrameCodec FrameReceiver ClientHandshake

/-- The connection is accepted at the read that completes `CONNACK`, and the read task
gets the frames behind it. -/
def NothingLost (maxFrameSize : ℕ) (front : List Frame) (connack : Frame) (behind : List Frame)
    (reads : List Bytes) : Prop :=
  ∃ before last rest, reads = before ++ last :: rest ∧
    before.flatten.length < size (front ++ [connack]) ∧
    size (front ++ [connack]) ≤ (before ++ [last]).flatten.length ∧
    handshake maxFrameSize [] (reads.map .bytes) = .accepted (rest.map .bytes) ∧
    readTask [] (rest.map .bytes) = behind

def Known (frame : Frame) : Prop := (FrameType.fromU8 frame.header.frameType).isOk = true

def Paced (buf : Bytes) (frames : List Frame) (reads : List Bytes) : Prop :=
  frames.length ≤ reads.length ∧ ∀ k < frames.length,
    size (frames.rdrop k) ≤ buf.length + (reads.rdrop k).flatten.length

def Aligned (front : List Frame) (connack : Frame) (reads : List Bytes) : Prop :=
  (∀ frame ∈ front, Known frame) ∧ ∃ before last rest, reads = before ++ last :: rest ∧
    (before ++ [last]).flatten = (encodings (front ++ [connack])).flatten ∧ Paced [] front before

theorem rdrop_cons {α : Type} (a : α) {l : List α} {k : ℕ} (short : k ≤ l.length) :
    (a :: l).rdrop k = a :: l.rdrop k := by
  rw [List.rdrop, List.rdrop, List.length_cons, Nat.succ_sub short, List.take_succ_cons]

theorem rdrop_all {α : Type} {l : List α} {k : ℕ} (all : l.length ≤ k) : l.rdrop k = [] := by
  rw [List.rdrop, Nat.sub_eq_zero_of_le all, List.take_zero]

theorem paced_nil (buf : Bytes) (reads : List Bytes) : Paced buf [] reads :=
  ⟨Nat.zero_le _, fun _ small => absurd small (Nat.not_lt_zero _)⟩

theorem paced_taken {buf chunk left : Bytes} {frame : Frame} {frames : List Frame}
    {reads : List Bytes} (arrived : buf ++ chunk = frame.encode ++ left) :
    Paced buf (frame :: frames) (chunk :: reads) ↔ Paced left frames reads := by
  have bytes := congrArg List.length arrived
  rw [List.length_append, List.length_append] at bytes
  simp only [Paced, List.length_cons, Nat.add_le_add_iff_right]
  refine and_congr_right fun enough => ⟨fun paced k small => ?_, fun paced k small => ?_⟩
  · have now := paced k (Nat.lt_succ_of_lt small)
    rw [rdrop_cons frame small.le, rdrop_cons chunk (small.le.trans enough), size_cons,
      List.flatten_cons, List.length_append] at now
    omega
  · have inside : k ≤ frames.length := Nat.le_of_lt_succ small
    rw [rdrop_cons frame inside, rdrop_cons chunk (inside.trans enough), size_cons,
      List.flatten_cons, List.length_append]
    by_cases last : k = frames.length
    · rw [last, rdrop_all le_rfl, size_nil]
      omega
    · have later := paced k (by omega)
      omega

theorem paced_waited {buf chunk : Bytes} {frame : Frame} {frames : List Frame}
    {reads : List Bytes} (short : (buf ++ chunk).length < frame.encode.length) :
    Paced buf (frame :: frames) (chunk :: reads) ↔
      Paced (buf ++ chunk) (frame :: frames) reads := by
  rw [List.length_append] at short
  simp only [Paced, List.length_cons, List.length_append]
  constructor
  · rintro ⟨enough, paced⟩
    have more : frames.length + 1 ≤ reads.length := by
      by_contra few
      have same : frames.length = reads.length := by omega
      have first := paced frames.length (Nat.lt_succ_self _)
      rw [rdrop_cons frame le_rfl, rdrop_cons chunk same.le, rdrop_all same.ge,
        rdrop_all le_rfl, size_cons, size_nil, List.flatten_cons, List.length_append,
        List.flatten_nil, List.length_nil] at first
      omega
    refine ⟨more, fun k small => ?_⟩
    have now := paced k small
    rw [rdrop_cons chunk (by omega), List.flatten_cons, List.length_append] at now
    omega
  · rintro ⟨enough, paced⟩
    refine ⟨by omega, fun k small => ?_⟩
    have now := paced k small
    rw [rdrop_cons chunk (by omega), List.flatten_cons, List.length_append]
    omega

theorem arrived_cases {buf more tail : Bytes} {frame : Frame}
    (joined : buf ++ more = frame.encode ++ tail) :
    (∃ left, buf = frame.encode ++ left ∧ left ++ more = tail) ∨
      buf <+: frame.encode ∧ buf.length < frame.encode.length := by
  obtain ⟨missing, whole, -⟩ | ⟨left, arrived, rest⟩ := List.append_eq_append_iff.mp joined
  · cases missing with
    | nil =>
      rw [List.append_nil] at whole
      rw [whole] at joined
      exact .inl ⟨[], by rw [whole, List.append_nil], by simpa using joined⟩
    | cons byte missing =>
      refine .inr ⟨⟨byte :: missing, whole.symm⟩, ?_⟩
      rw [whole, List.length_append, List.length_cons]
      omega
  · exact .inl ⟨left, arrived, rest.symm⟩

structure Incoming (maxFrameSize : ℕ) (front : List Frame) (connack : Frame) (buf : Bytes)
    (reads : List Bytes) (tail : Bytes) : Prop where
  wellFormed : ∀ frame ∈ front ++ [connack], WellFormed maxFrameSize frame
  ack : FrameType.fromU8 connack.header.frameType = .ok .connack
  others : ∀ frame ∈ front, FrameType.fromU8 frame.header.frameType ≠ .ok .connack ∧
    FrameType.fromU8 frame.header.frameType ≠ .ok .error
  filled : ∀ chunk ∈ reads, chunk ≠ []
  joined : buf ++ reads.flatten = (encodings (front ++ [connack])).flatten ++ tail

namespace Incoming

variable {maxFrameSize : ℕ} {front : List Frame} {connack frame : Frame} {buf chunk tail : Bytes}
  {reads : List Bytes}

theorem wait (h : Incoming maxFrameSize front connack buf (chunk :: reads) tail) :
    Incoming maxFrameSize front connack (buf ++ chunk) reads tail where
  wellFormed := h.wellFormed
  ack := h.ack
  others := h.others
  filled other member := h.filled other (List.mem_cons_of_mem _ member)
  joined := by
    rw [List.append_assoc, ← List.flatten_cons]
    exact h.joined

section
variable (h : Incoming maxFrameSize (frame :: front) connack buf (chunk :: reads) tail)
include h

theorem take {left : Bytes} (arrived : buf ++ chunk = frame.encode ++ left) :
    Incoming maxFrameSize front connack left reads tail where
  wellFormed other member := h.wellFormed other (List.mem_cons_of_mem _ member)
  ack := h.ack
  others other member := h.others other (List.mem_cons_of_mem _ member)
  filled other member := h.filled other (List.mem_cons_of_mem _ member)
  joined := by
    have joined := h.joined
    rw [List.flatten_cons, ← List.append_assoc, arrived, encodings, List.cons_append,
      List.map_cons, List.flatten_cons, List.append_assoc, List.append_assoc] at joined
    exact List.append_cancel_left joined

theorem next :
    (∃ left, buf ++ chunk = frame.encode ++ left) ∨
      (buf ++ chunk).length < frame.encode.length ∧
      handshake maxFrameSize buf ((chunk :: reads).map .bytes) =
        handshake maxFrameSize (buf ++ chunk) (reads.map .bytes) := by
  have joined : (buf ++ chunk) ++ reads.flatten =
      frame.encode ++ ((encodings (front ++ [connack])).flatten ++ tail) := by
    rw [h.wait.joined, encodings, List.cons_append, List.map_cons, List.flatten_cons,
      List.append_assoc, encodings]
  obtain ⟨left, arrived, -⟩ | ⟨part, short⟩ := arrived_cases joined
  · exact .inl ⟨left, arrived⟩
  · have waits := decodeFrom_encode_part (h.wellFormed frame (List.mem_cons_self ..)) part short
    exact .inr ⟨short, handshake_waits (h.filled chunk (List.mem_cons_self ..)) _ waits⟩

theorem taken {left : Bytes} (arrived : buf ++ chunk = frame.encode ++ left) (known : Known frame) :
    handshake maxFrameSize buf ((chunk :: reads).map .bytes) =
      handshake maxFrameSize left (reads.map .bytes) := by
  have other := h.others frame (List.mem_cons_self ..)
  rw [Known] at known
  cases kind : FrameType.fromU8 frame.header.frameType with
  | error e => simp [kind, Except.isOk, Except.toBool] at known
  | ok type =>
    rw [kind] at other
    exact handshake_passes (h.filled chunk (List.mem_cons_self ..)) _
      (h.wellFormed frame (List.mem_cons_self ..)) arrived kind (by simpa using other.1)
      (by simpa using other.2)

theorem refused {left : Bytes} (arrived : buf ++ chunk = frame.encode ++ left)
    (unknown : ¬Known frame) :
    ∃ e, handshake maxFrameSize buf ((chunk :: reads).map .bytes) = .failed e := by
  cases kind : FrameType.fromU8 frame.header.frameType with
  | ok type => simp [Known, kind, Except.isOk, Except.toBool] at unknown
  | error e =>
    exact ⟨_, handshake_unknown (h.filled chunk (List.mem_cons_self ..)) _
      (h.wellFormed frame (List.mem_cons_self ..)) arrived kind⟩

end

theorem ack_next (h : Incoming maxFrameSize [] connack buf (chunk :: reads) tail) :
    handshake maxFrameSize buf ((chunk :: reads).map .bytes) =
      if (buf ++ chunk).length < connack.encode.length
      then handshake maxFrameSize (buf ++ chunk) (reads.map .bytes)
      else .accepted (reads.map .bytes) := by
  have filled := h.filled chunk (List.mem_cons_self ..)
  have wellFormed := h.wellFormed connack (List.mem_singleton_self _)
  have joined := h.wait.joined
  rw [encodings, List.nil_append, List.map_singleton, List.flatten_singleton] at joined
  obtain ⟨left, arrived, -⟩ | ⟨part, short⟩ := arrived_cases joined
  · rw [if_neg (by rw [arrived, List.length_append]; omega)]
    exact handshake_accepts filled _ wellFormed arrived h.ack
  · rw [if_pos short]
    exact handshake_waits filled _ (decodeFrom_encode_part wellFormed part short)

end Incoming

theorem size_single (frame : Frame) : size ([] ++ [frame]) = frame.encode.length := by simp

theorem accepts_iff {maxFrameSize : ℕ} {front : List Frame} {connack : Frame}
    {buf last tail : Bytes} {before rest : List Bytes}
    (h : Incoming maxFrameSize front connack buf (before ++ last :: rest) tail)
    (early : buf.length + before.flatten.length < size (front ++ [connack]))
    (done : size (front ++ [connack]) ≤ buf.length + (before ++ [last]).flatten.length) :
    handshake maxFrameSize buf ((before ++ last :: rest).map .bytes) =
        .accepted (rest.map .bytes) ↔
      (∀ frame ∈ front, Known frame) ∧ Paced buf front before := by
  induction before generalizing buf front with
  | nil =>
    rw [List.nil_append] at h ⊢
    cases front with
    | nil =>
      rw [h.ack_next, if_neg]
      · exact iff_of_true rfl ⟨by simp, paced_nil _ _⟩
      · rw [size_single, List.nil_append, List.flatten_singleton] at done
        rw [List.length_append]
        omega
    | cons frame front =>
      -- a frame is in front, so this read cannot be the one that accepts
      refine iff_of_false (fun accepted => ?_) (fun both => Nat.not_succ_le_zero _ both.2.1)
      have later {left : Bytes}
          (on : handshake maxFrameSize left (rest.map .bytes) = .accepted (rest.map .bytes)) :
          False := Nat.lt_irrefl _ (accepted_shorter on)
      obtain ⟨left, arrived⟩ | ⟨-, waits⟩ := h.next
      · by_cases known : Known frame
        · exact later ((h.taken arrived known).symm.trans accepted)
        · obtain ⟨e, failed⟩ := h.refused arrived known
          rw [failed] at accepted
          cases accepted
      · exact later (waits.symm.trans accepted)
  | cons chunk before ih =>
    rw [List.cons_append] at h ⊢
    rw [List.flatten_cons, List.length_append] at early
    rw [List.cons_append, List.flatten_cons, List.length_append] at done
    cases front with
    | nil =>
      have short : (buf ++ chunk).length < connack.encode.length := by
        rw [size_single] at early
        rw [List.length_append]
        omega
      rw [h.ack_next, if_pos short, ih h.wait (by rw [List.length_append]; omega)
        (by rw [List.length_append]; omega)]
      exact and_congr_right fun _ => iff_of_true (paced_nil _ _) (paced_nil _ _)
    | cons frame front =>
      obtain ⟨left, arrived⟩ | ⟨short, waits⟩ := h.next
      · have bytes := congrArg List.length arrived
        rw [List.length_append, List.length_append] at bytes
        rw [List.cons_append, size_cons] at early done
        rw [paced_taken arrived, List.forall_mem_cons, and_assoc]
        by_cases known : Known frame
        · rw [h.taken arrived known, ih (h.take arrived) (by omega) (by omega), and_iff_right known]
        · obtain ⟨e, failed⟩ := h.refused arrived known
          rw [failed]
          exact iff_of_false (by simp) fun all => known all.1
      · rw [waits, paced_waited short, ih h.wait (by rw [List.length_append]; omega)
          (by rw [List.length_append]; omega)]

/-- A stream of frames up to and behind `CONNACK`, cut into reads: nothing is lost
exactly if the reads are aligned with the frames. -/
theorem handshake_keeps_frames_iff (maxFrameSize : ℕ) (front : List Frame) (connack : Frame)
    (behind : List Frame) (reads : List Bytes)
    (wellFormed : ∀ frame ∈ front ++ [connack], WellFormed maxFrameSize frame)
    (wellFormedBehind : ∀ frame ∈ behind, WellFormed readTaskLimit frame)
    (ack : FrameType.fromU8 connack.header.frameType = .ok .connack)
    (others : ∀ frame ∈ front, FrameType.fromU8 frame.header.frameType ≠ .ok .connack ∧
      FrameType.fromU8 frame.header.frameType ≠ .ok .error)
    (filled : ∀ chunk ∈ reads, chunk ≠ [])
    (cut : reads.flatten = (encodings (front ++ connack :: behind)).flatten) :
    NothingLost maxFrameSize front connack behind reads ↔ Aligned front connack reads := by
  have joined : reads.flatten =
      (encodings (front ++ [connack])).flatten ++ (encodings behind).flatten := by
    rw [cut, encodings, encodings, encodings, ← List.flatten_append, ← List.map_append,
      List.append_assoc, List.singleton_append]
  have incoming : Incoming maxFrameSize front connack [] reads (encodings behind).flatten :=
    ⟨wellFormed, ack, others, filled, joined⟩
  have split (before : List Bytes) (last : Bytes) (rest : List Bytes) :
      (before ++ last :: rest).flatten = (before ++ [last]).flatten ++ rest.flatten := by
    simp
  constructor
  · rintro ⟨before, last, rest, rfl, early, done, accepted, read⟩
    obtain ⟨known, paced⟩ := (accepts_iff incoming (by simpa using early)
      (by simpa using done)).mp accepted
    have kept := size_readTask [] rest
    rw [split] at joined
    have bytes := congrArg List.length joined
    rw [List.length_append, List.length_append, ← size, ← size] at bytes
    rw [read, List.length_nil] at kept
    have ends : (before ++ [last]).flatten.length = size (front ++ [connack]) := by omega
    exact ⟨known, before, last, rest, rfl, (List.append_inj joined ends).1, paced⟩
  · rintro ⟨known, before, last, rest, rfl, boundary, paced⟩
    have bytes : before.flatten.length + last.length = size (front ++ [connack]) := by
      rw [size, ← boundary, List.flatten_append, List.flatten_singleton, List.length_append]
    have positive : 0 < last.length := List.length_pos_iff.mpr (filled last (by simp))
    have early : before.flatten.length < size (front ++ [connack]) := by omega
    have done : size (front ++ [connack]) ≤ (before ++ [last]).flatten.length := by
      rw [boundary, size]
    rw [split, boundary] at joined
    refine ⟨before, last, rest, rfl, early, done, ?_, ?_⟩
    · exact (accepts_iff incoming (by simpa using early) (by simpa using done)).mpr ⟨known, paced⟩
    · exact readTask_encodings (fun chunk member => filled chunk (by simp [member]))
        wellFormedBehind (List.append_cancel_left joined)

def ackFrame : Frame := (Frame.new .connack 0).withPayload []

def pingFrame : Frame := (Frame.new .ping 7).withPayload []

theorem wellFormed_ackFrame : WellFormed 64 ackFrame :=
  wellFormed_raw .connack (by decide) (by decide) (by decide)

theorem wellFormed_pingFrame {maxFrameSize : ℕ} (fits : 22 ≤ maxFrameSize) :
    WellFormed maxFrameSize pingFrame :=
  wellFormed_raw .ping (by decide) (by decide) fits

set_option maxRecDepth 4000 in
theorem aligned_reads_lose_nothing :
    NothingLost 64 [pingFrame] ackFrame [pingFrame]
      [pingFrame.encode, ackFrame.encode, pingFrame.encode.take 5, pingFrame.encode.drop 5] :=
  (handshake_keeps_frames_iff 64 [pingFrame] ackFrame [pingFrame] _
    (by simp [wellFormed_ackFrame, wellFormed_pingFrame])
    (by simp [wellFormed_pingFrame, readTaskLimit]) (by decide) (by decide) (by decide)
    (by decide)).mpr ⟨by simp [Known]; decide, [pingFrame.encode], ackFrame.encode, _, rfl,
      by decide, by decide, by decide⟩

set_option maxRecDepth 4000 in
/-- A frame in the same read as `CONNACK` is lost; cut in two, it also hides the frame
behind it; and in front of `CONNACK` it leaves the handshake waiting. -/
theorem frames_lost :
    handshake 64 [] [.bytes (ackFrame.encode ++ pingFrame.encode)] = .accepted [] ∧
      ¬NothingLost 64 [] ackFrame [pingFrame] [ackFrame.encode ++ pingFrame.encode] ∧
      handshake 64 [] [.bytes (ackFrame.encode ++ pingFrame.encode.take 5),
          .bytes (pingFrame.encode.drop 5 ++ pingFrame.encode)] =
        .accepted [.bytes (pingFrame.encode.drop 5 ++ pingFrame.encode)] ∧
      readTask [] [.bytes (pingFrame.encode.drop 5 ++ pingFrame.encode)] = [] ∧
      handshake 64 [] [.bytes (pingFrame.encode ++ ackFrame.encode)] = .waiting ∧
      ¬NothingLost 64 [pingFrame] ackFrame [] [pingFrame.encode ++ ackFrame.encode] := by
  have accepts : handshake 64 [] [.bytes (ackFrame.encode ++ pingFrame.encode)] = .accepted [] := by
    decide
  have waits : handshake 64 [] [.bytes (pingFrame.encode ++ ackFrame.encode)] = .waiting := by
    decide
  refine ⟨accepts, ?_, by decide, by decide, waits, ?_⟩
  · rintro ⟨before, last, rest, -, -, -, accepted, read⟩
    have none : rest.map Read.bytes = [] := Handshake.accepted.inj (accepted.symm.trans accepts)
    rw [none] at read
    cases read
  · rintro ⟨before, last, rest, -, -, -, accepted, -⟩
    cases accepted.symm.trans waits

end ZetMQ.HandshakeLoss
