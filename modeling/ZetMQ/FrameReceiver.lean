import ZetMQ.FrameCodec

/-! A receiver appends what it reads to a buffer and decodes frames until the decoder
waits for more. Whatever the cuts, it gets the frames that were sent. -/
namespace ZetMQ.FrameReceiver
open Utf8Text ByteBuffer Frames FrameCodec

/-- Why a decoding loop stops: it waits for bytes, it failed, or its turns are used
up. -/
inductive Stop where
  | waiting
  | failed (e : ProtocolError)
  | outOfTurns
deriving DecidableEq

def decodeLoop (maxFrameSize : ℕ) : ℕ → Bytes → List Frame × Stop × Bytes
  | 0, buf => ([], .outOfTurns, buf)
  | turns + 1, buf =>
    match Frame.decodeFrom buf maxFrameSize with
    | (.ok none, buf) => ([], .waiting, buf)
    | (.error e, buf) => ([], .failed e, buf)
    | (.ok (some frame), buf) =>
      let (frames, stop, buf) := decodeLoop maxFrameSize turns buf
      (frame :: frames, stop, buf)

def decodeAll (maxFrameSize : ℕ) (buf : Bytes) : List Frame × Stop × Bytes :=
  decodeLoop maxFrameSize (buf.length + 1) buf

def receiveAll (maxFrameSize : ℕ) (buf : Bytes) : List Bytes → List Frame × Stop × Bytes
  | [] => ([], .waiting, buf)
  | chunk :: chunks =>
    match decodeAll maxFrameSize (buf ++ chunk) with
    | (frames, .waiting, buf) =>
      let (more, stop, buf) := receiveAll maxFrameSize buf chunks
      (frames ++ more, stop, buf)
    | ended => ended

def encodings (frames : List Frame) : List Bytes := frames.map Frame.encode

section
variable {maxFrameSize : ℕ} {whole due : List Frame} {part : Bytes}

theorem decodeFrom_awaits (wellFormed : ∀ frame ∈ due, WellFormed maxFrameSize frame)
    (awaits : Awaits part (encodings due)) :
    Frame.decodeFrom part maxFrameSize = (.ok none, part) := by
  cases due with
  | nil =>
    rw [show part = [] from awaits]
    exact decodeFrom_short (by decide) maxFrameSize
  | cons frame due =>
    exact decodeFrom_encode_part (wellFormed frame (List.mem_cons_self ..)) awaits.1 awaits.2

theorem decodeLoop_frames (wellFormed : ∀ frame ∈ whole ++ due, WellFormed maxFrameSize frame)
    (awaits : Awaits part (encodings due)) {turns : ℕ} (enough : whole.length < turns) :
    decodeLoop maxFrameSize turns ((encodings whole).flatten ++ part) =
      (whole, .waiting, part) := by
  induction whole generalizing turns with
  | nil =>
    obtain ⟨turns, rfl⟩ := Nat.exists_eq_add_one.mpr enough
    rw [encodings, List.map_nil, List.flatten_nil, List.nil_append, decodeLoop,
      decodeFrom_awaits wellFormed awaits]
  | cons frame whole ih =>
    obtain ⟨turns, rfl⟩ := Nat.exists_eq_add_one.mpr (Nat.zero_lt_of_lt enough)
    have first := wellFormed frame (List.mem_append_left _ (List.mem_cons_self ..))
    have rest := ih (fun other member => wellFormed other (List.mem_cons_of_mem _ member))
      (Nat.lt_of_succ_lt_succ enough)
    rw [encodings, List.map_cons, List.flatten_cons, List.append_assoc, ← encodings, decodeLoop,
      decodeFrom_encode first]
    simp only [rest]

theorem length_le_encodings (frames : List Frame) :
    frames.length ≤ (encodings frames).flatten.length := by
  induction frames with
  | nil => exact Nat.le_refl 0
  | cons frame frames ih =>
    have long := frame_encode_length frame
    rw [frameHeaderSize] at long
    rw [encodings, List.map_cons, List.flatten_cons, List.length_append, ← encodings,
      List.length_cons]
    omega

theorem decodeAll_frames (wellFormed : ∀ frame ∈ whole ++ due, WellFormed maxFrameSize frame)
    (awaits : Awaits part (encodings due)) :
    decodeAll maxFrameSize ((encodings whole).flatten ++ part) = (whole, .waiting, part) := by
  refine decodeLoop_frames wellFormed awaits ?_
  have enough := length_le_encodings whole
  rw [List.length_append]
  omega

end

theorem receiveAll_part {maxFrameSize : ℕ} {due : List Frame} {part unread : Bytes}
    {chunks : List Bytes} (wellFormed : ∀ frame ∈ due, WellFormed maxFrameSize frame)
    (awaits : Awaits part (encodings due))
    (joined : part ++ chunks.flatten ++ unread = (encodings due).flatten) :
    ∃ whole rest left, due = whole ++ rest ∧
      receiveAll maxFrameSize part chunks = (whole, .waiting, left) ∧
      left ++ unread = (encodings rest).flatten ∧ Awaits left (encodings rest) := by
  induction chunks generalizing due part with
  | nil =>
    rw [List.flatten_nil, List.append_nil] at joined
    exact ⟨[], due, part, rfl, rfl, joined, awaits⟩
  | cons chunk chunks ih =>
    rw [List.flatten_cons, ← List.append_assoc, List.append_assoc (part ++ chunk)] at joined
    obtain ⟨whole, rest, part', split, arrived, left, awaits'⟩ := exists_awaits joined
    obtain ⟨first, later, rfl, rfl, rfl⟩ := List.map_eq_append_iff.mp split
    have decoded : decodeAll maxFrameSize ((first.map Frame.encode).flatten ++ part') =
        (first, .waiting, part') := decodeAll_frames wellFormed awaits'
    rw [← List.append_assoc] at left
    obtain ⟨more, rest, end', rfl, received, ended⟩ :=
      ih (fun frame member => wellFormed frame (List.mem_append_right _ member)) awaits' left
    refine ⟨first ++ more, rest, end', by rw [List.append_assoc], ?_, ended⟩
    rw [receiveAll, arrived, decoded]
    simp only [received]

theorem receiveAll_due {maxFrameSize : ℕ} {due : List Frame} {part : Bytes} {chunks : List Bytes}
    (wellFormed : ∀ frame ∈ due, WellFormed maxFrameSize frame)
    (awaits : Awaits part (encodings due))
    (joined : part ++ chunks.flatten = (encodings due).flatten) :
    receiveAll maxFrameSize part chunks = (due, .waiting, []) := by
  rw [← List.append_nil (part ++ _)] at joined
  obtain ⟨whole, rest, left, rfl, received, ended, awaits'⟩ :=
    receiveAll_part wellFormed awaits joined
  rw [List.append_nil] at ended
  have none : rest = [] := List.map_eq_nil_iff.mp (awaits'.eq_nil ended)
  rw [none] at ended
  rw [received, none, ended, List.append_nil]
  rfl

theorem awaits_encodings (frames : List Frame) : Awaits [] (encodings frames) := by
  cases frames with
  | nil => rfl
  | cons frame frames =>
    refine ⟨List.nil_prefix, ?_⟩
    have long := frame_encode_length frame
    rw [frameHeaderSize] at long
    rw [List.length_nil]
    omega

/-- Cutting the encodings anywhere yields the frames, no failure and an empty buffer. -/
theorem frames_survive_chunking (maxFrameSize : ℕ) (frames : List Frame)
    (wellFormed : ∀ frame ∈ frames, WellFormed maxFrameSize frame) (chunks : List Bytes)
    (cut : chunks.flatten = (frames.map Frame.encode).flatten) :
    receiveAll maxFrameSize [] chunks = (frames, .waiting, []) :=
  receiveAll_due wellFormed (awaits_encodings frames) cut

theorem cut_inside_a_length_field :
    let frames := [(Frame.new .ping 7).withPayload [], (Frame.new .pub 8).withPayload [0, 1, 0x61]]
    let bytes := (frames.map Frame.encode).flatten
    receiveAll 64 [] [bytes.take 16, [], bytes.drop 16] = (frames, .waiting, []) := by
  intro frames bytes
  refine frames_survive_chunking 64 frames ?_ _ (by simp [bytes])
  have pub : 22 + [(0 : UInt8), 1, 0x61].length ≤ 64 := by decide
  simp only [frames, List.forall_mem_cons, List.not_mem_nil, false_imp_iff, implies_true, and_true]
  exact ⟨wellFormed_raw .ping (by decide) (by decide) (by decide),
    wellFormed_raw .pub (by decide) (by decide) pub⟩

end ZetMQ.FrameReceiver
