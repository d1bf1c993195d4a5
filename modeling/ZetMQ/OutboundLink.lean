import ZetMQ.ClientHandshake
import ZetMQ.MsgFrames
import ZetMQ.WriterBounds

/-! The write task of a session and its client, joined by a stream that delivers bytes in
order. Frames and messages are queued in the outbound channel. The client drops what comes
in one read with `CONNACK`; when nothing does, its read task has always decoded the beginning
of what the channel took. -/
namespace ZetMQ.OutboundLink
open Utf8Text ByteBuffer Frames Delivery FrameCodec FrameReceiver HeaderCodec MsgFrames BatchWriter
open ClientHandshake

abbrev Entry := HeaderOrder × OutboundFrame

def encodeEntry (entry : Entry) : Bytes := encodeOutbound entry.1 entry.2 []

theorem encodeEntry_eq (entry : Entry) : encodeEntry entry = (frameOf entry).encode :=
  (encodeOutbound_eq entry []).trans (List.nil_append _)

def flushThreshold : ℕ := 131072

abbrev Outbound (capacity : ℕ) := Pipe Entry UInt8 capacity

def Outbound.run {capacity : ℕ} (link : Outbound capacity) (moves : List (Move Entry)) :
    Outbound capacity :=
  Pipe.run encodeEntry flushThreshold link moves

structure Decodable (entry : Entry) : Prop where
  sendable : Sendable entry.2
  fits : (encodeEntry entry).length ≤ clientMaxFrameSize

theorem Decodable.wellFormed {entry : Entry} (h : Decodable entry) :
    WellFormed clientMaxFrameSize (frameOf entry) :=
  wellFormed_frameOf h.sendable (encodeEntry_eq entry ▸ h.fits)

theorem flat_eq (entries : List Entry) :
    flat encodeEntry entries = (encodings (entries.map frameOf)).flatten := by
  rw [flat, encodings, List.map_map]
  exact congrArg List.flatten (List.map_congr_left fun entry _ => encodeEntry_eq entry)

def clientFrames (maxFrameSize : ℕ) (reads : List Bytes) : Option (List Frame) :=
  match handshake maxFrameSize [] (reads.map .bytes) with
  | .accepted unread => some (readTask [] unread)
  | .waiting => none
  | .failed _ => none

structure Opened (maxFrameSize : ℕ) (accepted : List Entry) (first : Entry)
    (opening chunks : List Bytes) : Prop where
  begins : [first] <+: accepted
  connack : ∃ id payload, id < 2 ^ 64 ∧
    first.2 = .raw ((Frame.new .connack id).withPayload payload)
  fits : (encodeEntry first).length ≤ min maxFrameSize clientMaxFrameSize
  ended : opening.flatten = encodeEntry first
  filled : ∀ chunk ∈ opening ++ chunks, chunk ≠ []

theorem Opened.clientFrames_eq {maxFrameSize : ℕ} {accepted : List Entry} {first : Entry}
    {opening chunks : List Bytes} (opened : Opened maxFrameSize accepted first opening chunks) :
    clientFrames maxFrameSize (opening ++ chunks) = some (readTask [] (chunks.map .bytes)) := by
  obtain ⟨id, payload, bounded, raw⟩ := opened.connack
  obtain ⟨order, outbound⟩ := first
  cases raw
  have fits := opened.fits
  have ended := opened.ended
  rw [encodeEntry_eq, frameOf] at ended
  rw [encodeEntry_eq, frameOf, frame_encode_length] at fits
  have size : frameHeaderSize + payload.length ≤ clientMaxFrameSize :=
    fits.trans (Nat.min_le_right ..)
  have wellFormed : WellFormed maxFrameSize ((Frame.new .connack id).withPayload payload) := by
    refine wellFormed_raw .connack bounded ?_ (fits.trans (Nat.min_le_left ..))
    rw [clientMaxFrameSize] at size
    omega
  have accepts := handshake_connack wellFormed rfl
    (fun chunk member => opened.filled chunk (List.mem_append_left _ member))
    ((List.nil_append _).trans ended)
    (by rw [frame_encode_length]; exact Nat.add_pos_left (Nat.add_pos_left (by decide) _) _)
    (chunks.map .bytes)
  rw [clientFrames, List.map_append, accepts]

structure Reading (maxFrameSize : ℕ) (accepted : List Entry) (first : Entry)
    (reads : List Bytes) (read due : List Entry) (frames : List Frame) (left : Bytes) : Prop where
  split : accepted = first :: (read ++ due)
  received : clientFrames maxFrameSize reads = some frames
  carried : List.Forall₂ (fun entry frame => Carries entry.2 frame) read frames
  arrived : reads.flatten = flat encodeEntry (first :: read) ++ left
  awaits : Awaits left (due.map encodeEntry)

theorem exists_reading {maxFrameSize : ℕ} {accepted : List Entry} {first : Entry}
    {opening chunks : List Bytes} (decodable : ∀ entry ∈ accepted, Decodable entry)
    (opened : Opened maxFrameSize accepted first opening chunks) {unread : Bytes}
    (joined : (opening ++ chunks).flatten ++ unread = flat encodeEntry accepted) :
    ∃ read due frames left,
      Reading maxFrameSize accepted first (opening ++ chunks) read due frames left ∧
      left ++ unread = flat encodeEntry due := by
  obtain ⟨later, rfl⟩ := opened.begins
  have wellFormed : ∀ frame ∈ later.map frameOf, WellFormed clientMaxFrameSize frame := by
    intro frame member
    obtain ⟨entry, present, rfl⟩ := List.mem_map.mp member
    exact (decodable entry (List.mem_append_right _ present)).wellFormed
  rw [List.singleton_append, flat_cons, List.flatten_append, opened.ended, List.append_assoc,
    List.append_cancel_left_eq] at joined
  obtain ⟨whole, rest, left, split, received, remaining, awaits⟩ := receiveAll_part wellFormed
    (awaits_encodings _) (show [] ++ chunks.flatten ++ unread = _ from joined.trans (flat_eq _))
  obtain ⟨read, due, rfl, rfl, rfl⟩ := List.map_eq_append_iff.mp split
  have remains : left ++ unread = flat encodeEntry due := by rw [flat_eq, remaining]
  refine ⟨read, due, read.map frameOf, left, ⟨rfl, ?_, ?_, ?_, ?_⟩, remains⟩
  · rw [opened.clientFrames_eq, readTask_of_receiveAll
      (fun chunk member => opened.filled chunk (List.mem_append_right _ member)) received]
  · rw [List.forall₂_map_right_iff, List.forall₂_same]
    intro entry present
    refine carries_frameOf (decodable entry ?_).sendable
    exact List.mem_append_right _ (List.mem_append_left _ present)
  · have bytes : chunks.flatten = flat encodeEntry read ++ left := by
      rw [flat, List.map_append, List.flatten_append, ← flat, ← flat, ← remains,
        ← List.append_assoc] at joined
      exact List.append_cancel_right joined
    rw [List.flatten_append, opened.ended, bytes, flat_cons, List.append_assoc]
  · rw [encodings, List.map_map] at awaits
    rwa [List.map_congr_left fun entry _ => encodeEntry_eq entry]

section
variable {capacity : ℕ}

theorem accepted_decodable {moves : List (Move Entry)}
    (decodable : ∀ entry, .send entry ∈ moves → Decodable entry) :
    ∀ entry ∈ (Outbound.run (.start : Outbound capacity) moves).accepted, Decodable entry := by
  intro entry member
  rw [Outbound.run, run_accepted] at member
  obtain ⟨⟨entry, taken⟩, listed, rfl⟩ := List.mem_map.mp member
  exact decodable entry (mem_answers (List.mem_of_mem_filter listed))

theorem flat_length_le {largest : ℕ} {entries : List Entry}
    (small : ∀ entry ∈ entries, (encodeEntry entry).length ≤ largest) :
    (flat encodeEntry entries).length ≤ entries.length * largest := by
  induction entries with
  | nil => exact Nat.zero_le _
  | cons entry entries ih =>
    have first := small entry (List.mem_cons_self ..)
    have rest := ih fun other listed => small other (List.mem_cons_of_mem _ listed)
    rw [flat_cons, List.length_append, List.length_cons, Nat.succ_mul]
    omega

/-- A client that does not read holds back a bounded number of bytes: what the
channel took and the stream has not is at most a full channel and one buffer, which is
below the threshold or a single frame when the last frame is added to it. -/
theorem stalled_client_holds_back_bounded_bytes (largest : ℕ) (moves : List (Move Entry))
    (small : ∀ entry, .send entry ∈ moves → (encodeEntry entry).length ≤ largest) :
    let link := Outbound.run (.start : Outbound capacity) moves
    (link.pending encodeEntry).length ≤
        capacity * largest + (max flushThreshold largest + largest) ∧
      (link.phase ≠ .stopped false → link.wire ++ link.pending encodeEntry =
        flat encodeEntry link.accepted) := by
  intro link
  have bounded : Bounded encodeEntry flushThreshold largest link := bounded_start.run small
  have queued := (flat_length_le bounded.queued).trans
    (Nat.mul_le_mul_right largest link.channel.bounded)
  have buffered := bounded.buffer
  refine ⟨?_, (conserved_start.run moves).bytes⟩
  rw [Pipe.pending, List.length_append, List.length_drop]
  omega

end

private def pong (id : ℕ) : Entry := (.stored _ _, .raw ((Frame.new .pong id).withPayload []))

private theorem pong_length (id : ℕ) : (encodeEntry (pong id)).length = 22 := by
  rw [encodeEntry_eq, pong, frameOf, frame_encode_length]
  rfl

private theorem pong_decodable {id : ℕ} (fits : id < 2 ^ 64) : Decodable (pong id) :=
  ⟨⟨.pong, id, [], fits, rfl⟩, by rw [pong_length]; decide⟩

private def threePongs : List (Move Entry) :=
  [.send (pong 1), .send (pong 2), .send (pong 3), .work .flushed, .work .flushed, .work .flushed,
    .work (.wrote 30), .hangUp]

private theorem threePongs_sent {entry : Entry} (sent : .send entry ∈ threePongs) :
    ∃ id, id < 2 ^ 64 ∧ entry = pong id := by
  simp only [threePongs, List.mem_cons, Move.send.injEq, reduceCtorEq, List.not_mem_nil,
    or_false] at sent
  rcases sent with rfl | rfl | rfl
  exacts [⟨1, by decide, rfl⟩, ⟨2, by decide, rfl⟩, ⟨3, by decide, rfl⟩]

private theorem threePongs_decodable (entry : Entry) (sent : .send entry ∈ threePongs) :
    Decodable entry := by
  obtain ⟨id, fits, rfl⟩ := threePongs_sent sent
  exact pong_decodable fits

private def halfWritten : Outbound 2 := Outbound.run .start threePongs

theorem two_pongs_held_back :
    (halfWritten.pending encodeEntry).length = 14 ∧
      (halfWritten.pending encodeEntry).length ≤ 2 * 22 + (max flushThreshold 22 + 22) := by
  refine ⟨by decide, (@stalled_client_holds_back_bounded_bytes 2 22 threePongs ?_).1⟩
  intro entry sent
  obtain ⟨id, -, rfl⟩ := threePongs_sent sent
  exact (pong_length id).le

private def connack : Entry := (.stored _ _, .raw ((Frame.new .connack 0).withPayload []))

private def sendsThree : List (Move Entry) :=
  [.send connack, .send (pong 1), .send (pong 2), .work .flushed, .work .flushed, .work .flushed,
    .work .flushed, .work (.wrote 50), .hangUp]

private theorem sendsThree_decodable (entry : Entry) (sent : .send entry ∈ sendsThree) :
    Decodable entry := by
  simp only [sendsThree, List.mem_cons, Move.send.injEq, reduceCtorEq, List.not_mem_nil,
    or_false] at sent
  rcases sent with rfl | rfl | rfl
  · exact ⟨⟨.connack, 0, [], by decide, rfl⟩, by decide⟩
  · exact pong_decodable (by decide)
  · exact pong_decodable (by decide)

private def greeted : Outbound 3 := Outbound.run .start sendsThree

private def opening : List Bytes := [greeted.wire.take 10, (greeted.wire.take 22).drop 10]
private def later : List Bytes := [(greeted.wire.take 30).drop 22, greeted.wire.drop 30]

private theorem greeted_opened : Opened 1024 greeted.accepted connack opening later where
  begins := ⟨[pong 1, pong 2], rfl⟩
  connack := ⟨0, [], by decide, rfl⟩
  fits := by decide
  ended := by decide
  filled := by decide

private def sentThree : List (Move Entry) := sendsThree ++ [.work (.wrote 16), .work .flushed]

end ZetMQ.OutboundLink
