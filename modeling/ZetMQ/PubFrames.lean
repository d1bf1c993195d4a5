import ZetMQ.FrameCodec
import ZetMQ.SessionSteps

/-! Whole `PUB` frames at the front of the read buffer. What follows a frame in the
buffer does not matter to the fast path, and a part of a frame stops it; so a batch
loop takes as many frames as its limit allows. -/
namespace ZetMQ.PubFrames
open Utf8Text ByteBuffer Frames KeyedTable SubjectGrammar Delivery Broker SubscriptionLedger
open BrokerRefinement FrameCodec Commands Permissions PubFastPath SessionSteps

def commandIn (maxFrameSize : ℕ) (frame : Bytes) : Option PublishCommand :=
  match peekPubFrameLayout frame maxFrameSize with
  | .ok (some layout) =>
    match decodePublishCommandFromBuf frame layout with
    | (.ok (command, _), []) => some command
    | _ => none
  | _ => none

/-- The item in such a buffer, if also its subject can be parsed. -/
def itemIn (maxFrameSize : ℕ) (frame : Bytes) : Option PublishItem :=
  (commandIn maxFrameSize frame).bind itemOf

theorem layoutOf_append {buf : Bytes} (long : frameHeaderSize ≤ buf.length) (rest : Bytes)
    (total : ℕ) : layoutOf (buf ++ rest) total = layoutOf buf total := by
  rw [frameHeaderSize] at long
  rw [layoutOf, beAt_append (by omega), beAt_append (by omega), beAt_append (by omega), layoutOf]

structure Peeked (buf : Bytes) (maxFrameSize : ℕ) : Prop where
  long : frameHeaderSize ≤ buf.length
  fits : Frame.announced buf ≤ maxFrameSize
  whole : Frame.announced buf ≤ buf.length
  magic : beAt buf 0 2 = zetmqMagic
  version : byteAt buf 2 = currentVersion
  isPub : byteAt buf 3 = FrameType.pub.asU8

theorem peekPubFrameTotal_some {buf : Bytes} {maxFrameSize total : ℕ} :
    peekPubFrameTotal buf maxFrameSize = .ok (some total) ↔
      Peeked buf maxFrameSize ∧ total = Frame.announced buf := by
  constructor
  · intro peeked
    unfold peekPubFrameTotal at peeked
    dsimp only at peeked
    split_ifs at peeked with short large part magic version isPub <;> cases peeked
    exact ⟨⟨Nat.le_of_not_lt short, Nat.le_of_not_lt large, Nat.le_of_not_lt part,
      not_not.mp magic, not_not.mp version, not_not.mp isPub⟩, rfl⟩
  · rintro ⟨peeked, rfl⟩
    unfold peekPubFrameTotal
    dsimp only
    rw [if_neg (Nat.not_lt.mpr peeked.long), if_neg (Nat.not_lt.mpr peeked.fits),
      if_neg (Nat.not_lt.mpr peeked.whole), if_neg (not_not.mpr peeked.magic),
      if_neg (not_not.mpr peeked.version), if_neg (not_not.mpr peeked.isPub)]

theorem Peeked.append {buf : Bytes} {maxFrameSize : ℕ} (h : Peeked buf maxFrameSize)
    (rest : Bytes) : Peeked (buf ++ rest) maxFrameSize where
  long := by
    rw [List.length_append]
    exact Nat.le_add_right_of_le h.long
  fits := announced_append h.long rest ▸ h.fits
  whole := by
    rw [announced_append h.long, List.length_append]
    exact Nat.le_add_right_of_le h.whole
  magic := by
    have long := h.long
    rw [frameHeaderSize] at long
    rw [beAt_append (by omega), h.magic]
  version := by
    have long := h.long
    rw [frameHeaderSize] at long
    rw [byteAt_append (by omega), h.version]
  isPub := by
    have long := h.long
    rw [frameHeaderSize] at long
    rw [byteAt_append (by omega), h.isPub]

theorem peekPubFrameLayout_some {buf : Bytes} {maxFrameSize : ℕ} {layout : PubFrameLayout} :
    peekPubFrameLayout buf maxFrameSize = .ok (some layout) ↔
      Peeked buf maxFrameSize ∧ layout = layoutOf buf (Frame.announced buf) := by
  unfold peekPubFrameLayout
  cases peek : peekPubFrameTotal buf maxFrameSize with
  | error e =>
    refine ⟨nofun, fun ⟨peeked, _⟩ => ?_⟩
    rw [peekPubFrameTotal_some.mpr ⟨peeked, rfl⟩] at peek
    cases peek
  | ok total =>
    cases total with
    | none =>
      refine ⟨nofun, fun ⟨peeked, _⟩ => ?_⟩
      rw [peekPubFrameTotal_some.mpr ⟨peeked, rfl⟩] at peek
      cases peek
    | some total =>
      obtain ⟨peeked, rfl⟩ := peekPubFrameTotal_some.mp peek
      constructor
      · intro same
        exact ⟨peeked, (Option.some.inj (Except.ok.inj same)).symm⟩
      · rintro ⟨-, rfl⟩
        rfl

theorem decodePublishCommandFromBuf_append {frame : Bytes} {layout : PubFrameLayout}
    (inside : layout.total ≤ frame.length) (rest : Bytes) :
    decodePublishCommandFromBuf (frame ++ rest) layout =
      ((decodePublishCommandFromBuf frame layout).1,
        (decodePublishCommandFromBuf frame layout).2 ++ rest) := by
  unfold decodePublishCommandFromBuf
  dsimp only
  rw [List.take_append_of_le_length inside, List.drop_append_of_le_length inside]
  split
  · rfl
  · split <;> rfl

/-- One whole frame, whatever its sections hold. -/
structure Whole (maxFrameSize : ℕ) (frame : Bytes) : Prop where
  peeked : Peeked frame maxFrameSize
  exactly : Frame.announced frame = frame.length

theorem whole_take {buf : Bytes} {maxFrameSize : ℕ} (peeked : Peeked buf maxFrameSize) :
    Whole maxFrameSize (buf.take (Frame.announced buf)) := by
  have long : frameHeaderSize ≤ Frame.announced buf := by
    rw [Frame.announced]
    omega
  have size : (buf.take (Frame.announced buf)).length = Frame.announced buf :=
    List.length_take_of_le peeked.whole
  have fields : ∀ start width, start + width ≤ frameHeaderSize →
      beAt (buf.take (Frame.announced buf)) start width = beAt buf start width :=
    fun start width inside => beAt_take (inside.trans long)
  have bytes : ∀ i < frameHeaderSize,
      byteAt (buf.take (Frame.announced buf)) i = byteAt buf i :=
    fun i inside => byteAt_take (inside.trans_le long)
  have announced : Frame.announced (buf.take (Frame.announced buf)) = Frame.announced buf := by
    conv_lhs => rw [Frame.announced]
    rw [fields 14 4 (by decide), fields 18 4 (by decide), ← Frame.announced]
  exact
    { peeked :=
        { long := long.trans_eq size.symm
          fits := announced.trans_le peeked.fits
          whole := (announced.trans size.symm).le
          magic := (fields 0 2 (by decide)).trans peeked.magic
          version := (bytes 2 (by decide)).trans peeked.version
          isPub := (bytes 3 (by decide)).trans peeked.isPub }
      exactly := announced.trans size.symm }

section
variable {maxFrameSize : ℕ} {frame : Bytes} (h : Whole maxFrameSize frame)
include h

theorem Whole.isPub (rest : Bytes) : nextFrameIsPub (frame ++ rest) = true := by
  have peeked := h.peeked.append rest
  rw [nextFrameIsPub, Bool.and_eq_true, decide_eq_true_iff, decide_eq_true_iff]
  exact ⟨peeked.long, peeked.isPub⟩

theorem Whole.peek (rest : Bytes) :
    peekPubFrameTotal (frame ++ rest) maxFrameSize = .ok (some frame.length) := by
  rw [peekPubFrameTotal_some, announced_append h.peeked.long, h.exactly]
  exact ⟨h.peeked.append rest, rfl⟩

theorem Whole.peekLayout (rest : Bytes) :
    peekPubFrameLayout (frame ++ rest) maxFrameSize = .ok (some (layoutOf frame frame.length)) := by
  rw [peekPubFrameLayout_some, announced_append h.peeked.long, layoutOf_append h.peeked.long,
    h.exactly]
  exact ⟨h.peeked.append rest, rfl⟩

theorem Whole.part {part : Bytes} (start : part <+: frame) (short : part.length < frame.length)
    (long : frameHeaderSize ≤ part.length) : peekPubFrameTotal part maxFrameSize = .ok none := by
  obtain ⟨more, rfl⟩ := start
  have size : Frame.announced part = (part ++ more).length := by
    rw [← h.exactly, announced_append long]
  have fits := h.peeked.fits
  rw [h.exactly, ← size] at fits
  unfold peekPubFrameTotal
  dsimp only
  rw [if_neg (Nat.not_lt.mpr long), if_neg (Nat.not_lt.mpr fits), if_pos (size ▸ short)]

end

theorem whole_of_commandIn {maxFrameSize : ℕ} {frame : Bytes} {command : PublishCommand}
    (found : commandIn maxFrameSize frame = some command) : Whole maxFrameSize frame := by
  unfold commandIn at found
  split at found
  · rename_i layout peek
    obtain ⟨peeked, rfl⟩ := peekPubFrameLayout_some.mp peek
    split at found
    · rename_i decoded
      have nothing : frame.drop (Frame.announced frame) = [] := by
        unfold decodePublishCommandFromBuf at decoded
        dsimp only at decoded
        split at decoded
        · cases decoded
        · split at decoded
          · cases decoded
          · exact (Prod.mk.inj decoded).2
      exact ⟨peeked, Nat.le_antisymm peeked.whole (List.drop_eq_nil_iff.mp nothing)⟩
    · cases found
  · cases found

theorem skipFrame_stop {maxFrameSize : ℕ} {loop : PubLoop}
    (part : peekPubFrameTotal loop.readBuf maxFrameSize = .ok none) :
    skipFrame maxFrameSize loop = (.stop, loop) := by
  rw [skipFrame, part]

theorem collectFrame_stop (ctx : AuthContext) {maxFrameSize : ℕ} {loop : PubLoop}
    (part : peekPubFrameTotal loop.readBuf maxFrameSize = .ok none) :
    collectFrame ctx maxFrameSize loop = (.stop, loop) := by
  rw [collectFrame, peekPubFrameLayout, part]
  rfl

section
variable {maxFrameSize : ℕ} {rest : List Bytes} {part : Bytes}
  (whole : ∀ frame ∈ rest, Whole maxFrameSize frame) (awaits : Awaits part rest)
include whole awaits

theorem part_stops (isPub : nextFrameIsPub part = true) :
    peekPubFrameTotal part maxFrameSize = .ok none := by
  rw [nextFrameIsPub, Bool.and_eq_true, decide_eq_true_iff] at isPub
  cases rest with
  | nil =>
    rw [show part = [] from awaits] at isPub
    exact absurd isPub.1 (by decide)
  | cons frame later =>
    exact (whole frame (List.mem_cons_self ..)).part awaits.1 awaits.2 isPub.1

theorem part_short (notPub : ¬nextFrameIsPub part = true) : part.length < frameHeaderSize := by
  by_contra long
  refine notPub ?_
  cases rest with
  | nil =>
    rw [show part = [] from awaits] at long
    exact absurd long (by decide)
  | cons frame later =>
    have isPub := (whole frame (List.mem_cons_self ..)).peeked.isPub
    obtain ⟨more, rfl⟩ := awaits.1
    rw [frameHeaderSize, Nat.not_lt] at long
    rw [byteAt_append (by omega)] at isPub
    rw [nextFrameIsPub, Bool.and_eq_true, decide_eq_true_iff, decide_eq_true_iff]
    exact ⟨long, isPub⟩

end

end ZetMQ.PubFrames
