import ZetMQ.CommandCodec
import ZetMQ.Registry
import ZetMQ.Utf8Cut

/-! The `SUB` frame that a client builds, read by the server. Pattern and group have one
byte each for their length, which is less than the broker accepts. -/
namespace ZetMQ.SubFrames
open Utf8Text Utf8Codec Utf8Cut ByteBuffer Frames SubjectGrammar Registry Commands CommandCodec

def groupSection : Option Str → Bytes
  | none => []
  | some group => encodeName group

def buildSubFrame (subject : Str) (queueGroup : Option Str) (corrId : ℕ) : Frame :=
  (Frame.new .sub corrId).withPayload (encodeName subject ++ groupSection queueGroup)

def groupAt (payload : Bytes) (front : ℕ) : Option Str :=
  if front + 1 < payload.length then
    let qgLen := (byteAt payload front).toNat
    if front + 1 + qgLen ≤ payload.length ∧ 0 < qgLen then
      some (fromUtf8Lossy (slice payload (front + 1) (front + 1 + qgLen)))
    else none
  else none

theorem slice_encodeName (front : Bytes) (name : Str) (tail : Bytes) {n : ℕ}
    (short : n ≤ utf8Len name) :
    slice (front ++ encodeName name ++ tail) (front.length + 1) (front.length + 1 + n) =
      (encode name).take n := by
  have written : front ++ encodeName name ++ tail =
      (front ++ [UInt8.ofNat (encode name).length]) ++ (encode name).take n ++
        ((encode name).drop n ++ tail) := by
    rw [List.append_assoc _ ((encode name).take n), ← List.append_assoc ((encode name).take n),
      List.take_append_drop]
    simp [encodeName]
  refine slice_written written (by simp) ?_
  rw [List.length_take_of_le (by rwa [encode_length])]

theorem fromFrame_sub (subject : Str) (queueGroup : Option Str) (corrId : ℕ) :
    BrokerCommand.fromFrame (buildSubFrame subject queueGroup corrId) =
      .ok (.subscribe ⟨fromUtf8Lossy ((encode subject).take (utf8Len subject % 256)),
        groupAt (encodeName subject ++ groupSection queueGroup) (1 + utf8Len subject % 256)⟩) := by
  have short := Nat.mod_le (utf8Len subject) 256
  have payload : (buildSubFrame subject queueGroup corrId).payload =
      encodeName subject ++ groupSection queueGroup := rfl
  have sub : BrokerCommand.fromFrame (buildSubFrame subject queueGroup corrId) =
      (subscribeFromFrame (buildSubFrame subject queueGroup corrId)).map .subscribe := rfl
  have text := slice_encodeName [] subject (groupSection queueGroup) short
  have long : ¬(encodeName subject ++ groupSection queueGroup).length <
      1 + utf8Len subject % 256 := by
    rw [List.length_append, encodeName_length]
    omega
  rw [List.nil_append, List.length_nil, Nat.zero_add] at text
  rw [sub, subscribeFromFrame, payload, if_neg (by simp [encodeName]), byteAt_encodeName]
  simp only [if_neg long, text, groupAt, show ∀ n : ℕ, 2 + n = 1 + n + 1 by omega]
  rfl

theorem groupAt_section {subject : Str} (short : utf8Len subject ≤ 255)
    (queueGroup : Option Str) (filled : ∀ group ∈ queueGroup, group ≠ []) :
    groupAt (encodeName subject ++ groupSection queueGroup) (1 + utf8Len subject % 256) =
      queueGroup.bind fun group =>
        if 0 < utf8Len group % 256 then
          some (fromUtf8Lossy ((encode group).take (utf8Len group % 256)))
        else none := by
  rw [Nat.mod_eq_of_lt (show utf8Len subject < 256 by omega), ← encodeName_length]
  cases queueGroup with
  | none => simp [groupAt, groupSection]
  | some group =>
    have some_byte : 0 < utf8Len group := by
      have positive := List.length_pos_of_ne_nil (filled group rfl)
      have bytes := length_le_encode group
      rw [encode_length] at bytes
      omega
    have length : (encodeName subject ++ encodeName group).length =
        (encodeName subject).length + 1 + utf8Len group := by
      rw [List.length_append, encodeName_length group, Nat.add_assoc]
    have first : (byteAt (encodeName subject ++ encodeName group)
        (encodeName subject).length).toNat = utf8Len group % 256 := by
      rw [← encode_length, ← UInt8.toNat_ofNat', encodeName, encodeName]
      exact congrArg UInt8.toNat (byteAt_written rfl rfl)
    have inside := Nat.mod_le (utf8Len group) 256
    have text := slice_encodeName (encodeName subject) group [] inside
    rw [List.append_nil] at text
    simp only [groupAt, groupSection, first, Option.bind_some, text]
    rw [if_pos (by omega)]
    by_cases positive : 0 < utf8Len group % 256
    · rw [if_pos ⟨by omega, positive⟩, if_pos positive]
    · rw [if_neg (fun both => positive both.2), if_neg positive]

theorem groupName_ne_nil {group : Str} (accepted : (QueueGroupName.new group).isOk = true) :
    group ≠ [] := by
  rintro rfl
  cases accepted

/-- A pattern and a group that the broker accepts go through a `SUB` frame unchanged
exactly if both have at most 255 bytes; the broker need not accept the pattern. -/
theorem sub_round_trip_iff (pattern : Str) (queueGroup : Option Str) (corrId : ℕ)
    (named : ∀ group ∈ queueGroup, (QueueGroupName.new group).isOk = true) :
    BrokerCommand.fromFrame (buildSubFrame pattern queueGroup corrId) =
        .ok (.subscribe ⟨pattern, queueGroup⟩) ↔
      utf8Len pattern ≤ 255 ∧ ∀ group ∈ queueGroup, utf8Len group ≤ 255 := by
  have whole : ∀ {text : Str}, utf8Len text ≤ 255 →
      fromUtf8Lossy ((encode text).take (utf8Len text % 256)) = text := by
    intro text short
    rw [Nat.mod_eq_of_lt (by omega), ← encode_length, List.take_length, fromUtf8Lossy_encode]
  have cut : ∀ {text : Str}, ¬utf8Len text ≤ 255 →
      fromUtf8Lossy ((encode text).take (utf8Len text % 256)) ≠ text :=
    fun long => fromUtf8Lossy_cut_ne (by omega)
  have filled : ∀ group ∈ queueGroup, group ≠ [] :=
    fun group member => groupName_ne_nil (named group member)
  rw [fromFrame_sub, Except.ok.injEq, BrokerCommand.subscribe.injEq, SubscribeCommand.mk.injEq]
  by_cases short : utf8Len pattern ≤ 255
  · rw [groupAt_section short queueGroup filled]
    simp only [whole short, short, true_and]
    cases queueGroup with
    | none => simp
    | some group =>
      simp only [Option.bind_some, Option.mem_some_iff, forall_eq']
      by_cases shortGroup : utf8Len group ≤ 255
      · have positive : 0 < utf8Len group % 256 := by
          have bytes := length_le_encode group
          have scalars := List.length_pos_of_ne_nil (filled group rfl)
          rw [encode_length] at bytes
          rw [Nat.mod_eq_of_lt (by omega)]
          omega
        simp [positive, whole shortGroup, shortGroup]
      · refine iff_of_false (fun same => ?_) shortGroup
        split_ifs at same
        exact cut shortGroup (Option.some.inj same)
  · exact iff_of_false (fun same => cut short same.1) fun fits => short fits.1

theorem grouped_sub_round_trip :
    BrokerCommand.fromFrame (buildSubFrame "a.*".toList (some "g".toList) 3) =
      .ok (.subscribe ⟨"a.*".toList, some "g".toList⟩) :=
  (sub_round_trip_iff "a.*".toList (some "g".toList) 3 (by decide)).mpr (by decide)

private def longPattern : Str := List.replicate 256 'a'

set_option maxRecDepth 4000 in
/-- A pattern of 256 bytes is announced as empty, and its bytes are taken for a group. -/
theorem long_pattern_is_lost :
    (SubjectPattern.parse longPattern).isOk = true ∧
    BrokerCommand.fromFrame (buildSubFrame longPattern none 3) =
      .ok (.subscribe ⟨[], some (List.replicate 97 'a')⟩) := by
  decide +kernel

end ZetMQ.SubFrames
