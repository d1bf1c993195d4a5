import ZetMQ.SegmentRuns

/-! Opening a log that was cut off. The scan keeps the records that are whole; but it
passes over a record whose payload is cut as if it were whole, and after any other cut
inside a record it leaves the cursor behind the place where the next record is
expected. Only a cut between two records is recovered from. -/
namespace ZetMQ.TornSegments
open Utf8Text ByteBuffer FileCursor Segments SegmentLayout SegmentRuns

def whole (len : ℕ) : List Entry → List Entry
  | [] => []
  | entry :: entries =>
    if size entry ≤ len then entry :: whole (len - size entry) entries else []

structure Takes (base : ℕ) (kept : List Entry) (opened : Segment) (entry : Entry) : Prop where
  sequence : (opened.appendEntry entry).1 = .ok (base + kept.length)
  now : ((opened.appendEntry entry).2.read (base + kept.length)).1 =
    .ok (some (entry.record (base + kept.length)))
  reopened : ((Segment.openPath (some (opened.appendEntry entry).2.file.data) base).read
    (base + kept.length)).1 = .ok (some (entry.record (base + kept.length)))

structure Recovers (base : ℕ) (entries : List Entry) (torn : Bytes) : Prop where
  index : (Segment.openPath (some torn) base).index = indexFrom 0 (whole torn.length entries)
  reads : ∀ reads, ((Segment.openPath (some torn) base).readAll reads).1 =
    reads.map fun s => .ok (expected base (whole torn.length entries) s.toNat)
  takes : ∀ entry,
    Takes base (whole torn.length entries) (Segment.openPath (some torn) base) entry

theorem cut_log {seq : ℕ} {entries : List Entry} {torn : Bytes}
    (cut : torn <+: logFrom seq entries) :
    ∃ rest part, entries = whole torn.length entries ++ rest ∧
      torn = logFrom seq (whole torn.length entries) ++ part ∧
      (part = [] ∨ ∃ next more, rest = next :: more ∧ part.length < size next) := by
  induction entries generalizing seq torn with
  | nil => exact ⟨[], [], rfl, by simpa [logFrom, whole] using cut, .inl rfl⟩
  | cons entry entries ih =>
    rw [logFrom] at cut
    by_cases fits : size entry ≤ torn.length
    · have first : entry.encode (seq % 2 ^ 64) <+: torn :=
        List.prefix_of_prefix_length_le (List.prefix_append ..) cut (by rwa [encode_length])
      obtain ⟨later, rfl⟩ := first
      obtain ⟨rest, part, split, data, cutPart⟩ := ih ((List.prefix_append_right_inj _).mp cut)
      have kept : whole (entry.encode (seq % 2 ^ 64) ++ later).length (entry :: entries) =
          entry :: whole later.length entries := by
        rw [whole, if_pos fits, List.length_append, encode_length, Nat.add_sub_cancel_left]
      refine ⟨rest, part, ?_, ?_, cutPart⟩
      · rw [kept, List.cons_append, ← split]
      · rw [kept, logFrom, List.append_assoc, ← data]
    · have kept : whole torn.length (entry :: entries) = [] := by rw [whole, if_neg fits]
      exact ⟨entry :: entries, torn, by rw [kept]; rfl, by rw [kept]; rfl,
        .inr ⟨entry, entries, rfl, by omega⟩⟩

section Boundary
variable {base : ℕ} {kept : List Entry}

theorem takes_log (fits : base + kept.length < 2 ^ 64) (entry : Entry) :
    Takes base kept (Segment.openPath (some (logFrom base kept)) base) entry := by
  have data : (File.between (logFrom base (kept ++ [entry])) []).data =
      logFrom base (kept ++ [entry]) := List.append_nil _
  have word : (UInt64.ofNat (base + kept.length)).toNat = base + kept.length :=
    UInt64.toNat_ofNat_of_lt' fits
  have found : expected base (kept ++ [entry]) (base + kept.length) =
      some (entry.record (base + kept.length)) := by
    simp [expected]
  obtain ⟨_, _, result⟩ := read_log base (kept ++ [entry]) data (UInt64.ofNat (base + kept.length))
  rw [word, found] at result
  constructor
  · rw [open_log, append_end, Nat.mod_eq_of_lt fits]
  · rw [open_log, append_end, result]
  · rw [open_log, append_end]
    simp only [indexed, data]
    rw [open_log, result]

end Boundary

theorem scan_index (turns offset : ℕ) (index : List IndexEntry) (file : File) :
    index <+: (scan turns offset index file).1 := by
  induction turns generalizing offset index file with
  | zero => exact List.prefix_rfl
  | succ turns ih =>
    rw [scan]
    cases scanRecord.run file with
    | error e file => exact List.prefix_rfl
    | ok found file => exact (List.prefix_append ..).trans (ih ..)

theorem open_torn (base : ℕ) (kept : List Entry) (part : Bytes) :
    kept.length < (Segment.openPath (some (logFrom base kept ++ part)) base).index.length ∨
    ∃ pos, (logFrom base kept ++ part).length ≤ pos ∧
      (part.length < 16 → pos = (logFrom base kept ++ part).length) ∧
      Segment.openPath (some (logFrom base kept ++ part)) base =
        indexed base kept ⟨logFrom base kept ++ part, pos⟩ := by
  obtain ⟨turns, fuel⟩ : ∃ turns, (logFrom base kept ++ part).length + 1 =
      kept.length + (turns + 1) := by
    have := length_le_totalSize kept
    refine ⟨(logFrom base kept ++ part).length - kept.length, ?_⟩
    rw [List.length_append, logFrom_length]
    omega
  have scanned := scan_log kept (turns + 1) base 0 [] [] part
  rw [← fuel] at scanned
  have opened : Segment.openPath (some (logFrom base kept ++ part)) base =
      let found := scan (turns + 1) (totalSize kept) (indexFrom 0 kept)
        (.between (logFrom base kept) part)
      ⟨found.2.2, found.1, base, found.2.1⟩ := by
    simp only [Nat.zero_add, List.nil_append] at scanned
    rw [← scanned]
    rfl
  rw [opened]
  by_cases short : part.length < 16
  · refine .inr ⟨(logFrom base kept ++ part).length, le_rfl, fun _ => rfl, ?_⟩
    rw [scan_end short]
    simp only [indexed, File.between, List.append_nil]
  · obtain ⟨pos, -, ⟨found, passed⟩ | ⟨ended, e, failed⟩⟩ :=
      forward_scanRecord (.between (logFrom base kept) part)
    · refine .inl ?_
      rw [scan, passed]
      have longer := (scan_index turns (totalSize kept + found.2)
        (indexFrom 0 kept ++ [⟨totalSize kept, found.1⟩])
        ⟨(File.between (logFrom base kept) part).data, pos⟩).length_le
      rw [List.length_append, indexFrom_length, List.length_singleton] at longer
      exact longer
    · refine .inr ⟨pos, ended, fun small => absurd small short, ?_⟩
      rw [scan, failed]
      rfl

def stamped (timestamp : ℕ) (fits : timestamp < 2 ^ 64) : Entry :=
  .withoutReply [] [] timestamp (by decide) (by decide) fits

theorem beNat_concat (bytes : Bytes) (b : UInt8) :
    beNat (bytes ++ [b]) = beNat bytes * 256 + b.toNat := by
  rw [beNat, List.foldl_append]
  rfl

theorem exists_lost_timestamp {part gap : Bytes} (some : part ≠ [])
    (near : part.length < 8 → gap = []) (seq : ℕ) :
    ∃ timestamp, timestamp < 2 ^ 64 ∧ ∀ rest, beAt (part ++ (gap ++ (toBe 8 seq ++
      (toBe 8 timestamp ++ rest)))) 8 8 ≠ timestamp := by
  by_cases short : part.length < 8
  · -- the timestamp is pushed out by at least one byte, so its last byte is not read
    refine ⟨1, by decide, fun rest => ?_⟩
    have positive := List.length_pos_iff.mpr some
    obtain ⟨shift, shift_eq⟩ : ∃ shift, 7 - part.length = shift := ⟨_, rfl⟩
    have zeros : toBe 8 1 =
        List.replicate shift 0 ++ ([0] ++ (List.replicate (6 - shift) 0 ++ [1])) := by
      have all : ∀ n < 7, toBe 8 1 =
          List.replicate n 0 ++ ([0] ++ (List.replicate (6 - n) 0 ++ [1])) := by decide
      exact all shift (by omega)
    have front : (part ++ (toBe 8 seq ++ List.replicate shift 0)).length = 15 := by
      simp only [List.length_append, toBe_length, List.length_replicate]
      omega
    have field : slice (part ++ (gap ++ (toBe 8 seq ++ (toBe 8 1 ++ rest)))) 8 16 =
        (part ++ (toBe 8 seq ++ List.replicate shift 0)).drop 8 ++ [0] := by
      have buf : part ++ (gap ++ (toBe 8 seq ++ (toBe 8 1 ++ rest))) =
          ((part ++ (toBe 8 seq ++ List.replicate shift 0)) ++ [0]) ++
            (List.replicate (6 - shift) 0 ++ ([1] ++ rest)) := by
        rw [near short, zeros]
        simp only [List.append_assoc, List.nil_append]
      rw [slice, buf, List.take_left' (by rw [List.length_append, front, List.length_singleton]),
        List.drop_append_of_le_length (by omega)]
    rw [beAt, field, beNat_concat]
    simp only [UInt8.toNat_zero]
    omega
  · -- the place of the timestamp is taken before the new one is written
    have taken : ∀ timestamp rest, beAt (part ++ (gap ++ (toBe 8 seq ++
        (toBe 8 timestamp ++ rest)))) 8 8 = beAt (part ++ (gap ++ toBe 8 seq)) 8 8 := by
      intro timestamp rest
      have buf : part ++ (gap ++ (toBe 8 seq ++ (toBe 8 timestamp ++ rest))) =
          (part ++ (gap ++ toBe 8 seq)) ++ (toBe 8 timestamp ++ rest) := by
        simp only [List.append_assoc]
      rw [buf, beAt_append (by simp only [List.length_append, toBe_length]; omega)]
    by_cases zero : beAt (part ++ (gap ++ toBe 8 seq)) 8 8 = 0
    · refine ⟨1, by decide, fun rest => ?_⟩
      rw [taken, zero]
      decide
    · refine ⟨0, by decide, fun rest => ?_⟩
      rwa [taken]

theorem exists_not_takes {base : ℕ} {kept : List Entry} {part : Bytes} {pos : ℕ}
    (fits : base + kept.length < 2 ^ 64) (some : part ≠ [])
    (past : (logFrom base kept ++ part).length ≤ pos)
    (near : part.length < 16 → pos = (logFrom base kept ++ part).length) :
    ∃ entry, ¬Takes base kept (indexed base kept ⟨logFrom base kept ++ part, pos⟩) entry := by
  obtain ⟨gap, gap_eq⟩ :
      ∃ gap : Bytes, List.replicate (pos - (logFrom base kept ++ part).length) 0 = gap := ⟨_, rfl⟩
  have close : part.length < 8 → gap = [] := by
    intro short
    rw [← gap_eq, near (by omega), Nat.sub_self, List.replicate_zero]
  obtain ⟨timestamp, small, different⟩ := exists_lost_timestamp some close (base + kept.length)
  refine ⟨stamped timestamp small, fun takes => ?_⟩
  have wrote := @writeAll_past ⟨logFrom base kept ++ part, pos⟩ _
    (encode_ne_nil (stamped timestamp small) (base + kept.length)) past
  rw [gap_eq] at wrote
  have now := takes.now
  rw [append_indexed base kept _ (by rw [Nat.mod_eq_of_lt fits]; exact wrote), read_at] at now
  cases outcome : readRecord.run ⟨logFrom base kept ++ part ++
      (gap ++ (stamped timestamp small).encode (base + kept.length)), totalSize kept⟩ with
  | error e f =>
    rw [outcome] at now
    cases now
  | ok record f =>
    rw [outcome] at now
    cases now
    have stamp := (readRecord_eq_ok outcome).2
    rw [← beAt_drop, List.append_assoc, List.drop_left' (logFrom_length base kept)] at stamp
    exact different _ stamp.symm

theorem not_recovers {base : ℕ} {entries kept : List Entry} {part : Bytes}
    (fits : base + kept.length < 2 ^ 64) (some : part ≠ [])
    (kept_eq : whole (logFrom base kept ++ part).length entries = kept) :
    ¬Recovers base entries (logFrom base kept ++ part) := by
  intro recovers
  cases open_torn base kept part with
  | inl longer =>
    rw [recovers.index, kept_eq, indexFrom_length] at longer
    omega
  | inr moved =>
    obtain ⟨pos, past, near, opened⟩ := moved
    obtain ⟨entry, lost⟩ := exists_not_takes fits some past near
    have takes := recovers.takes entry
    rw [kept_eq, opened] at takes
    exact lost takes

theorem recovers_log {base : ℕ} {entries kept : List Entry} (fits : base + kept.length < 2 ^ 64)
    (kept_eq : whole (logFrom base kept).length entries = kept) :
    Recovers base entries (logFrom base kept) := by
  have data : (File.between (logFrom base kept) []).data = logFrom base kept := List.append_nil _
  constructor
  · rw [open_log, kept_eq]
    rfl
  · intro reads
    rw [open_log, kept_eq, readAll_log base kept data]
  · intro entry
    rw [kept_eq]
    exact takes_log fits entry

theorem totalSize_take_le (entries : List Entry) {k n : ℕ} (le : k ≤ n) :
    totalSize (entries.take k) ≤ totalSize (entries.take n) := by
  have split : entries.take n = entries.take k ++ (entries.take n).drop k := by
    have := List.take_append_drop k (entries.take n)
    rwa [List.take_take, Nat.min_eq_left le, eq_comm] at this
  rw [split, totalSize_append]
  exact Nat.le_add_right ..

/-- A log that was cut off anywhere is recovered exactly if the cut is between two
records. -/
theorem torn_log_recovers_iff (base : ℕ) (entries : List Entry)
    (fits : base + entries.length < 2 ^ 64) (torn : Bytes) (cut : torn <+: logFrom base entries) :
    Recovers base entries torn ↔ ∃ k, torn = logFrom base (entries.take k) := by
  obtain ⟨rest, part, split, data, cutPart⟩ := cut_log cut
  obtain ⟨kept, kept_eq⟩ : ∃ kept, whole torn.length entries = kept := ⟨_, rfl⟩
  rw [kept_eq] at split data
  have small : base + kept.length < 2 ^ 64 := by
    rw [split, List.length_append] at fits
    omega
  by_cases boundary : part = []
  · rw [boundary, List.append_nil] at data
    subst data
    refine iff_of_true (recovers_log small kept_eq) ⟨kept.length, ?_⟩
    rw [split, List.take_left]
  · obtain ⟨next, more, rfl, shorter⟩ := cutPart.resolve_left boundary
    subst data
    refine iff_of_false (not_recovers small boundary kept_eq) ?_
    rintro ⟨k, same⟩
    -- the length of the torn log lies strictly between those of two logs of whole records
    have length := congrArg List.length same
    have positive := List.length_pos_iff.mpr boundary
    have here : totalSize (entries.take kept.length) = totalSize kept := by
      rw [split, List.take_left]
    have after : totalSize (entries.take (kept.length + 1)) = totalSize kept + size next := by
      rw [split, List.append_cons, List.take_left' (by simp), totalSize_append]
      simp [totalSize]
    rw [List.length_append, logFrom_length, logFrom_length] at length
    by_cases few : k ≤ kept.length
    · have := totalSize_take_le entries few
      omega
    · have := totalSize_take_le entries (show kept.length + 1 ≤ k by omega)
      omega

private def greeting : Entry := sample [104, 105] 13 (by decide) (by decide)
private def farewell : Entry := sample [98, 121, 101] 13 (by decide) (by decide)

private def tornAt (len : ℕ) : Bytes := (logFrom 1 [greeting]).take len

set_option maxRecDepth 4000 in
/-- A record without its last payload byte is indexed, cannot be read, and keeps its
sequence number from the next one. After a cut behind the subject, the next record has
the right number, but what is read under it is not that record. -/
theorem torn_record_is_not_dropped :
    (whole 26 [greeting] = [] ∧ (Segment.openPath (some (tornAt 26)) 1).len = 1 ∧
      ((Segment.openPath (some (tornAt 26)) 1).read 1).1 = .error .unexpectedEof ∧
      ((Segment.openPath (some (tornAt 26)) 1).appendEntry farewell).1 = .ok 2) ∧
    (whole 19 [greeting] = [] ∧ (Segment.openPath (some (tornAt 19)) 1).len = 0 ∧
      ((Segment.openPath (some (tornAt 19)) 1).appendEntry farewell).1 = .ok 1 ∧
      (((Segment.openPath (some (tornAt 19)) 1).appendEntry farewell).2.read 1).1 ≠
        .ok (some (farewell.record 1))) := by
  decide

theorem cut_after_the_first_record :
    tornAt 27 = logFrom 1 ([greeting, farewell].take 1) ∧
    Recovers 1 [greeting, farewell] (tornAt 27) := by
  have boundary : tornAt 27 = logFrom 1 ([greeting, farewell].take 1) := by decide
  have cut : tornAt 27 <+: logFrom 1 [greeting, farewell] := by decide
  exact ⟨boundary, (torn_log_recovers_iff 1 _ (by decide) _ cut).mpr ⟨1, boundary⟩⟩

end ZetMQ.TornSegments
