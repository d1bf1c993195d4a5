import ZetMQ.SegmentLayout

/-! Appends and reads of a segment in any order. A read leaves the cursor behind the
record it read; only behind the last one is that where the index says the next record
will go. An append anywhere else overwrites a record, and nothing that follows can
repair it. -/
namespace ZetMQ.SegmentRuns
open Utf8Text ByteBuffer FileCursor Segments SegmentLayout

inductive SegmentOp where
  | append (entry : Entry)
  | read (sequence : UInt64)

def SegmentOp.apply (segment : Segment) : SegmentOp → Segment
  | .append entry => (segment.appendEntry entry).2
  | .read s => (segment.read s.toNat).2

def run (segment : Segment) (ops : List SegmentOp) : Segment := ops.foldl SegmentOp.apply segment

def SegmentOp.entry? : SegmentOp → Option Entry
  | .append entry => some entry
  | .read _ => none

def appended (ops : List SegmentOp) : List Entry := ops.filterMap SegmentOp.entry?

def Faithful (base : ℕ) (entries : List Entry) (segment : Segment) : Prop :=
  ∀ s : UInt64, (segment.read s.toNat).1 = .ok (expected base entries s.toNat)

/-- No append follows a read of any but the newest record, unless the newest was read
again in between: `count` records are there, and `atEnd` says that the last read that
found a record found the newest. -/
def Orderly (base : ℕ) : ℕ → Bool → List SegmentOp → Prop
  | _, _, [] => True
  | count, atEnd, .append _ :: ops => atEnd = true ∧ Orderly base (count + 1) true ops
  | count, atEnd, .read s :: ops =>
    Orderly base count
      (if base ≤ s.toNat ∧ s.toNat < base + count then s.toNat + 1 = base + count else atEnd) ops

theorem encode_ne_nil (entry : Entry) (seq : ℕ) : entry.encode seq ≠ [] := by
  intro empty
  have length := encode_length entry seq
  rw [empty, List.length_nil, size] at length
  omega

theorem eight_le_size (entry : Entry) : 8 ≤ size entry := by
  unfold size
  omega

theorem seq_prefix_encode (entry : Entry) (seq : ℕ) : toBe 8 seq <+: entry.encode seq :=
  List.prefix_append ..

variable {base : ℕ}

structure Intact (base : ℕ) (done rest : List Entry) (segment : Segment) : Prop where
  behind : done = [] → rest = []
  segment : segment = indexed base (done ++ rest) ⟨logFrom base (done ++ rest), totalSize done⟩

/-- All is well before the record after `before`, whose sequence number was
overwritten; and the cursor is at the end of an earlier record, or behind that number. -/
structure Overwritten (base : ℕ) (before : List Entry) (file : File) : Prop where
  seq : ∃ seq : Bytes, seq.length = 8 ∧ beNat seq ≠ base + before.length ∧
    logFrom base before ++ seq <+: file.data
  cursor : (∃ done rest, done ≠ [] ∧ before = done ++ rest ∧ file.pos = totalSize done) ∨
    totalSize before + 8 ≤ file.pos

def Broken (base : ℕ) (entries : List Entry) (segment : Segment) : Prop :=
  ∃ before entry after file, entries = before ++ entry :: after ∧
    segment = indexed base entries file ∧ Overwritten base before file

theorem intact_start : Intact base [] [] (Segment.openPath none base) := ⟨fun _ => rfl, rfl⟩

variable {done entries rest : List Entry} {segment : Segment}

section Append
variable (entry : Entry)

theorem Intact.append_end (intact : Intact base done [] segment) :
    Intact base (done ++ [entry]) [] (segment.appendEntry entry).2 := by
  have file : (⟨logFrom base done, totalSize done⟩ : File) = .between (logFrom base done) [] := by
    rw [File.between, List.append_nil, logFrom_length]
  refine ⟨fun none => by simp at none, ?_⟩
  have segment := intact.segment
  rw [List.append_nil] at segment
  rw [segment, file, SegmentLayout.append_end, List.append_nil, File.between, List.append_nil,
    logFrom_length]

theorem overwrites {file : File} {rest : Bytes} {next : Entry} {more : List Entry}
    (fits : base + entries.length < 2 ^ 64) (split : entries = done ++ next :: more)
    (data : file.data = logFrom base done ++ rest) (cursor : file.pos = totalSize done) :
    Broken base (entries ++ [entry]) ((indexed base entries file).appendEntry entry).2 := by
  have there : file = .between (logFrom base done) rest := by
    rw [File.between, ← data, logFrom_length, ← cursor]
  have wrote := writeAll_between (logFrom base done) rest
    (encode_ne_nil entry (base + entries.length))
  rw [append_indexed base entries entry (by rw [Nat.mod_eq_of_lt fits, there]; exact wrote)]
  refine ⟨done, next, more ++ [entry], _, by simp [split], rfl, ⟨?_, .inr ?_⟩⟩
  · refine ⟨toBe 8 (base + entries.length), toBe_length .., ?_, ?_⟩
    · rw [beNat_toBe (by simpa using fits), split, List.length_append, List.length_cons]
      omega
    · exact ((List.prefix_append_right_inj _).mpr (seq_prefix_encode entry _)).trans
        (List.prefix_append ..)
  · have := eight_le_size entry
    simp only [File.between, List.length_append, logFrom_length, encode_length]
    omega

theorem Intact.append_middle (intact : Intact base done rest segment) (middle : rest ≠ [])
    (fits : base + (done ++ rest).length < 2 ^ 64) :
    Broken base (done ++ rest ++ [entry]) (segment.appendEntry entry).2 := by
  obtain ⟨next, more, rfl⟩ := List.exists_cons_of_ne_nil middle
  rw [intact.segment]
  exact overwrites entry fits rfl (logFrom_append base done (next :: more)) rfl

theorem Broken.append (broken : Broken base entries segment)
    (fits : base + entries.length < 2 ^ 64) :
    Broken base (entries ++ [entry]) (segment.appendEntry entry).2 := by
  obtain ⟨before, overwritten, after, file, rfl, rfl, ⟨seq, length, wrong, there⟩, cursor⟩ := broken
  cases cursor with
  | inl earlier =>
    obtain ⟨done, rest, _, rfl, pos⟩ := earlier
    obtain ⟨tail, data⟩ := there
    rw [logFrom_append, List.append_assoc, List.append_assoc] at data
    obtain ⟨next, more, later⟩ : ∃ next more, rest ++ overwritten :: after = next :: more :=
      List.exists_cons_of_ne_nil (by simp)
    exact overwrites entry fits (by rw [List.append_assoc, later]) data.symm pos
  | inr behind =>
    have long : (logFrom base before ++ seq).length ≤ file.pos := by
      rwa [List.length_append, logFrom_length, length]
    obtain ⟨data, kept, _, wrote⟩ := writeAll_keeps (encode_ne_nil entry _) there long
    rw [append_indexed base _ entry wrote]
    refine ⟨before, overwritten, after ++ [entry], _, by simp, rfl, ⟨seq, length, wrong, kept⟩,
      .inr ?_⟩
    exact behind.trans (Nat.le_add_right ..)

end Append

section Read

theorem Intact.read (intact : Intact base done rest segment) (s : UInt64) :
    ∃ done' rest', done' ++ rest' = done ++ rest ∧
      rest'.isEmpty = (if base ≤ s.toNat ∧ s.toNat < base + (done ++ rest).length
        then decide (s.toNat + 1 = base + (done ++ rest).length) else rest.isEmpty) ∧
      Intact base done' rest' (segment.read s.toNat).2 := by
  by_cases inside : base ≤ s.toNat ∧ s.toNat < base + (done ++ rest).length
  · obtain ⟨i, at_i⟩ : ∃ i, s.toNat = base + i := ⟨s.toNat - base, by omega⟩
    obtain ⟨before, entry, after, split, length⟩ :=
      exists_split (show i < (done ++ rest).length by omega)
    have fits : base + before.length < 2 ^ 64 := by
      rw [length, ← at_i]
      exact s.toNat_lt
    have data : logFrom base (before ++ entry :: after) = logFrom base before ++
        (entry.encode (base + before.length) ++ logFrom (base + before.length + 1) after) := by
      rw [logFrom_append, logFrom, Nat.mod_eq_of_lt fits]
    refine ⟨before ++ [entry], after, by simp [split], ?_, ⟨by simp, ?_⟩⟩
    · rw [if_pos inside, split, at_i, ← length]
      cases after with
      | nil => simp [Nat.add_assoc]
      | cons next after => simp [Nat.add_assoc]
    · rw [intact.segment, at_i, ← length, split, read_inside base before after entry fits data,
        totalSize_append, totalSize_cons]
      simp [totalSize]
  · refine ⟨done, rest, rfl, (if_neg inside).symm, ?_⟩
    rw [intact.segment, read_outside base _ _ (by omega)]
    exact ⟨intact.behind, rfl⟩

theorem Broken.read (broken : Broken base entries segment) (s : UInt64) :
    Broken base entries (segment.read s.toNat).2 := by
  obtain ⟨before, overwritten, after, file, rfl, rfl, ⟨seq, length, wrong, there⟩, cursor⟩ := broken
  by_cases outside : s.toNat < base ∨ base + (before ++ overwritten :: after).length ≤ s.toNat
  · rw [read_outside base _ _ outside]
    exact ⟨before, overwritten, after, file, rfl, rfl, ⟨seq, length, wrong, there⟩, cursor⟩
  · obtain ⟨i, at_i⟩ : ∃ i, s.toNat = base + i := ⟨s.toNat - base, by omega⟩
    by_cases earlier : i < before.length
    · -- a record before the overwritten one is read as it was written
      obtain ⟨first, entry, more, rfl, position⟩ := exists_split earlier
      have fits : base + first.length < 2 ^ 64 := by
        rw [position, ← at_i]
        exact s.toNat_lt
      obtain ⟨tail, data⟩ := there
      rw [logFrom_append, logFrom, Nat.mod_eq_of_lt fits] at data
      simp only [List.append_assoc] at data
      rw [at_i, ← position, List.append_assoc, List.cons_append,
        read_inside base first _ entry fits data.symm]
      refine ⟨first ++ entry :: more, overwritten, after, _, by simp, rfl,
        ⟨seq, length, wrong, ?_⟩, .inl ⟨first ++ [entry], more, by simp, by simp, ?_⟩⟩
      · rw [logFrom_append, logFrom, Nat.mod_eq_of_lt fits, ← data]
        exact ⟨tail, by simp only [List.append_assoc]⟩
      · simp [totalSize]
    · -- any other is read from behind the overwritten one on
      obtain ⟨skipped, entry, more, split, position⟩ :=
        exists_split (show i - before.length < (overwritten :: after).length by
          simp only [List.length_append] at outside
          omega)
      have place : base + i = base + (before ++ skipped).length := by
        rw [List.length_append, position]
        omega
      have whole : before ++ overwritten :: after = (before ++ skipped) ++ entry :: more := by
        rw [split, List.append_assoc]
      have long : totalSize before + 8 ≤ file.data.length := by
        have := there.length_le
        rwa [List.length_append, logFrom_length, length] at this
      obtain ⟨pos, behind, outcome⟩ := @readRecord_behind
        ⟨file.data, totalSize (before ++ skipped)⟩ (totalSize before) long (by
          simp only [totalSize_append]
          omega)
      have moved : ((indexed base (before ++ overwritten :: after) file).read s.toNat).2 =
          indexed base (before ++ overwritten :: after) ⟨file.data, pos⟩ := by
        rw [at_i, place, whole, read_at]
        cases outcome with
        | inl ok =>
          obtain ⟨record, ok⟩ := ok
          rw [ok]
        | inr failed =>
          obtain ⟨_, e, failed⟩ := failed
          rw [failed]
      rw [moved]
      exact ⟨before, overwritten, after, _, rfl, rfl, ⟨seq, length, wrong, there⟩, .inr behind⟩

theorem Broken.not_faithful (broken : Broken base entries segment)
    (fits : base + entries.length ≤ 2 ^ 64) : ¬Faithful base entries segment := by
  obtain ⟨before, overwritten, after, file, rfl, rfl, ⟨seq, length, wrong, there⟩, _⟩ := broken
  intro faithful
  have small : base + before.length < 2 ^ 64 := by
    simp only [List.length_append, List.length_cons] at fits
    omega
  have word : (UInt64.ofNat (base + before.length)).toNat = base + before.length :=
    UInt64.toNat_ofNat_of_lt' small
  have result := faithful (UInt64.ofNat (base + before.length))
  rw [word, read_at] at result
  have found : expected base (before ++ overwritten :: after) (base + before.length) =
      some (overwritten.record (base + before.length)) := by
    simp [expected]
  rw [found] at result
  cases outcome : readRecord.run ⟨file.data, totalSize before⟩ with
  | error e f => simp [outcome] at result
  | ok record f =>
    simp only [outcome, Except.ok.injEq, Option.some.injEq] at result
    obtain ⟨tail, data⟩ := there
    have sequence := (readRecord_eq_ok outcome).1
    have there : beAt file.data (totalSize before) 8 = beNat seq := by
      rw [beAt, slice_written data.symm (logFrom_length ..) (by rw [length])]
    rw [result] at sequence
    exact wrong (there.symm.trans sequence.symm)

theorem Intact.faithful (intact : Intact base done rest segment) :
    Faithful base (done ++ rest) segment := by
  intro s
  obtain ⟨file, _, result⟩ := @read_log base (done ++ rest)
    ⟨logFrom base (done ++ rest), totalSize done⟩ rfl s
  rw [intact.segment, result]

end Read

theorem appended_append (entry : Entry) (ops : List SegmentOp) :
    appended (.append entry :: ops) = entry :: appended ops := rfl

theorem appended_read (s : UInt64) (ops : List SegmentOp) :
    appended (.read s :: ops) = appended ops := rfl

theorem broken_run (ops : List SegmentOp) (broken : Broken base entries segment)
    (fits : base + (entries ++ appended ops).length ≤ 2 ^ 64) :
    Broken base (entries ++ appended ops) (run segment ops) := by
  induction ops generalizing entries segment with
  | nil => simpa [appended, run] using broken
  | cons op ops ih =>
    cases op with
    | append entry =>
      rw [appended_append, List.append_cons] at fits ⊢
      refine ih (broken.append entry ?_) fits
      simp only [List.length_append, List.length_singleton] at fits
      omega
    | read s => exact ih (broken.read s) fits

theorem intact_run (ops : List SegmentOp) (intact : Intact base done rest segment)
    (fits : base + (done ++ rest ++ appended ops).length ≤ 2 ^ 64) :
    Faithful base (done ++ rest ++ appended ops) (run segment ops) ↔
      Orderly base (done ++ rest).length rest.isEmpty ops := by
  induction ops generalizing done rest segment with
  | nil =>
    rw [show appended [] = [] from rfl, List.append_nil]
    exact iff_of_true intact.faithful trivial
  | cons op ops ih =>
    cases op with
    | append entry =>
      rw [appended_append, List.append_cons] at fits ⊢
      cases rest with
      | nil =>
        rw [List.append_nil] at fits ⊢
        have later := ih (intact.append_end entry) (by rwa [List.append_nil])
        rw [List.append_nil, List.length_append, List.length_singleton] at later
        exact later.trans (by simp [Orderly])
      | cons next more =>
        have broken := intact.append_middle entry (by simp) (by
          simp only [List.length_append, List.length_singleton] at fits ⊢
          omega)
        refine iff_of_false ((broken_run ops broken fits).not_faithful fits) ?_
        simp [Orderly]
    | read s =>
      obtain ⟨done', rest', same, atEnd, intact'⟩ := intact.read s
      rw [appended_read, ← same] at fits ⊢
      have later := ih intact' fits
      rw [atEnd, ← same] at later
      exact later

/-- A fresh segment gives back everything appended to it exactly if no append came
while the cursor was behind an older record than the newest. -/
theorem segment_faithful_iff (base : ℕ) (ops : List SegmentOp)
    (fits : base + (appended ops).length ≤ 2 ^ 64) :
    Faithful base (appended ops) (run (Segment.openPath none base) ops) ↔
      Orderly base 0 true ops :=
  intact_run ops intact_start (by simpa using fits)

def sample (payload : Bytes) (timestamp : ℕ) (fits : payload.length < 2 ^ 32)
    (stamp : timestamp < 2 ^ 64) : Entry :=
  .withoutReply "a".toList payload timestamp (by decide) fits stamp

private def first : Entry := sample [1] 10 (by decide) (by decide)
private def second : Entry := sample [2] 11 (by decide) (by decide)
private def third : Entry := sample [3] 12 (by decide) (by decide)

set_option maxRecDepth 4000 in
/-- An append after a read of the first of two records overwrites the second. -/
theorem append_after_read_overwrites :
    ((run (Segment.openPath none 1) [.append first, .append second, .read 1,
      .append third]).read 2).1 = .ok (some (third.record 3)) ∧
    expected 1 [first, second, third] 2 = some (second.record 2) := by
  decide

theorem append_after_reading_the_newest :
    Orderly 1 0 true [.append first, .append second, .read 1, .read 2, .append third] ∧
    Faithful 1 [first, second, third] (run (Segment.openPath none 1)
      [.append first, .append second, .read 1, .read 2, .append third]) := by
  have orderly : Orderly 1 0 true
      [.append first, .append second, .read 1, .read 2, .append third] := by
    simp [Orderly]
  exact ⟨orderly, (segment_faithful_iff 1 _ (by decide)).mpr orderly⟩

end ZetMQ.SegmentRuns
