import ZetMQ.Segments

/-! The layout of a segment. The encoder, the reader and the scan that rebuilds the
index describe the same records; so a log is read back record by record, and scanning
it finds every record where it was written. -/
namespace ZetMQ.SegmentLayout
open Utf8Text Utf8Codec ByteBuffer FileCursor Segments

def replyText (replyTo : Option Str) : Bytes := (replyTo.map encode).getD []

theorem replyBytes_eq (replyTo : Option Str) :
    replyBytes replyTo = toBe 2 (replyText replyTo).length ++ replyText replyTo := by
  cases replyTo with
  | none => simp [replyBytes, replyText]
  | some reply => simp [replyBytes, replyText]

def size (entry : Entry) : ℕ :=
  8 + 8 + 2 + (encode entry.subject).length + 2 + (replyText entry.replyTo).length + 4 +
    entry.payload.length

theorem encode_length (entry : Entry) (seq : ℕ) : (entry.encode seq).length = size entry := by
  simp only [Entry.encode, recordBytes, replyBytes_eq, List.length_append, toBe_length, size]
  omega

theorem replyText_fits (entry : Entry) : (replyText entry.replyTo).length < 256 ^ 2 := by
  cases reply : entry.replyTo with
  | none => simp [replyText]
  | some text => simpa [replyText] using (entry.reply_fits text reply).2

section Record
variable (front rest : Bytes) (entry : Entry)

theorem readString_between {s : Str} (fits : (encode s).length < 256 ^ 2) :
    readString.run (.between front (toBe 2 (encode s).length ++ (encode s ++ rest))) =
      .ok s (.between (front ++ toBe 2 (encode s).length ++ encode s) rest) := by
  rw [readString, bind_ok (readBe_between _ _ fits), bind_ok (readExact_between _ _ _),
    fromUtf8Lossy_encode]
  rfl

theorem readOptionalString_between (fits : ∀ reply, entry.replyTo = some reply →
      reply ≠ [] ∧ (encode reply).length < 2 ^ 16) :
    readOptionalString.run (.between front (replyBytes entry.replyTo ++ rest)) =
      .ok entry.replyTo (.between (front ++ replyBytes entry.replyTo) rest) := by
  cases reply : entry.replyTo with
  | none =>
    have found := @readString_between front rest [] (by simp [encode])
    have empty : encode [] = [] := rfl
    simp only [empty, List.length_nil, List.nil_append, List.append_nil] at found
    rw [readOptionalString, replyBytes, bind_ok found]
    rfl
  | some text =>
    obtain ⟨filled, short⟩ := fits text reply
    rw [readOptionalString, replyBytes, List.append_assoc,
      bind_ok (readString_between _ _ (by simpa using short))]
    have some : text.isEmpty = false := by simpa using filled
    rw [some, List.append_assoc]
    rfl

theorem entry_fits :
    entry.timestamp < 256 ^ 8 ∧ (encode entry.subject).length < 256 ^ 2 ∧
      entry.payload.length < 256 ^ 4 :=
  ⟨by simpa using entry.timestamp_fits, by simpa using entry.subject_fits,
    by simpa using entry.payload_fits⟩

theorem readRecord_between {seq : ℕ} (fits : seq < 2 ^ 64) :
    readRecord.run (.between front (entry.encode seq ++ rest)) =
      .ok (entry.record seq) (.between (front ++ entry.encode seq) rest) := by
  have seqFits : seq < 256 ^ 8 := by simpa using fits
  obtain ⟨stampFits, subjectFits, payloadFits⟩ := entry_fits entry
  simp only [Entry.encode, recordBytes, List.append_assoc]
  rw [readRecord, readU64, readU32, bind_ok (readBe_between _ _ seqFits),
    bind_ok (readBe_between _ _ stampFits), bind_ok (readString_between _ _ subjectFits),
    bind_ok (readOptionalString_between _ _ entry entry.reply_fits),
    bind_ok (readBe_between _ _ payloadFits), bind_ok (readExact_between _ _ _)]
  simp only [List.append_assoc]
  rfl

theorem skipReply_between (reply : Bytes) :
    (skipReply reply.length).run (.between front (reply ++ rest)) =
      .ok () (.between (front ++ reply) rest) := by
  unfold skipReply
  split
  · exact seekCurrent_between ..
  · rename_i empty
    have none : reply = [] := List.eq_nil_of_length_eq_zero (by omega)
    rw [none, List.append_nil]
    rfl

theorem scanRecord_between (seq : ℕ) :
    scanRecord.run (.between front (entry.encode seq ++ rest)) =
      .ok (entry.timestamp, size entry) (.between (front ++ entry.encode seq) rest) := by
  obtain ⟨stampFits, subjectFits, payloadFits⟩ := entry_fits entry
  have header := readExact_between front (toBe 2 (encode entry.subject).length ++
    (encode entry.subject ++ (replyBytes entry.replyTo ++ (toBe 4 entry.payload.length ++
      (entry.payload ++ rest))))) (toBe 8 seq ++ toBe 8 entry.timestamp)
  have stamp : beAt (toBe 8 seq ++ toBe 8 entry.timestamp) 8 8 = entry.timestamp :=
    beAt_written (List.append_nil _).symm (toBe_length 8 seq) stampFits
  rw [show (toBe 8 seq ++ toBe 8 entry.timestamp).length = 16 by simp [toBe_length],
    List.append_assoc] at header
  simp only [Entry.encode, recordBytes, List.append_assoc]
  rw [scanRecord, bind_ok header, stamp, bind_ok (readBe_between _ _ subjectFits),
    bind_ok (seekCurrent_between _ _ _)]
  simp only [replyBytes_eq, List.append_assoc]
  rw [bind_ok (readBe_between _ _ (replyText_fits entry)), bind_ok (skipReply_between _ _ _),
    bind_ok (readBe_between _ _ payloadFits), bind_ok (seekCurrent_between _ _ _)]
  simp only [List.append_assoc]
  rfl

end Record

section Outcomes

theorem forward_readString : Forward readString :=
  (forward_readBe 2).bind fun len => (forward_readExact len).bind fun _ => forward_pure _

theorem forward_readOptionalString : Forward readOptionalString := by
  refine forward_readString.bind fun s => ?_
  split
  · exact forward_pure _
  · exact forward_pure _

theorem readRecord_behind {f : File} {k : ℕ} (long : k + 8 ≤ f.data.length) (from_ : k ≤ f.pos) :
    ∃ pos, k + 8 ≤ pos ∧ ((∃ record, readRecord.run f = .ok record ⟨f.data, pos⟩) ∨
      f.data.length ≤ pos ∧ ∃ e, readRecord.run f = .error e ⟨f.data, pos⟩) := by
  by_cases inside : f.pos + 8 ≤ f.data.length
  · have rest : ∀ seq, Forward (do
        let timestamp ← readU64
        let subject ← readString
        let replyTo ← readOptionalString
        let payloadLen ← readU32
        let payload ← readExact payloadLen
        pure (⟨seq, timestamp, subject, replyTo, payload⟩ : StoredRecord)) := fun seq =>
      (forward_readBe 8).bind fun _ => forward_readString.bind fun _ =>
        forward_readOptionalString.bind fun _ => (forward_readBe 4).bind fun len =>
          (forward_readExact len).bind fun _ => forward_pure _
    obtain ⟨pos, later, outcome⟩ := rest (beAt f.data f.pos 8) ⟨f.data, f.pos + 8⟩
    have first : readU64.run f = .ok (beAt f.data f.pos 8) ⟨f.data, f.pos + 8⟩ :=
      readBe_inside inside
    rw [readRecord, bind_ok first]
    exact ⟨pos, by simp only at later; omega, outcome⟩
  · refine ⟨max f.pos f.data.length, by omega, .inr ⟨le_max_right .., .unexpectedEof, ?_⟩⟩
    exact bind_error (readBe_short (by omega) (by omega))

theorem readRecord_eq_ok {f f' : File} {record : StoredRecord}
    (done : readRecord.run f = .ok record f') :
    record.sequence = beAt f.data f.pos 8 ∧ record.timestamp = beAt f.data (f.pos + 8) 8 := by
  obtain ⟨seq, f₁, first, done⟩ := bind_eq_ok done
  obtain ⟨rfl, rfl⟩ := readBe_eq_ok first
  obtain ⟨timestamp, f₂, second, done⟩ := bind_eq_ok done
  obtain ⟨rfl, rfl⟩ := readBe_eq_ok second
  obtain ⟨subject, f₃, _, done⟩ := bind_eq_ok done
  obtain ⟨replyTo, f₄, _, done⟩ := bind_eq_ok done
  obtain ⟨payloadLen, f₅, _, done⟩ := bind_eq_ok done
  obtain ⟨payload, f₆, _, done⟩ := bind_eq_ok done
  cases done
  exact ⟨rfl, rfl⟩

theorem forward_skipReply (replyLen : ℕ) : Forward (skipReply replyLen) := by
  unfold skipReply
  split
  · exact forward_seekCurrent replyLen
  · exact forward_pure ()

theorem forward_scanRecord : Forward scanRecord :=
  (forward_readExact 16).bind fun _ => (forward_readBe 2).bind fun _ =>
    (forward_seekCurrent _).bind fun _ => (forward_readBe 2).bind fun replyLen =>
      (forward_skipReply replyLen).bind fun _ => (forward_readBe 4).bind fun _ =>
        (forward_seekCurrent _).bind fun _ => forward_pure _

end Outcomes

/-- The bytes of records whose sequence numbers begin with `seq`. -/
def logFrom (seq : ℕ) : List Entry → Bytes
  | [] => []
  | entry :: entries => entry.encode (seq % 2 ^ 64) ++ logFrom (seq + 1) entries

/-- The index of records that begin at `offset`. -/
def indexFrom (offset : ℕ) : List Entry → List IndexEntry
  | [] => []
  | entry :: entries => ⟨offset, entry.timestamp⟩ :: indexFrom (offset + size entry) entries

def totalSize (entries : List Entry) : ℕ := (entries.map size).sum

theorem logFrom_append (seq : ℕ) (first second : List Entry) :
    logFrom seq (first ++ second) = logFrom seq first ++ logFrom (seq + first.length) second := by
  induction first generalizing seq with
  | nil => rfl
  | cons entry first ih =>
    rw [List.cons_append, logFrom, ih, logFrom, List.append_assoc, List.length_cons,
      show seq + 1 + first.length = seq + (first.length + 1) by omega]

theorem totalSize_cons (entry : Entry) (entries : List Entry) :
    totalSize (entry :: entries) = size entry + totalSize entries := by
  rw [totalSize, List.map_cons, List.sum_cons, totalSize]

theorem logFrom_length (seq : ℕ) (entries : List Entry) :
    (logFrom seq entries).length = totalSize entries := by
  induction entries generalizing seq with
  | nil => rfl
  | cons entry entries ih =>
    rw [logFrom, List.length_append, encode_length, ih, totalSize_cons]

theorem totalSize_append (first second : List Entry) :
    totalSize (first ++ second) = totalSize first + totalSize second := by
  rw [totalSize, List.map_append, List.sum_append, totalSize, totalSize]

theorem indexFrom_append (offset : ℕ) (first second : List Entry) :
    indexFrom offset (first ++ second) =
      indexFrom offset first ++ indexFrom (offset + totalSize first) second := by
  induction first generalizing offset with
  | nil => rfl
  | cons entry first ih =>
    rw [List.cons_append, indexFrom, ih, indexFrom, List.cons_append, totalSize_cons,
      Nat.add_assoc]

theorem indexFrom_length (offset : ℕ) (entries : List Entry) :
    (indexFrom offset entries).length = entries.length := by
  induction entries generalizing offset with
  | nil => rfl
  | cons entry entries ih => rw [indexFrom, List.length_cons, ih, List.length_cons]

theorem length_le_totalSize (entries : List Entry) : entries.length ≤ totalSize entries := by
  induction entries with
  | nil => exact le_rfl
  | cons entry entries ih =>
    rw [totalSize_cons, List.length_cons]
    have : 0 < size entry := by
      unfold size
      omega
    omega

def indexed (base : ℕ) (entries : List Entry) (file : File) : Segment :=
  ⟨file, indexFrom 0 entries, base, totalSize entries⟩

/-- What reading a sequence number should give. -/
def expected (base : ℕ) (entries : List Entry) (s : ℕ) : Option StoredRecord :=
  if s < base then none else entries[s - base]?.map fun entry => entry.record s

section Indexed
variable (base : ℕ) (entries : List Entry)

theorem append_indexed (entry : Entry) {file file' : File}
    (wrote : (writeAll (entry.encode ((base + entries.length) % 2 ^ 64))).run file = .ok () file') :
    (indexed base entries file).appendEntry entry =
      (.ok ((base + entries.length) % 2 ^ 64), indexed base (entries ++ [entry]) file') := by
  have written := encode_length entry ((base + entries.length) % 2 ^ 64)
  simp only [Entry.encode] at written wrote
  simp only [Segment.appendEntry, Segment.append, indexed, indexFrom_length, wrote, written,
    indexFrom_append, indexFrom, Nat.zero_add, totalSize_append, totalSize_cons]
  rfl

theorem append_end (entry : Entry) :
    (indexed base entries (.between (logFrom base entries) [])).appendEntry entry =
      (.ok ((base + entries.length) % 2 ^ 64),
        indexed base (entries ++ [entry]) (.between (logFrom base (entries ++ [entry])) [])) := by
  rw [append_indexed base entries entry (writeAll_end _ _), logFrom_append, logFrom, logFrom,
    List.append_nil]

theorem read_outside (file : File) {s : ℕ} (outside : s < base ∨ base + entries.length ≤ s) :
    (indexed base entries file).read s = (.ok none, indexed base entries file) := by
  unfold Segment.read
  split
  · rfl
  · rename_i low
    have none : (indexed base entries file).index[s - (indexed base entries file).baseSequence]? =
        none := by
      refine List.getElem?_eq_none ?_
      simp only [indexed, indexFrom_length] at low ⊢
      omega
    rw [none]

theorem read_at (before after : List Entry) (entry : Entry) (file : File) :
    (indexed base (before ++ entry :: after) file).read (base + before.length) =
      match readRecord.run ⟨file.data, totalSize before⟩ with
      | .error e file => (.error e, indexed base (before ++ entry :: after) file)
      | .ok record file => (.ok (some record), indexed base (before ++ entry :: after) file) := by
  have found : (indexFrom 0 (before ++ entry :: after))[base + before.length - base]? =
      some ⟨totalSize before, entry.timestamp⟩ := by
    rw [indexFrom_append, List.getElem?_append_right (by rw [indexFrom_length]; omega)]
    simp [indexFrom_length, indexFrom]
  unfold Segment.read
  rw [if_neg (by simp [indexed])]
  simp only [indexed, found]
  rfl

theorem read_inside (before after : List Entry) (entry : Entry) {file : File}
    (fits : base + before.length < 2 ^ 64) {rest : Bytes}
    (data : file.data = logFrom base before ++ (entry.encode (base + before.length) ++ rest)) :
    (indexed base (before ++ entry :: after) file).read (base + before.length) =
      (.ok (some (entry.record (base + before.length))),
        indexed base (before ++ entry :: after)
          ⟨file.data, totalSize before + size entry⟩) := by
  have there : (⟨file.data, totalSize before⟩ : File) =
      .between (logFrom base before) (entry.encode (base + before.length) ++ rest) := by
    rw [File.between, data, logFrom_length]
  rw [read_at, there, readRecord_between _ _ entry fits]
  simp only [File.between, data, List.append_assoc, List.length_append, logFrom_length,
    encode_length]

end Indexed

theorem scan_log (entries : List Entry) (turns seq offset : ℕ) (index : List IndexEntry)
    (front tail : Bytes) :
    scan (entries.length + turns) offset index (.between front (logFrom seq entries ++ tail)) =
      scan turns (offset + totalSize entries) (index ++ indexFrom offset entries)
        (.between (front ++ logFrom seq entries) tail) := by
  induction entries generalizing seq offset index front with
  | nil => simp [logFrom, indexFrom, totalSize]
  | cons entry entries ih =>
    rw [List.length_cons, show entries.length + 1 + turns = entries.length + turns + 1 by omega,
      scan, logFrom, List.append_assoc, scanRecord_between]
    simp only [ih, totalSize_cons, indexFrom, List.append_assoc, Nat.add_assoc,
      List.singleton_append]

theorem scan_end {turns offset : ℕ} {index : List IndexEntry} {front tail : Bytes}
    (short : tail.length < 16) :
    scan (turns + 1) offset index (.between front tail) =
      (index, offset, .between (front ++ tail) []) := by
  have failed : scanRecord.run (.between front tail) =
      .error .unexpectedEof (.between (front ++ tail) []) := by
    have ended := @readExact_short (.between front tail) 16 (by omega) (by
      simp only [File.between, List.length_append]
      omega)
    rw [scanRecord, bind_error ended]
    simp [File.between]
  rw [scan, failed]

theorem open_log (base : ℕ) (entries : List Entry) :
    Segment.openPath (some (logFrom base entries)) base =
      indexed base entries (.between (logFrom base entries) []) := by
  have fuel : (logFrom base entries).length + 1 =
      entries.length + (totalSize entries - entries.length + 1) := by
    have := length_le_totalSize entries
    rw [logFrom_length]
    omega
  have scanned := scan_log entries (totalSize entries - entries.length + 1) base 0 [] [] []
  rw [scan_end (by simp)] at scanned
  simp only [List.append_nil, List.nil_append, Nat.zero_add] at scanned
  simp only [Segment.openPath, Segment.rebuildIndex, fuel]
  rw [show (⟨logFrom base entries, 0⟩ : File) = .between [] (logFrom base entries) from rfl,
    scanned]
  rfl

theorem appendAll_end (base : ℕ) (before entries : List Entry) :
    (indexed base before (.between (logFrom base before) [])).appendAll entries =
      indexed base (before ++ entries) (.between (logFrom base (before ++ entries)) []) := by
  induction entries generalizing before with
  | nil => rw [List.append_nil]; rfl
  | cons entry entries ih =>
    have first := append_end base before entry
    rw [Segment.appendAll, List.foldl_cons, first]
    have later := ih (before ++ [entry])
    rwa [List.append_assoc, List.singleton_append] at later

theorem exists_split {entries : List Entry} {i : ℕ} (inside : i < entries.length) :
    ∃ before entry after, entries = before ++ entry :: after ∧ before.length = i :=
  ⟨entries.take i, entries[i], entries.drop (i + 1), by simp, by simp; omega⟩

theorem read_log (base : ℕ) (entries : List Entry) {file : File}
    (data : file.data = logFrom base entries) (s : UInt64) :
    ∃ file', file'.data = logFrom base entries ∧
      (indexed base entries file).read s.toNat =
        (.ok (expected base entries s.toNat), indexed base entries file') := by
  by_cases outside : s.toNat < base ∨ base + entries.length ≤ s.toNat
  · refine ⟨file, data, ?_⟩
    rw [read_outside base entries file outside, expected]
    split
    · rfl
    · rw [List.getElem?_eq_none (by omega)]
      rfl
  · obtain ⟨i, at_i⟩ : ∃ i, s.toNat = base + i := ⟨s.toNat - base, by omega⟩
    have inside : i < entries.length := by omega
    have fits : base + i < 2 ^ 64 := at_i ▸ s.toNat_lt
    obtain ⟨before, entry, after, split, length⟩ := exists_split inside
    subst split
    rw [← length] at fits at_i
    have parts : file.data = logFrom base before ++
        (entry.encode (base + before.length) ++ logFrom (base + before.length + 1) after) := by
      rw [data, logFrom_append, logFrom, Nat.mod_eq_of_lt fits]
    refine ⟨⟨file.data, totalSize before + size entry⟩, data, ?_⟩
    rw [at_i, read_inside base before after entry fits parts, expected]
    simp

theorem readAll_log (base : ℕ) (entries : List Entry) {file : File}
    (data : file.data = logFrom base entries) (reads : List UInt64) :
    ((indexed base entries file).readAll reads).1 =
      reads.map fun s => .ok (expected base entries s.toNat) := by
  induction reads generalizing file with
  | nil => rfl
  | cons s reads ih =>
    obtain ⟨file', data', result⟩ := read_log base entries data s
    simp only [Segment.readAll, result, List.map_cons, ih data']

/-- A segment that is opened again after any appends has the index, the length, the
last sequence and the end it had, and every read gives the record that was appended
under its sequence number, or none. -/
theorem reopening_recovers_the_log (base : ℕ) (entries : List Entry) (reads : List UInt64) :
    let written := (Segment.openPath none base).appendAll entries
    let reopened := Segment.openPath (some written.file.data) base
    reopened.index = written.index ∧ reopened.index = indexFrom 0 entries ∧
      reopened.len = entries.length ∧ reopened.lastSequence = written.lastSequence ∧
      reopened.bytesWritten = written.bytesWritten ∧
      (reopened.readAll reads).1 =
        reads.map fun s => .ok (expected base entries s.toNat) := by
  have written := appendAll_end base [] entries
  rw [List.nil_append] at written
  have start : Segment.openPath none base = indexed base [] (.between (logFrom base []) []) := rfl
  have data : (File.between (logFrom base entries) []).data = logFrom base entries :=
    List.append_nil _
  simp only [start, written]
  rw [show (indexed base entries (.between (logFrom base entries) [])).file.data =
    logFrom base entries from data, open_log]
  exact ⟨rfl, rfl, indexFrom_length 0 entries, rfl, rfl, readAll_log base entries data reads⟩

end ZetMQ.SegmentLayout
