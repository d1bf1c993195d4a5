import ZetMQ.FileCursor
import ZetMQ.Utf8Codec

/-! Log segments. A segment is a file of records with an index of where each begins;
appends write wherever the file's cursor stands, reads move it to the record they
want. Sequence numbers are 64-bit words, offsets are plain numbers. -/
namespace ZetMQ.Segments
open Utf8Text ByteBuffer FileCursor

structure IndexEntry where
  offset : ℕ
  timestamp : ℕ
deriving DecidableEq

structure StoredRecord where
  sequence : ℕ
  timestamp : ℕ
  subject : Str
  replyTo : Option Str
  payload : Bytes
deriving DecidableEq

structure Segment where
  file : File
  index : List IndexEntry
  baseSequence : ℕ
  bytesWritten : ℕ
deriving DecidableEq

def replyBytes : Option Str → Bytes
  | some reply => toBe 2 (encode reply).length ++ encode reply
  | none => toBe 2 0

def recordBytes (seq timestamp : ℕ) (subject : Str) (replyTo : Option Str) (payload : Bytes) :
    Bytes :=
  toBe 8 seq ++ (toBe 8 timestamp ++ (toBe 2 (encode subject).length ++ (encode subject ++
    (replyBytes replyTo ++ (toBe 4 payload.length ++ payload)))))

def readU64 : FileM ℕ := readBe 8

def readU32 : FileM ℕ := readBe 4

def readString : FileM Str := do
  let len ← readBe 2
  let buf ← readExact len
  pure (fromUtf8Lossy buf)

def readOptionalString : FileM (Option Str) := do
  let s ← readString
  if s.isEmpty then pure none else pure (some s)

def readRecord : FileM StoredRecord := do
  let seq ← readU64
  let timestamp ← readU64
  let subject ← readString
  let replyTo ← readOptionalString
  let payloadLen ← readU32
  let payload ← readExact payloadLen
  pure ⟨seq, timestamp, subject, replyTo, payload⟩

def skipReply (replyLen : ℕ) : FileM Unit :=
  if 0 < replyLen then seekCurrent replyLen else pure ()

def scanRecord : FileM (ℕ × ℕ) := do
  let header ← readExact 16
  let timestamp := beAt header 8 8
  let subjectLen ← readBe 2
  seekCurrent subjectLen
  let replyLen ← readBe 2
  skipReply replyLen
  let payloadLen ← readBe 4
  seekCurrent payloadLen
  pure (timestamp, 8 + 8 + 2 + subjectLen + 2 + replyLen + 4 + payloadLen)

def scan : ℕ → ℕ → List IndexEntry → File → List IndexEntry × ℕ × File
  | 0, offset, index, file => (index, offset, file)
  | turns + 1, offset, index, file =>
    match scanRecord.run file with
    | .error _ file => (index, offset, file)
    | .ok (timestamp, size) file => scan turns (offset + size) (index ++ [⟨offset, timestamp⟩]) file

namespace Segment

def rebuildIndex (segment : Segment) : Segment :=
  let (index, offset, file) := scan (segment.file.data.length + 1) 0 segment.index
    { segment.file with pos := 0 }
  { segment with file := file, index := index, bytesWritten := offset }

/-- Open the file with the given contents, or create it. -/
def openPath (contents : Option Bytes) (baseSequence : ℕ) : Segment :=
  match contents with
  | some data => rebuildIndex ⟨⟨data, 0⟩, [], baseSequence, 0⟩
  | none => ⟨⟨[], 0⟩, [], baseSequence, 0⟩

def append (segment : Segment) (subject : Str) (replyTo : Option Str) (payload : Bytes)
    (timestamp : ℕ) : Except IoError ℕ × Segment :=
  let seq := (segment.baseSequence + segment.index.length) % 2 ^ 64
  let buf := recordBytes seq timestamp subject replyTo payload
  match (writeAll buf).run segment.file with
  | .error e file => (.error e, { segment with file := file })
  | .ok () file =>
    (.ok seq, { segment with
      file := file
      index := segment.index ++ [⟨segment.bytesWritten, timestamp⟩]
      bytesWritten := segment.bytesWritten + buf.length })

def read (segment : Segment) (sequence : ℕ) : Except IoError (Option StoredRecord) × Segment :=
  if sequence < segment.baseSequence then (.ok none, segment)
  else match segment.index[sequence - segment.baseSequence]? with
    | none => (.ok none, segment)
    | some entry =>
      match (seekStart entry.offset >>= fun _ => readRecord).run segment.file with
      | .error e file => (.error e, { segment with file := file })
      | .ok record file => (.ok (some record), { segment with file := file })

def len (segment : Segment) : ℕ := segment.index.length

def lastSequence (segment : Segment) : Option ℕ :=
  if segment.index.isEmpty then none
  else some ((segment.baseSequence + segment.index.length + (2 ^ 64 - 1)) % 2 ^ 64)

end Segment

/-- The arguments of an `append` within the limits of the format: lengths fit their
fields, and a reply is not empty, since no reply reads like an empty one. -/
structure Entry where
  subject : Str
  replyTo : Option Str
  payload : Bytes
  timestamp : ℕ
  subject_fits : (encode subject).length < 2 ^ 16
  reply_fits : ∀ reply, replyTo = some reply → reply ≠ [] ∧ (encode reply).length < 2 ^ 16
  payload_fits : payload.length < 2 ^ 32
  timestamp_fits : timestamp < 2 ^ 64

namespace Entry

def encode (entry : Entry) (seq : ℕ) : Bytes :=
  recordBytes seq entry.timestamp entry.subject entry.replyTo entry.payload

def record (entry : Entry) (seq : ℕ) : StoredRecord :=
  ⟨seq, entry.timestamp, entry.subject, entry.replyTo, entry.payload⟩

def withoutReply (subject : Str) (payload : Bytes) (timestamp : ℕ)
    (subject_fits : (Utf8Text.encode subject).length < 2 ^ 16)
    (payload_fits : payload.length < 2 ^ 32) (timestamp_fits : timestamp < 2 ^ 64) : Entry :=
  ⟨subject, none, payload, timestamp, subject_fits,
    fun _ no => absurd no (Option.some_ne_none _).symm, payload_fits, timestamp_fits⟩

end Entry

namespace Segment

def appendEntry (segment : Segment) (entry : Entry) : Except IoError ℕ × Segment :=
  segment.append entry.subject entry.replyTo entry.payload entry.timestamp

def appendAll (segment : Segment) (entries : List Entry) : Segment :=
  entries.foldl (fun segment entry => (segment.appendEntry entry).2) segment

def readAll (segment : Segment) :
    List UInt64 → List (Except IoError (Option StoredRecord)) × Segment
  | [] => ([], segment)
  | s :: reads =>
    let (result, segment) := segment.read s.toNat
    let (results, segment) := readAll segment reads
    (result :: results, segment)

end Segment

end ZetMQ.Segments
