import ZetMQ.Commands
import ZetMQ.Utf8Codec

/-! The headers section: encoding a header map and decoding it again, whatever order
the map is iterated in. -/
namespace ZetMQ.HeaderCodec
open Utf8Text Utf8Codec ByteBuffer Frames KeyedTable Delivery Commands

abbrev HeaderOrder := IterOrder Str Str

/-- A length and the bytes; the length field is a `u16`. -/
def encodeText (text : Str) : Bytes := toBe 2 (encode text).length ++ encode text

def encodeEntry (entry : Σ _ : Str, Str) : Bytes := encodeText entry.1 ++ encodeText entry.2

def encodeHeaders (order : HeaderOrder) (headers : HeaderMap) : Bytes :=
  toBe 2 (size headers) ++ (order.visit headers).flatMap encodeEntry

def encodedHeadersLen (order : HeaderOrder) (headers : HeaderMap) : ℕ :=
  (order.visit headers).foldl
    (fun len entry => len + (2 + utf8Len entry.1 + 2 + utf8Len entry.2)) 2

theorem encodeText_length (text : Str) : (encodeText text).length = 2 + utf8Len text := by
  rw [encodeText, List.length_append, toBe_length, encode_length]

theorem encodeEntry_length (entry : Σ _ : Str, Str) :
    (encodeEntry entry).length = 2 + utf8Len entry.1 + 2 + utf8Len entry.2 := by
  rw [encodeEntry, List.length_append, encodeText_length, encodeText_length]
  omega

theorem encodedHeadersLen_eq (order : HeaderOrder) (headers : HeaderMap) :
    encodedHeadersLen order headers = (encodeHeaders order headers).length := by
  have fold : ∀ (entries : List (Σ _ : Str, Str)) (len : ℕ),
      entries.foldl (fun len entry => len + (2 + utf8Len entry.1 + 2 + utf8Len entry.2)) len =
        len + (entries.flatMap encodeEntry).length := by
    intro entries
    induction entries with
    | nil => exact fun _ => rfl
    | cons entry entries ih =>
      intro len
      rw [List.foldl_cons, ih, List.flatMap_cons, List.length_append, encodeEntry_length,
        Nat.add_assoc]
  rw [encodedHeadersLen, fold, encodeHeaders, List.length_append, toBe_length]

structure EntryFits (entry : Σ _ : Str, Str) : Prop where
  key : utf8Len entry.1 ≤ 65535
  value : utf8Len entry.2 ≤ 65535

def counted (bytes : Bytes) : Bytes := toBe 2 bytes.length ++ bytes

theorem encodeText_eq (text : Str) : encodeText text = counted (encode text) := rfl

theorem counted_read {bytes : Bytes} (fits : bytes.length ≤ 65535) (rest : Bytes) :
    beAt (counted bytes ++ rest) 0 2 = bytes.length ∧
      (counted bytes ++ rest).drop 2 = bytes ++ rest := by
  constructor
  · exact @beAt_written _ [] (bytes ++ rest) 0 2 _
      (by rw [counted, List.append_assoc, List.nil_append]) rfl (by omega)
  · rw [counted, List.append_assoc]
    exact List.drop_left' (toBe_length _ _)

theorem text_read {text : Str} (fits : utf8Len text ≤ 65535) (rest : Bytes) :
    beAt (encodeText text ++ rest) 0 2 = utf8Len text ∧
      (encodeText text ++ rest).drop 2 = encode text ++ rest := by
  rw [← encode_length] at fits ⊢
  exact counted_read fits rest

theorem decodeHeaderEntries_counted {key value : Bytes} (keyFits : key.length ≤ 65535)
    (valueFits : value.length ≤ 65535) (n : ℕ) (rest : Bytes) (headers : HeaderMap) :
    decodeHeaderEntries (n + 1) (counted key ++ (counted value ++ rest)) headers =
      decodeHeaderEntries n rest (headers.insert (fromUtf8Lossy key) (fromUtf8Lossy value)) := by
  obtain ⟨keyLen, keyRest⟩ := counted_read keyFits (counted value ++ rest)
  obtain ⟨valueLen, valueRest⟩ := counted_read valueFits rest
  have long : ∀ bytes tail : Bytes, ¬(counted bytes ++ tail).length < 2 := by
    intro bytes tail
    rw [counted, List.length_append, List.length_append, toBe_length]
    omega
  have whole : ∀ bytes tail : Bytes, ¬(bytes ++ tail).length < bytes.length := by
    intro bytes tail
    rw [List.length_append]
    omega
  rw [decodeHeaderEntries, if_neg (long _ _)]
  simp only [keyLen, keyRest]
  rw [if_neg (whole _ _), List.take_left, List.drop_left, if_neg (long _ _)]
  simp only [valueLen, valueRest]
  rw [if_neg (whole _ _), List.take_left, List.drop_left]

theorem decodeHeaderEntries_encode {entries : List (Σ _ : Str, Str)}
    (fits : ∀ entry ∈ entries, EntryFits entry) (rest : Bytes) (headers : HeaderMap) :
    decodeHeaderEntries entries.length (entries.flatMap encodeEntry ++ rest) headers =
      .ok (insertAll entries headers) := by
  induction entries generalizing headers with
  | nil => rfl
  | cons entry entries ih =>
    obtain ⟨keyFits, valueFits⟩ := fits entry List.mem_cons_self
    have later := ih (fun other member => fits other (List.mem_cons_of_mem _ member))
      (headers.insert entry.1 entry.2)
    rw [← encode_length] at keyFits valueFits
    rw [List.length_cons, List.flatMap_cons, encodeEntry, List.append_assoc, List.append_assoc,
      encodeText_eq, encodeText_eq, decodeHeaderEntries_counted keyFits valueFits,
      fromUtf8Lossy_encode, fromUtf8Lossy_encode, later]
    rfl

structure Fits (headers : HeaderMap) : Prop where
  few : size headers ≤ 65535
  entries : ∀ key value, headers.lookup key = some value →
    utf8Len key ≤ 65535 ∧ utf8Len value ≤ 65535

def SameMap (headers headers' : HeaderMap) : Prop :=
  ∀ key, headers'.lookup key = headers.lookup key

theorem encodeHeaders_parts {headers : HeaderMap} (few : size headers ≤ 65535)
    (order : HeaderOrder) :
    ¬(encodeHeaders order headers).length < 2 ∧
      beAt (encodeHeaders order headers) 0 2 = size headers ∧
      (encodeHeaders order headers).drop 2 = (order.visit headers).flatMap encodeEntry := by
  refine ⟨?_, @beAt_written _ [] _ 0 2 _ rfl rfl (by omega), List.drop_left' (toBe_length _ _)⟩
  rw [encodeHeaders, List.length_append, toBe_length]
  omega

theorem decodeHeaders_encode {headers : HeaderMap} (fits : Fits headers) (order : HeaderOrder) :
    ∃ decoded, decodeHeaders (encodeHeaders order headers) = .ok decoded ∧
      SameMap headers decoded := by
  have perm := order.perm headers
  have entryFits : ∀ entry ∈ order.visit headers, EntryFits entry := by
    intro entry member
    have found := fits.entries entry.1 entry.2 (AList.mem_lookup_iff.mpr (perm.subset member))
    exact ⟨found.1, found.2⟩
  have count : (order.visit headers).length = size headers := by
    rw [perm.length_eq, size, AList.keys, List.keys, List.length_map]
  obtain ⟨long, number, entries⟩ := encodeHeaders_parts fits.few order
  have decoded := decodeHeaderEntries_encode entryFits [] ∅
  rw [List.append_nil, count] at decoded
  refine ⟨insertAll (order.visit headers) ∅, ?_, lookup_insertAll_perm perm⟩
  rw [decodeHeaders, if_neg long, number, entries, decoded]

theorem encodeHeaders_ne_nil (order : HeaderOrder) (headers : HeaderMap) :
    encodeHeaders order headers ≠ [] := by
  intro empty
  have length := congrArg List.length empty
  rw [encodeHeaders, List.length_append, toBe_length, List.length_nil] at length
  omega

/-- The section of a message: nothing for no headers, which is not the encoding of
any map. -/
def headersSection (order : HeaderOrder) : Option HeaderMap → Bytes
  | none => []
  | some headers => encodeHeaders order headers

theorem headersFromFrame_section {headers : Option HeaderMap}
    (fits : ∀ map ∈ headers, Fits map) (order : HeaderOrder) :
    ∃ decoded, headersFromFrame (headersSection order headers) = .ok decoded ∧
      Option.Rel SameMap headers decoded := by
  cases headers with
  | none => exact ⟨none, rfl, .none⟩
  | some headers =>
    obtain ⟨decoded, result, same⟩ := decodeHeaders_encode (fits headers rfl) order
    refine ⟨some decoded, ?_, .some same⟩
    rw [headersSection, headersFromFrame,
      if_neg (by simpa using encodeHeaders_ne_nil order headers), result]
    rfl

end ZetMQ.HeaderCodec
