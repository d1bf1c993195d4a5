import ZetMQ.RelaySizes
import ZetMQ.Utf8Cut
import Mathlib.Data.List.MinMax

/-! A header map on its way through the broker: decoded from a `PUB` frame, encoded into
a `MSG` frame, decoded by the client. Replacing malformed text can make a key or a value
longer than its length field can say. -/
namespace ZetMQ.HeaderRelay
open Utf8Text Utf8Codec Utf8Cut ByteBuffer Frames KeyedTable Delivery Commands HeaderCodec
open RelaySizes

def readBack (text : Str) : Str := fromUtf8Lossy ((encode text).take (utf8Len text % 65536))

theorem readBack_of_fits {text : Str} (fits : utf8Len text ≤ 65535) : readBack text = text := by
  rw [readBack, Nat.mod_eq_of_lt (by omega), ← encode_length, List.take_length,
    fromUtf8Lossy_encode]

theorem readBack_shorter {text : Str} (long : ¬utf8Len text ≤ 65535) :
    (readBack text).length < text.length :=
  fromUtf8Lossy_cut (by omega)

variable {headers : HeaderMap} (text : Str) (n : ℕ) (rest : Bytes)

theorem beAt_text : beAt (encodeText text ++ rest) 0 2 = utf8Len text % 65536 := by
  rw [← encode_length]
  refine @beAt_written_mod _ [] (encode text ++ rest) 0 2 _ ?_ rfl
  rw [encodeText, List.append_assoc, List.nil_append]

theorem drop_text : (encodeText text ++ rest).drop 2 = encode text ++ rest := by
  rw [encodeText, List.append_assoc]
  exact List.drop_left' (toBe_length _ _)

theorem take_text :
    fromUtf8Lossy ((encode text ++ rest).take (utf8Len text % 65536)) = readBack text := by
  have inside : utf8Len text % 65536 ≤ (encode text).length := by
    rw [encode_length]
    exact Nat.mod_le ..
  rw [List.take_append_of_le_length inside, readBack]

theorem entriesFrom_key (entry : Σ _ : Str, Str) (rest : Bytes) :
    ∃ value later,
      entriesFrom (n + 1) (encodeEntry entry ++ rest) = ⟨readBack entry.1, value⟩ :: later := by
  rw [entriesFrom, encodeEntry, List.append_assoc, beAt_text, drop_text, take_text]
  exact ⟨_, _, rfl⟩

theorem entriesFrom_value {entry : Σ _ : Str, Str} (fits : utf8Len entry.1 ≤ 65535) (rest : Bytes) :
    ∃ later, entriesFrom (n + 1) (encodeEntry entry ++ rest) =
      ⟨entry.1, readBack entry.2⟩ :: later := by
  have behind : (encode entry.1 ++ (encodeText entry.2 ++ rest)).drop (utf8Len entry.1) =
      encodeText entry.2 ++ rest := List.drop_left' (encode_length _)
  have whole : utf8Len entry.1 % 65536 = utf8Len entry.1 := Nat.mod_eq_of_lt (by omega)
  have key := take_text entry.1 (encodeText entry.2 ++ rest)
  rw [readBack_of_fits fits, whole] at key
  simp only [entriesFrom, encodeEntry, List.append_assoc, beAt_text, drop_text, whole, behind, key,
    take_text]
  exact ⟨_, rfl⟩

theorem entriesFrom_append {entries : List (Σ _ : Str, Str)}
    (fits : ∀ entry ∈ entries, EntryFits entry) (n : ℕ) (rest : Bytes) :
    entriesFrom (entries.length + n) (entries.flatMap encodeEntry ++ rest) =
      entries ++ entriesFrom n rest := by
  induction entries with
  | nil => rw [List.length_nil, Nat.zero_add, List.flatMap_nil, List.nil_append, List.nil_append]
  | cons entry entries ih =>
    obtain ⟨keyFits, valueFits⟩ := fits entry List.mem_cons_self
    have later := ih fun other member => fits other (List.mem_cons_of_mem _ member)
    have key := take_text entry.1 (encodeText entry.2 ++ (entries.flatMap encodeEntry ++ rest))
    have value := take_text entry.2 (entries.flatMap encodeEntry ++ rest)
    have keyWhole : utf8Len entry.1 % 65536 = utf8Len entry.1 := Nat.mod_eq_of_lt (by omega)
    have valueWhole : utf8Len entry.2 % 65536 = utf8Len entry.2 := Nat.mod_eq_of_lt (by omega)
    rw [readBack_of_fits keyFits, keyWhole] at key
    rw [readBack_of_fits valueFits, valueWhole] at value
    rw [List.length_cons, Nat.add_right_comm, List.flatMap_cons, encodeEntry]
    simp only [entriesFrom, List.append_assoc, beAt_text, drop_text, keyWhole, valueWhole, key,
      List.drop_left' (encode_length _), value, later, List.cons_append]

theorem entriesFrom_length (buf : Bytes) : (entriesFrom n buf).length = n := by
  induction n generalizing buf with
  | zero => rfl
  | succ n ih => exact congrArg Nat.succ (ih _)

def TextsFit (headers : HeaderMap) : Prop :=
  ∀ key value, headers.lookup key = some value → utf8Len key ≤ 65535 ∧ utf8Len value ≤ 65535

theorem size_le_of_decoded {data : Bytes} (decoded : decodeHeaders data = .ok headers) :
    size headers ≤ 65535 := by
  have few : (entriesIn data).length ≤ 65535 := by
    have count := beAt_lt data 0 2
    rw [entriesIn]
    split
    · exact Nat.zero_le _
    · rw [entriesFrom_length]
      omega
  rw [decodeHeaders_ok decoded]
  exact (size_insertAll_le _).trans few

theorem decoded_entries {order : HeaderOrder} {decoded : HeaderMap} (few : size headers ≤ 65535)
    (back : decodeHeaders (encodeHeaders order headers) = .ok decoded) :
    decoded =
      insertAll (entriesFrom (size headers) ((order.visit headers).flatMap encodeEntry)) ∅ := by
  obtain ⟨long, number, entries⟩ := encodeHeaders_parts few order
  rw [decodeHeaders_ok back, entriesIn, if_neg long, number, entries]

theorem exists_first {entries : List (Σ _ : Str, Str)} (some_entry : entries ≠ [])
    (oversize : ∀ entry ∈ entries, ¬EntryFits entry) :
    ∃ first ∈ entries, utf8Len first.1 ≤ 65535 ∧ ¬utf8Len first.2 ≤ 65535 ∨
      ¬utf8Len first.1 ≤ 65535 ∧ ∀ other ∈ entries, first.1.length ≤ other.1.length := by
  by_cases fitting : ∃ first ∈ entries, utf8Len first.1 ≤ 65535
  · obtain ⟨first, member, fits⟩ := fitting
    exact ⟨first, member, .inl ⟨fits, fun value => oversize first member ⟨fits, value⟩⟩⟩
  · cases least : entries.argmin fun entry => entry.1.length with
    | none => exact absurd (List.argmin_eq_none.mp least) some_entry
    | some first =>
      have member := List.argmin_mem least
      exact ⟨first, member, .inr ⟨fun fits => fitting ⟨first, member, fits⟩,
        fun other there =>
          @List.le_of_mem_argmin _ _ _ (fun entry => entry.1.length) _ _ _ there least⟩⟩

theorem first_lost {fitting others : List (Σ _ : Str, Str)} {first : Σ _ : Str, Str} {rest : Bytes}
    {n : ℕ} (member : first ∈ others) (perm : (fitting ++ others).Perm headers.entries)
    (count : size headers = fitting.length + (n + 1))
    (choice : utf8Len first.1 ≤ 65535 ∧ ¬utf8Len first.2 ≤ 65535 ∨
      ¬utf8Len first.1 ≤ 65535 ∧ ∀ other ∈ others, first.1.length ≤ other.1.length) :
    ¬SameMap headers
      (insertAll (fitting ++ entriesFrom (n + 1) (encodeEntry first ++ rest)) ∅) := by
  intro same
  obtain ⟨nodup, found⟩ := insertAll_exact same (by
    rw [List.length_append, entriesFrom_length, count])
  cases choice with
  | inl value =>
    obtain ⟨keyFits, valueLong⟩ := value
    obtain ⟨later, read⟩ := entriesFrom_value n keyFits rest
    rw [read] at found
    have there := found ⟨first.1, readBack first.2⟩ (by simp)
    have here : headers.lookup first.1 = some first.2 :=
      AList.mem_lookup_iff.mpr (perm.subset (List.mem_append_right _ member))
    rw [here, Option.some.injEq] at there
    exact (readBack_shorter valueLong).ne (congrArg List.length there.symm)
  | inr key =>
    obtain ⟨keyLong, least⟩ := key
    obtain ⟨value, later, read⟩ := entriesFrom_key n first rest
    rw [read] at found nodup
    have there := found ⟨readBack first.1, value⟩ (by simp)
    have listed := perm.symm.subset (AList.mem_lookup_iff.mp there)
    rw [List.mem_append] at listed
    cases listed with
    | inl old =>
      -- the key is there already
      rw [List.NodupKeys, List.keys, List.map_append, List.nodup_append'] at nodup
      exact nodup.2.2 (List.mem_map_of_mem old) (by simp)
    | inr other => exact absurd (readBack_shorter keyLong) (Nat.not_lt.mpr (least _ other))

theorem exists_losing_order (few : size headers ≤ 65535) (oversize : ¬TextsFit headers) :
    ∃ order : HeaderOrder, ∀ decoded,
      decodeHeaders (encodeHeaders order headers) = .ok decoded → ¬SameMap headers decoded := by
  classical
  let fitting := headers.entries.filter fun entry => EntryFits entry
  let others := headers.entries.filter fun entry => !decide (EntryFits entry)
  have fits : ∀ entry ∈ fitting, EntryFits entry := by simp [fitting]
  have large : ∀ entry ∈ others, ¬EntryFits entry := by simp [others]
  have split : (fitting ++ others).Perm headers.entries := List.filter_append_perm ..
  have left : others ≠ [] := by
    intro none
    refine oversize fun key value found => ?_
    have entry := List.filter_eq_nil_iff.mp none ⟨key, value⟩ (AList.mem_lookup_iff.mp found)
    obtain ⟨keyFits, valueFits⟩ : EntryFits ⟨key, value⟩ := by simpa using entry
    exact ⟨keyFits, valueFits⟩
  obtain ⟨first, member, choice⟩ := exists_first left large
  have perm : (fitting ++ first :: others.erase first).Perm headers.entries :=
    ((List.perm_cons_erase member).symm.append_left fitting).trans split
  have count : size headers = fitting.length + ((others.erase first).length + 1) := by
    rw [← List.length_cons, ← List.length_append, perm.length_eq]
    exact List.length_map _
  refine ⟨.listing (fitting ++ first :: others.erase first), fun decoded back => ?_⟩
  rw [decoded_entries few back, IterOrder.listing]
  simp only [if_pos perm]
  rw [List.flatMap_append, List.flatMap_cons, count, entriesFrom_append fits]
  exact first_lost member split count choice

/-- A header map that was decoded comes back unchanged from every re-encoding exactly
if its keys and values fit their length fields. -/
theorem headers_survive_iff (data : Bytes) (headers : HeaderMap)
    (decoded : decodeHeaders data = .ok headers) :
    (∀ order : HeaderOrder, ∃ back, decodeHeaders (encodeHeaders order headers) = .ok back ∧
        SameMap headers back) ↔ TextsFit headers := by
  have few := size_le_of_decoded decoded
  constructor
  · intro survive
    by_contra oversize
    obtain ⟨order, lost⟩ := exists_losing_order few oversize
    obtain ⟨back, result, same⟩ := survive order
    exact lost back result same
  · intro fits order
    exact decodeHeaders_encode ⟨few, fits⟩ order

set_option maxRecDepth 4000 in
theorem replaced_header_survives :
    ∃ back,
      decodeHeaders (encodeHeaders (.stored _ _) ((∅ : HeaderMap).insert ['k'] ['�'])) =
        .ok back ∧
      SameMap ((∅ : HeaderMap).insert ['k'] ['�']) back := by
  refine (headers_survive_iff [0, 1, 0, 1, 0x6b, 0, 1, 0xff] _ (by rfl)).mpr ?_ (.stored _ _)
  intro key value found
  rw [lookup_insert_eq_some] at found
  obtain ⟨rfl, rfl⟩ | ⟨-, none⟩ := found
  · decide
  · cases none

theorem decodeHeaders_single {key value : Bytes} (keyFits : key.length ≤ 65535)
    (valueFits : value.length ≤ 65535) (rest : Bytes) :
    decodeHeaders (toBe 2 1 ++ (counted key ++ (counted value ++ rest))) =
      .ok ((∅ : HeaderMap).insert (fromUtf8Lossy key) (fromUtf8Lossy value)) := by
  have number : beAt (toBe 2 1 ++ (counted key ++ (counted value ++ rest))) 0 2 = 1 :=
    @beAt_written _ [] _ 0 2 1 rfl rfl (by decide)
  have long : ¬(toBe 2 1 ++ (counted key ++ (counted value ++ rest))).length < 2 := by
    rw [List.length_append, toBe_length]
    omega
  rw [decodeHeaders, if_neg long, number, List.drop_left' (toBe_length 2 1),
    decodeHeaderEntries_counted keyFits valueFits]
  rfl

private def malformedValue : Bytes := List.replicate 21846 0xff

private def replacedValue : Str := List.replicate 21846 '�'

private theorem encodeText_replacedValue :
    encodeText replacedValue =
      counted ((encode replacedValue).take 2) ++ (encode replacedValue).drop 2 := by
  have size : (encode replacedValue).length = 65538 := by
    rw [encode_length, replacedValue, utf8Len_replicate]
    rfl
  have two : ((encode replacedValue).take 2).length = 2 := by
    rw [List.length_take_of_le (by omega)]
  rw [counted, two, List.append_assoc, List.take_append_drop, encodeText, size]
  rfl

/-- 21846 malformed bytes are a value of 65538 bytes once they are replaced, and come
back as the two bytes that its length field announces. -/
theorem long_value_is_cut :
    decodeHeaders (toBe 2 1 ++ (counted [0x6b] ++ (counted malformedValue ++ []))) =
      .ok ((∅ : HeaderMap).insert ['k'] replacedValue) ∧
    decodeHeaders (encodeHeaders (.stored _ _) ((∅ : HeaderMap).insert ['k'] replacedValue)) =
      .ok ((∅ : HeaderMap).insert ['k'] ['�']) := by
  constructor
  · rw [decodeHeaders_single (by decide) (by rw [malformedValue, List.length_replicate]; decide),
      malformedValue, fromUtf8Lossy_replicate]
    rfl
  · have entry : encodeHeaders (.stored _ _) ((∅ : HeaderMap).insert ['k'] replacedValue) =
        toBe 2 1 ++ (encodeText ['k'] ++ (encodeText replacedValue ++ [])) := by
      rw [← List.append_assoc (encodeText ['k'])]
      rfl
    have cut : (encode replacedValue).take 2 = [0xef, 0xbf] := rfl
    rw [entry, encodeText_replacedValue, encodeText_eq, cut, List.append_assoc,
      decodeHeaders_single (by decide) (by decide)]
    rfl

end ZetMQ.HeaderRelay
