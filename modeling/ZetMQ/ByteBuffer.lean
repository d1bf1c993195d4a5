import ZetMQ.Utf8Text

/-! Reading fixed fields out of a byte buffer, and buffers that hold the beginning
of a stream of frames. A read depends only on the bytes it covers, so what comes
after them in the buffer does not matter. -/
namespace ZetMQ.ByteBuffer
open Utf8Text

def byteAt (buf : Bytes) (i : ℕ) : UInt8 := buf.getD i 0

def slice (buf : Bytes) (start stop : ℕ) : Bytes := (buf.take stop).drop start

/-- The number that big-endian bytes stand for. -/
def beNat (bytes : Bytes) : ℕ := bytes.foldl (fun n b => n * 256 + b.toNat) 0

def beAt (buf : Bytes) (start width : ℕ) : ℕ := beNat (slice buf start (start + width))

/-- The low `width` bytes of a number, most significant first. -/
def toBe : ℕ → ℕ → Bytes
  | 0, _ => []
  | width + 1, n => toBe width (n / 256) ++ [UInt8.ofNat n]

variable {buf : Bytes} {i stop start width n : ℕ} (bytes : Bytes)

theorem byteAt_append (inside : i < buf.length) (rest : Bytes) :
    byteAt (buf ++ rest) i = byteAt buf i := by
  rw [byteAt, List.getD_eq_getElem?_getD, List.getElem?_append_left inside, byteAt,
    List.getD_eq_getElem?_getD]

theorem slice_append (inside : stop ≤ buf.length) (start : ℕ) (rest : Bytes) :
    slice (buf ++ rest) start stop = slice buf start stop := by
  rw [slice, List.take_append_of_le_length inside, slice]

theorem beAt_append (inside : start + width ≤ buf.length) (rest : Bytes) :
    beAt (buf ++ rest) start width = beAt buf start width := by
  rw [beAt, slice_append inside, beAt]

theorem slice_drop (buf : Bytes) (k start stop : ℕ) :
    slice (buf.drop k) start stop = slice buf (k + start) (k + stop) := by
  rw [slice, List.take_drop, List.drop_drop, slice]

theorem beAt_drop (buf : Bytes) (k start width : ℕ) :
    beAt (buf.drop k) start width = beAt buf (k + start) width := by
  rw [beAt, slice_drop, ← Nat.add_assoc, beAt]

theorem slice_take (inside : stop ≤ n) (start : ℕ) :
    slice (buf.take n) start stop = slice buf start stop := by
  rw [slice, List.take_take, Nat.min_eq_left inside, slice]

theorem beAt_take (inside : start + width ≤ n) :
    beAt (buf.take n) start width = beAt buf start width := by
  rw [beAt, slice_take inside, beAt]

theorem byteAt_take (inside : i < n) : byteAt (buf.take n) i = byteAt buf i := by
  rw [byteAt, List.getD_eq_getElem?_getD, List.getElem?_take_of_lt inside, byteAt,
    List.getD_eq_getElem?_getD]

theorem slice_length {buf : Bytes} {stop : ℕ} (inside : stop ≤ buf.length) (start : ℕ) :
    (slice buf start stop).length = stop - start := by
  rw [slice, List.length_drop, List.length_take_of_le inside]

theorem slice_to_end (buf : Bytes) (start : ℕ) : slice buf start buf.length = buf.drop start := by
  rw [slice, List.take_length]

theorem slice_field (front field : Bytes) :
    slice (front ++ field) front.length (front.length + field.length) = field := by
  rw [← List.length_append, slice_to_end, List.drop_left]

theorem toBe_length (width n : ℕ) : (toBe width n).length = width := by
  induction width generalizing n with
  | zero => rfl
  | succ width ih => rw [toBe, List.length_append, ih, List.length_singleton]

theorem beNat_concat (b : UInt8) : beNat (bytes ++ [b]) = beNat bytes * 256 + b.toNat := by
  rw [beNat, List.foldl_append, beNat]
  rfl

theorem beNat_toBe_mod (width n : ℕ) : beNat (toBe width n) = n % 256 ^ width := by
  induction width generalizing n with
  | zero => exact (Nat.mod_one n).symm
  | succ width ih =>
    have low : (UInt8.ofNat n).toNat = n % 256 := UInt8.toNat_ofNat'
    rw [toBe, beNat_concat, ih, low, Nat.pow_succ', Nat.mod_mul, Nat.add_comm, Nat.mul_comm]

theorem beNat_toBe (fits : n < 256 ^ width) : beNat (toBe width n) = n := by
  rw [beNat_toBe_mod, Nat.mod_eq_of_lt fits]

theorem toBe_beNat : toBe bytes.length (beNat bytes) = bytes := by
  induction bytes using List.reverseRecOn with
  | nil => rfl
  | append_singleton bytes b ih =>
    have small := b.toNat_lt
    have high : (beNat bytes * 256 + b.toNat) / 256 = beNat bytes := by omega
    have low : UInt8.ofNat (beNat bytes * 256 + b.toNat) = b := by
      rw [← UInt8.toNat_inj, UInt8.toNat_ofNat']
      omega
    rw [List.length_append, List.length_singleton, beNat_concat, toBe, high, low, ih]

theorem toBe_beAt (inside : start + width ≤ buf.length) :
    toBe width (beAt buf start width) = slice buf start (start + width) := by
  have length := slice_length inside start
  rw [Nat.add_sub_cancel_left] at length
  have back := toBe_beNat (slice buf start (start + width))
  rwa [length] at back

theorem beNat_lt : beNat bytes < 256 ^ bytes.length := by
  induction bytes using List.reverseRecOn with
  | nil => exact Nat.one_pos
  | append_singleton bytes b ih =>
    have small := b.toNat_lt
    rw [beNat_concat, List.length_append, List.length_singleton, Nat.pow_succ]
    omega

theorem beAt_lt (buf : Bytes) (start width : ℕ) : beAt buf start width < 256 ^ width := by
  refine (beNat_lt _).trans_le (Nat.pow_le_pow_right (by decide) ?_)
  rw [slice, List.length_drop, List.length_take]
  omega

theorem singleton_byteAt (inside : i < buf.length) : [byteAt buf i] = slice buf i (i + 1) := by
  rw [slice, List.drop_take, Nat.add_sub_cancel_left, byteAt, List.getD_eq_getElem?_getD,
    List.getElem?_eq_getElem inside, List.drop_eq_getElem_cons inside]
  rfl

theorem slice_concat (buf : Bytes) {mid : ℕ} (front : start ≤ mid) (back : mid ≤ stop) :
    slice buf start mid ++ slice buf mid stop = slice buf start stop := by
  have cut : slice buf start mid = (slice buf start stop).take (mid - start) := by
    rw [slice, slice, List.drop_take, List.drop_take, List.take_take,
      Nat.min_eq_left (Nat.sub_le_sub_right back start)]
  have rest : slice buf mid stop = (slice buf start stop).drop (mid - start) := by
    rw [slice, slice, List.drop_drop, Nat.add_sub_cancel' front]
  rw [cut, rest, List.take_append_drop]

theorem beAt_written_mod {buf front rest : Bytes} {start width n : ℕ}
    (written : buf = front ++ toBe width n ++ rest) (position : front.length = start) :
    beAt buf start width = n % 256 ^ width := by
  have field := slice_field front (toBe width n)
  rw [toBe_length, position] at field
  rw [written, beAt_append (by rw [List.length_append, toBe_length, position]), beAt, field,
    beNat_toBe_mod]

theorem beAt_written {buf front rest : Bytes} {start width n : ℕ}
    (written : buf = front ++ toBe width n ++ rest) (position : front.length = start)
    (fits : n < 256 ^ width) : beAt buf start width = n := by
  rw [beAt_written_mod written position, Nat.mod_eq_of_lt fits]

theorem slice_written {buf front field rest : Bytes} {start stop : ℕ}
    (written : buf = front ++ field ++ rest) (position : front.length = start)
    (width : start + field.length = stop) : slice buf start stop = field := by
  rw [written, ← width, ← position, slice_append (by rw [List.length_append]), slice_field]

theorem byteAt_written {buf front rest : Bytes} {b : UInt8} {i : ℕ}
    (written : buf = front ++ b :: rest) (position : front.length = i) : byteAt buf i = b := by
  rw [written, ← position, byteAt, List.getD_eq_getElem?_getD,
    List.getElem?_append_right (Nat.le_refl _), Nat.sub_self]
  rfl

def words (values : List ℕ) : Bytes := values.flatMap (toBe 8)

theorem words_length (values : List ℕ) : (words values).length = 8 * values.length := by
  induction values with
  | nil => rfl
  | cons value values ih =>
    rw [words, List.flatMap_cons, List.length_append, toBe_length, ← words, ih, List.length_cons]
    omega

theorem beAt_words {values : List ℕ} {i value : ℕ} (found : values[i]? = some value)
    (fits : value < 2 ^ 64) (rest : Bytes) : beAt (words values ++ rest) (8 * i) 8 = value := by
  induction values generalizing i with
  | nil => simp at found
  | cons first values ih =>
    rw [words, List.flatMap_cons, ← words, List.append_assoc]
    cases i with
    | zero =>
      obtain rfl : first = value := by simpa using found
      exact @beAt_written _ [] (words values ++ rest) 0 8 first rfl rfl fits
    | succ i =>
      have later := ih (i := i) (by simpa using found)
      have behind : (toBe 8 first ++ (words values ++ rest)).drop 8 = words values ++ rest :=
        List.drop_left' (toBe_length 8 first)
      rw [← behind, beAt_drop] at later
      rwa [Nat.mul_succ, Nat.add_comm]

/-- Decoding gives a value back whatever comes behind its encoding, and refuses every
proper part of the encoding that is not empty. -/
structure SelfDelimiting {α ε : Type} (valid : α → Prop) (encode : α → Bytes)
    (decode : Bytes → Except ε α) : Prop where
  inverts : ∀ a, valid a → ∀ rest, decode (encode a ++ rest) = .ok a
  refuses : ∀ a, valid a → ∀ part, part <+: encode a → part ≠ [] →
    part.length < (encode a).length → ∃ e, decode part = .error e

def Awaits {α : Type} (part : List α) : List (List α) → Prop
  | [] => part = []
  | frame :: _ => part <+: frame ∧ part.length < frame.length

theorem exists_awaits {α : Type} {due : List (List α)} {buf unread : List α}
    (joined : buf ++ unread = due.flatten) :
    ∃ whole rest part, due = whole ++ rest ∧ buf = whole.flatten ++ part ∧
      part ++ unread = rest.flatten ∧ Awaits part rest := by
  induction due generalizing buf with
  | nil =>
    obtain ⟨rfl, rfl⟩ := List.append_eq_nil_iff.mp joined
    exact ⟨[], [], [], rfl, rfl, rfl, rfl⟩
  | cons frame due ih =>
    have start : buf <+: frame ++ due.flatten := ⟨unread, joined⟩
    by_cases short : buf.length < frame.length
    · exact ⟨[], frame :: due, buf, rfl, rfl, joined,
        List.prefix_of_prefix_length_le start (List.prefix_append ..) short.le, short⟩
    · obtain ⟨more, rfl⟩ := List.prefix_of_prefix_length_le (List.prefix_append frame _) start
        (Nat.le_of_not_lt short)
      rw [List.flatten_cons, List.append_assoc] at joined
      obtain ⟨whole, rest, part, rfl, rfl, left, awaits⟩ := ih (List.append_cancel_left joined)
      exact ⟨frame :: whole, rest, part, rfl, by rw [List.flatten_cons, List.append_assoc], left,
        awaits⟩

theorem Awaits.eq_nil {α : Type} {part : List α} {rest : List (List α)} (awaits : Awaits part rest)
    (all : part = rest.flatten) : rest = [] := by
  cases rest with
  | nil => rfl
  | cons frame rest =>
    have short := awaits.2
    rw [all, List.flatten_cons, List.length_append] at short
    omega

example : beAt [0x5a, 0x4d, 0x01] 0 2 = 0x5a4d ∧ toBe 4 258 = [0, 0, 1, 2] := by decide

end ZetMQ.ByteBuffer
