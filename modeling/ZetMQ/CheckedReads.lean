import ZetMQ.ByteBuffer

/-! Reads that fail outside of their buffer: a single byte, a range, a number put
together from single bytes, and the reads that consume what they return. `none` stands
for a read out of bounds. Inside of its bounds each read agrees with the total one. -/
namespace ZetMQ.CheckedReads
open Utf8Text ByteBuffer

/-- `buf[i]`. -/
def readAt (buf : Bytes) (i : ℕ) : Option UInt8 := buf[i]?

/-- `buf[start..stop]`. -/
def readRange (buf : Bytes) (start stop : ℕ) : Option Bytes :=
  if start ≤ stop ∧ stop ≤ buf.length then some (slice buf start stop) else none

def readFrom (buf : Bytes) (start : ℕ) : Option Bytes :=
  if start ≤ buf.length then some (buf.drop start) else none

def readBytes (buf : Bytes) (start : ℕ) : ℕ → Option Bytes
  | 0 => some []
  | width + 1 => do
    let bytes ← readBytes buf start width
    let last ← readAt buf (start + width)
    some (bytes ++ [last])

/-- A number from the bytes at `start`, each of them indexed on its own. -/
def readBe (buf : Bytes) (start width : ℕ) : Option ℕ := (readBytes buf start width).map beNat

def rangeBe (buf : Bytes) (start stop width : ℕ) : Option ℕ := do
  let bytes ← readRange buf start stop
  if bytes.length = width then some (beNat bytes) else none

def advance (buf : Bytes) (n : ℕ) : Option Bytes :=
  if n ≤ buf.length then some (buf.drop n) else none

def getBe (buf : Bytes) (width : ℕ) : Option (ℕ × Bytes) :=
  if width ≤ buf.length then some (beAt buf 0 width, buf.drop width) else none

def getByte (buf : Bytes) : Option (UInt8 × Bytes) := do
  let b ← readAt buf 0
  some (b, buf.drop 1)

def splitTo (buf : Bytes) (n : ℕ) : Option (Bytes × Bytes) :=
  if n ≤ buf.length then some (buf.take n, buf.drop n) else none

def word (n : ℕ) : ℕ := n % 2 ^ 64

theorem byteAt_drop (buf : Bytes) (k i : ℕ) : byteAt (buf.drop k) i = byteAt buf (k + i) := by
  rw [byteAt, byteAt, List.getD_eq_getElem?_getD, List.getElem?_drop,
    List.getD_eq_getElem?_getD]

variable {buf : Bytes} {start width n : ℕ}

theorem readAt_inside {i : ℕ} (inside : i < buf.length) : readAt buf i = some (byteAt buf i) := by
  rw [readAt, byteAt, List.getD_eq_getElem?_getD, List.getElem?_eq_getElem inside,
    Option.getD_some]

theorem readRange_inside {stop : ℕ} (ordered : start ≤ stop) (inside : stop ≤ buf.length) :
    readRange buf start stop = some (slice buf start stop) :=
  if_pos ⟨ordered, inside⟩

theorem readRange_outside {stop : ℕ} (outside : buf.length < stop) :
    readRange buf start stop = none := by
  refine if_neg ?_
  omega

theorem readFrom_inside (inside : start ≤ buf.length) :
    readFrom buf start = some (buf.drop start) := if_pos inside

theorem readBytes_inside (inside : start + width ≤ buf.length) :
    readBytes buf start width = some (slice buf start (start + width)) := by
  induction width with
  | zero => simp [readBytes, slice]
  | succ width ih =>
    have front := ih (by omega)
    have last : readAt buf (start + width) = some (byteAt buf (start + width)) :=
      readAt_inside (by omega)
    simp only [readBytes, front, last, Option.bind_eq_bind, Option.bind_some]
    rw [singleton_byteAt (by omega), slice_concat buf (by omega) (by omega), Nat.add_assoc]

theorem readBe_inside (inside : start + width ≤ buf.length) :
    readBe buf start width = some (beAt buf start width) := by
  rw [readBe, readBytes_inside inside, Option.map_some, beAt]

theorem rangeBe_inside {buf : Bytes} {start width : ℕ} (inside : start + width ≤ buf.length) :
    rangeBe buf start (start + width) width = some (beAt buf start width) := by
  have length := slice_length inside start
  rw [Nat.add_sub_cancel_left] at length
  simp only [rangeBe, readRange_inside (Nat.le_add_right start width) inside, length, beAt,
    Option.bind_eq_bind, Option.bind_some, if_true]

theorem advance_inside (inside : n ≤ buf.length) :
    advance buf n = some (buf.drop n) := if_pos inside

theorem getBe_inside (inside : width ≤ buf.length) :
    getBe buf width = some (beAt buf 0 width, buf.drop width) := if_pos inside

theorem getByte_inside (inside : 0 < buf.length) :
    getByte buf = some (byteAt buf 0, buf.drop 1) := by
  rw [getByte, readAt_inside inside]
  rfl

theorem getBe_drop {k : ℕ} (inside : k + width ≤ buf.length) :
    getBe (buf.drop k) width = some (beAt buf k width, buf.drop (k + width)) := by
  rw [getBe_inside (by rw [List.length_drop]; omega), beAt_drop, List.drop_drop, Nat.add_zero]

theorem getByte_drop {k : ℕ} (inside : k < buf.length) :
    getByte (buf.drop k) = some (byteAt buf k, buf.drop (k + 1)) := by
  rw [getByte_inside (by rw [List.length_drop]; omega), byteAt_drop, List.drop_drop, Nat.add_zero]

theorem word_eq (small : n < 2 ^ 64) : word n = n := Nat.mod_eq_of_lt small

theorem splitTo_inside (inside : n ≤ buf.length) :
    splitTo buf n = some (buf.take n, buf.drop n) := if_pos inside

theorem guarded {α : Type} {c : Prop} [Decidable c] {early result : α} {reads : Option α}
    (past : ¬c → reads = some result) :
    (if c then some early else reads) = some (if c then early else result) := by
  by_cases refused : c
  · rw [if_pos refused, if_pos refused]
  · rw [if_neg refused, if_neg refused, past refused]

theorem taken {α : Type} {c : Prop} [Decidable c] {result other : α} {reads : Option α}
    (under : c → reads = some result) :
    (if c then reads else some other) = some (if c then result else other) := by
  by_cases checked : c
  · rw [if_pos checked, if_pos checked, under checked]
  · rw [if_neg checked, if_neg checked]

example : readBe [1, 2, 3] 1 2 = some 515 ∧ readBe [1, 2, 3] 2 2 = none := by decide

end ZetMQ.CheckedReads
