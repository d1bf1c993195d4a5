import Mathlib.Algebra.Order.Ring.Nat
import Mathlib.Data.List.DropRight

/-! Text as the list of its Unicode scalar values, with the byte-level view that
a program working on UTF-8 strings has of it. `takeScalar` follows the standard
library's chunk iterator: a malformed sequence is cut after its longest prefix
that could still have been completed. -/
namespace ZetMQ.Utf8Text

abbrev Str := List Char

instance : LawfulBEq Str := inferInstance
abbrev Bytes := List UInt8

/-- Length in bytes, as `str::len` counts it. -/
def utf8Len (s : Str) : ℕ := (s.map Char.utf8Size).sum

def encode (s : Str) : Bytes := s.flatMap String.utf8EncodeChar

def isWhitespace (c : Char) : Bool :=
  let n := c.toNat
  (0x09 ≤ n && n ≤ 0x0d) || n == 0x20 || n == 0x85 || n == 0xa0 || n == 0x1680 ||
    (0x2000 ≤ n && n ≤ 0x200a) || n == 0x2028 || n == 0x2029 || n == 0x202f ||
    n == 0x205f || n == 0x3000

def trim (s : Str) : Str := (s.dropWhile isWhitespace).rdropWhile isWhitespace

theorem trim_eq_self_iff (s : Str) :
    trim s = s ↔ s.dropWhile isWhitespace = s ∧ s.rdropWhile isWhitespace = s := by
  constructor
  · intro h
    have front : s.dropWhile isWhitespace = s := by
      have short := ( List.rdropWhile_prefix isWhitespace (s.dropWhile isWhitespace)).length_le
      change (trim s).length ≤ _ at short
      rw [h] at short
      exact (List.dropWhile_suffix isWhitespace).eq_of_length_le short
    exact ⟨front, by rwa [trim, front] at h⟩
  · rintro ⟨front, back⟩
    rw [trim, front, back]

theorem trim_trim (s : Str) : trim (trim s) = trim s := by
  rw [trim_eq_self_iff]
  refine ⟨?_, List.rdropWhile_idempotent _ _⟩
  rw [List.dropWhile_eq_self_iff]
  intro nonempty
  have before := List.rdropWhile_prefix isWhitespace (s.dropWhile isWhitespace)
  have longer : 0 < (s.dropWhile isWhitespace).length := nonempty.trans_le before.length_le
  have first := List.dropWhile_eq_self_iff.mp (List.dropWhile_idempotent isWhitespace s) longer
  rwa [← before.getElem nonempty] at first

def decimal (n : ℕ) : Str := Nat.toDigits 10 n

def hex4 (n : ℕ) : Str :=
  ((Nat.toDigits 16 n).map Char.toUpper).leftpad 4 '0'

def isCont (b : UInt8) : Bool := 0x80 ≤ b && b ≤ 0xbf

def charWidth (b : UInt8) : ℕ :=
  if b < 0x80 then 1
  else if 0xc2 ≤ b && b ≤ 0xdf then 2
  else if 0xe0 ≤ b && b ≤ 0xef then 3
  else if 0xf0 ≤ b && b ≤ 0xf4 then 4
  else 0

def secondOk (b c : UInt8) : Bool :=
  if b == 0xe0 then 0xa0 ≤ c && c ≤ 0xbf
  else if b == 0xed then 0x80 ≤ c && c ≤ 0x9f
  else if b == 0xf0 then 0x90 ≤ c && c ≤ 0xbf
  else if b == 0xf4 then 0x80 ≤ c && c ≤ 0x8f
  else isCont c

def tailBits (b : UInt8) : ℕ := b.toNat % 64

def takeScalar : Bytes → Option (Option Char × Bytes)
  | [] => none
  | b :: rest =>
    match charWidth b, rest with
    | 1, rest => some (some (Char.ofNat b.toNat), rest)
    | 2, c :: more =>
      if isCont c then some (some (Char.ofNat (b.toNat % 32 * 64 + tailBits c)), more)
      else some (none, rest)
    | 3, c :: more =>
      if secondOk b c then
        match more with
        | d :: more =>
          if isCont d then
            some (some (Char.ofNat ((b.toNat % 16 * 64 + tailBits c) * 64 + tailBits d)), more)
          else some (none, d :: more)
        | [] => some (none, [])
      else some (none, rest)
    | 4, c :: more =>
      if secondOk b c then
        match more with
        | d :: more =>
          if isCont d then
            match more with
            | e :: more =>
              if isCont e then
                some (some (Char.ofNat (((b.toNat % 8 * 64 + tailBits c) * 64 + tailBits d) * 64 +
                  tailBits e)), more)
              else some (none, e :: more)
            | [] => some (none, [])
          else some (none, d :: more)
        | [] => some (none, [])
      else some (none, rest)
    | _, rest => some (none, rest)

def fromUtf8Fuel : ℕ → Bytes → Option Str
  | 0, _ => some []
  | n + 1, bytes =>
    match takeScalar bytes with
    | none => some []
    | some (none, _) => none
    | some (some c, rest) => (fromUtf8Fuel n rest).map (c :: ·)

def fromUtf8 (bytes : Bytes) : Option Str := fromUtf8Fuel bytes.length bytes

def fromUtf8LossyFuel : ℕ → Bytes → Str
  | 0, _ => []
  | n + 1, bytes =>
    match takeScalar bytes with
    | none => []
    | some (c, rest) => c.getD '�' :: fromUtf8LossyFuel n rest

/-- `String::from_utf8_lossy`. -/
def fromUtf8Lossy (bytes : Bytes) : Str := fromUtf8LossyFuel bytes.length bytes

example : fromUtf8Lossy [0x61, 0xe2, 0x82, 0x62, 0xff] = ['a', '�', 'b', '�'] := by
  decide

end ZetMQ.Utf8Text
