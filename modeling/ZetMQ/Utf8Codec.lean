import ZetMQ.Utf8Text

/-! UTF-8 decoding inverts encoding. The byte tests of the
decoder are restated over numbers, where the arithmetic of the encoder lives. -/
namespace ZetMQ.Utf8Codec
open Utf8Text

theorem charWidth_eq (b : UInt8) : charWidth b =
    if b.toNat < 128 then 1
    else if 194 ≤ b.toNat ∧ b.toNat ≤ 223 then 2
    else if 224 ≤ b.toNat ∧ b.toNat ≤ 239 then 3
    else if 240 ≤ b.toNat ∧ b.toNat ≤ 244 then 4
    else 0 := by
  simp only [charWidth, Bool.and_eq_true, decide_eq_true_eq, UInt8.lt_iff_toNat_lt,
    UInt8.le_iff_toNat_le]
  rfl

theorem isCont_iff {b : UInt8} : isCont b = true ↔ 128 ≤ b.toNat ∧ b.toNat ≤ 191 := by
  simp only [isCont, Bool.and_eq_true, decide_eq_true_eq, UInt8.le_iff_toNat_le]
  rfl

theorem secondOk_iff {b c : UInt8} : secondOk b c = true ↔
    (128 ≤ c.toNat ∧ c.toNat ≤ 191) ∧
    (b.toNat = 224 → 160 ≤ c.toNat) ∧ (b.toNat = 237 → c.toNat ≤ 159) ∧
    (b.toNat = 240 → 144 ≤ c.toNat) ∧ (b.toNat = 244 → c.toNat ≤ 143) := by
  have eq : ∀ k : UInt8, (b == k) = true ↔ b.toNat = k.toNat := fun k => by
    rw [beq_iff_eq, UInt8.toNat_inj]
  simp only [secondOk, eq, isCont, UInt8.le_iff_toNat_le]
  split_ifs <;> simp only [Bool.and_eq_true, decide_eq_true_eq] <;> simp at * <;> omega

section
variable {b c d e : UInt8} {rest : Bytes}

theorem takeScalar_one (lead : b.toNat < 128) :
    takeScalar (b :: rest) = some (some (Char.ofNat b.toNat), rest) := by
  have width : charWidth b = 1 := by rw [charWidth_eq, if_pos lead]
  simp only [takeScalar, width]

theorem takeScalar_two (lead : 194 ≤ b.toNat ∧ b.toNat ≤ 223) (second : isCont c = true) :
    takeScalar (b :: c :: rest) =
      some (some (Char.ofNat (b.toNat % 32 * 64 + tailBits c)), rest) := by
  have width : charWidth b = 2 := by rw [charWidth_eq, if_neg (by omega), if_pos lead]
  simp only [takeScalar, width, second, if_true]

theorem takeScalar_three (lead : 224 ≤ b.toNat ∧ b.toNat ≤ 239) (second : secondOk b c = true)
    (third : isCont d = true) :
    takeScalar (b :: c :: d :: rest) = some (some (Char.ofNat
      ((b.toNat % 16 * 64 + tailBits c) * 64 + tailBits d)), rest) := by
  have width : charWidth b = 3 := by
    rw [charWidth_eq, if_neg (by omega), if_neg (by omega), if_pos lead]
  simp only [takeScalar, width, second, third, if_true]

theorem takeScalar_four (lead : 240 ≤ b.toNat ∧ b.toNat ≤ 244) (second : secondOk b c = true)
    (third : isCont d = true) (fourth : isCont e = true) :
    takeScalar (b :: c :: d :: e :: rest) = some (some (Char.ofNat
      (((b.toNat % 8 * 64 + tailBits c) * 64 + tailBits d) * 64 + tailBits e)), rest) := by
  have width : charWidth b = 4 := by
    rw [charWidth_eq, if_neg (by omega), if_neg (by omega), if_neg (by omega), if_pos lead]
  simp only [takeScalar, width, second, third, fourth, if_true]

end

theorem toNat_ofNat {n : ℕ} (small : n < 256) : (UInt8.ofNat n).toNat = n :=
  UInt8.toNat_ofNat_of_lt' small

theorem isCont_ofNat (n : ℕ) : isCont (UInt8.ofNat (n % 64 + 128)) = true := by
  rw [isCont_iff, toNat_ofNat (by omega)]
  omega

theorem tailBits_ofNat (n : ℕ) : tailBits (UInt8.ofNat (n % 64 + 128)) = n % 64 := by
  rw [tailBits, toNat_ofNat (by omega)]
  omega

/-- The decoder takes an encoded scalar off the front. -/
theorem takeScalar_encode (c : Char) (rest : Bytes) :
    takeScalar (String.utf8EncodeChar c ++ rest) = some (some c, rest) := by
  have valid : c.toNat < 55296 ∨ 57343 < c.toNat ∧ c.toNat < 1114112 := c.valid
  have scalar : ∀ {n}, n = c.toNat → Char.ofNat n = c := fun same => same ▸ Char.ofNat_toNat c
  have value : c.val.toNat = c.toNat := rfl
  unfold String.utf8EncodeChar
  simp only [value]
  generalize c.toNat = v at valid scalar
  split_ifs with one two three
  · have lead := @toNat_ofNat v (by omega)
    rw [List.singleton_append, takeScalar_one (by omega), scalar lead]
  · have lead := @toNat_ofNat (v / 64 % 32 + 192) (by omega)
    rw [List.cons_append, List.singleton_append, takeScalar_two (by omega) (isCont_ofNat v),
      tailBits_ofNat, scalar (by omega)]
  · have lead := @toNat_ofNat (v / 4096 % 16 + 224) (by omega)
    have second := @toNat_ofNat (v / 64 % 64 + 128) (by omega)
    rw [List.cons_append, List.cons_append, List.singleton_append,
      takeScalar_three (by omega) (secondOk_iff.mpr (by omega)) (isCont_ofNat v), tailBits_ofNat,
      tailBits_ofNat, scalar (by omega)]
  · have lead := @toNat_ofNat (v / 262144 % 8 + 240) (by omega)
    have second := @toNat_ofNat (v / 4096 % 64 + 128) (by omega)
    rw [List.cons_append, List.cons_append, List.cons_append, List.singleton_append,
      takeScalar_four (by omega) (secondOk_iff.mpr (by omega)) (isCont_ofNat (v / 64))
        (isCont_ofNat v), tailBits_ofNat, tailBits_ofNat, tailBits_ofNat, scalar (by omega)]

theorem encode_cons (c : Char) (s : Str) : encode (c :: s) = String.utf8EncodeChar c ++ encode s :=
  List.flatMap_cons

theorem encode_length (s : Str) : (encode s).length = utf8Len s := by
  induction s with
  | nil => rfl
  | cons c s ih =>
    rw [encode_cons, List.length_append, ih, String.length_utf8EncodeChar, utf8Len, utf8Len,
      List.map_cons, List.sum_cons]

theorem length_le_encode (s : Str) : s.length ≤ (encode s).length := by
  induction s with
  | nil => exact Nat.le_refl 0
  | cons c s ih =>
    have positive := c.utf8Size_pos
    rw [encode_cons, List.length_append, String.length_utf8EncodeChar, List.length_cons]
    omega

theorem fromUtf8Lossy_encode (s : Str) : fromUtf8Lossy (encode s) = s := by
  have enough : ∀ {s : Str} {fuel : ℕ}, s.length ≤ fuel →
      fromUtf8LossyFuel fuel (encode s) = s := by
    intro s fuel h
    induction s generalizing fuel with
    | nil => cases fuel <;> rfl
    | cons c s ih =>
      obtain ⟨fuel, rfl⟩ := Nat.exists_eq_add_one.mpr (Nat.zero_lt_of_lt h)
      rw [fromUtf8LossyFuel, encode_cons, takeScalar_encode]
      simp only [ih (Nat.le_of_succ_le_succ h), Option.getD_some]
  exact enough (length_le_encode s)

end ZetMQ.Utf8Codec
