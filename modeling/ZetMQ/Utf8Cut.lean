import ZetMQ.Utf8Codec

/-! What decoding with replacement makes of an encoding that was cut short. A cut may
turn the last scalar into replacement characters, but a longer piece that is missing
shows in the number of scalars. -/
namespace ZetMQ.Utf8Cut
open Utf8Text Utf8Codec

theorem takeScalar_shorter {bytes rest : Bytes} {c : Option Char}
    (taken : takeScalar bytes = some (c, rest)) : rest.length < bytes.length := by
  unfold takeScalar at taken
  split at taken
  · cases taken
  · repeat' split at taken
    all_goals
      cases taken
      simp only [List.length_cons]
      omega

theorem fromUtf8LossyFuel_length_le (fuel : ℕ) (bytes : Bytes) :
    (fromUtf8LossyFuel fuel bytes).length ≤ bytes.length := by
  induction fuel generalizing bytes with
  | zero => exact Nat.zero_le _
  | succ fuel ih =>
    rw [fromUtf8LossyFuel]
    cases taken : takeScalar bytes with
    | none => exact Nat.zero_le _
    | some front =>
      have shorter := takeScalar_shorter taken
      have later := ih front.2
      simp only [List.length_cons]
      omega

/-- Bytes that no scalar begins with are replaced one by one. -/
theorem fromUtf8Lossy_replicate (n : ℕ) :
    fromUtf8Lossy (List.replicate n 0xff) = List.replicate n '�' := by
  rw [fromUtf8Lossy, List.length_replicate]
  induction n with
  | zero => rfl
  | succ n ih =>
    have taken : takeScalar (0xff :: List.replicate n 0xff) =
        some (none, List.replicate n 0xff) := rfl
    rw [List.replicate_succ, fromUtf8LossyFuel, taken]
    exact congrArg _ ih

theorem utf8Len_cons (c : Char) (s : Str) : utf8Len (c :: s) = c.utf8Size + utf8Len s := by
  rw [utf8Len, List.map_cons, List.sum_cons, utf8Len]

theorem utf8Len_replicate (n : ℕ) (c : Char) : utf8Len (List.replicate n c) = n * c.utf8Size := by
  induction n with
  | zero => rw [Nat.zero_mul, List.replicate_zero, utf8Len, List.map_nil, List.sum_nil]
  | succ n ih => rw [List.replicate_succ, utf8Len_cons, ih, Nat.succ_mul, Nat.add_comm]

theorem utf8Len_le (s : Str) : utf8Len s ≤ 4 * s.length := by
  induction s with
  | nil => exact Nat.le_refl 0
  | cons c s ih =>
    have size := c.utf8Size_le_four
    rw [utf8Len_cons, List.length_cons]
    omega

theorem fromUtf8LossyFuel_cut (fuel : ℕ) {s : Str} {n : ℕ} (cut : n + 12 < utf8Len s) :
    (fromUtf8LossyFuel fuel ((encode s).take n)).length < s.length := by
  induction s generalizing fuel n with
  | nil => simp [utf8Len] at cut
  | cons c s ih =>
    by_cases whole : c.utf8Size ≤ n
    · -- the first scalar is left whole
      have front : (encode (c :: s)).take n =
          String.utf8EncodeChar c ++ (encode s).take (n - c.utf8Size) := by
        rw [encode_cons, List.take_append, String.length_utf8EncodeChar, List.take_of_length_le]
        rwa [String.length_utf8EncodeChar]
      cases fuel with
      | zero => simp [fromUtf8LossyFuel]
      | succ fuel =>
        rw [utf8Len_cons] at cut
        have later := ih fuel (n := n - c.utf8Size) (by omega)
        rw [front, fromUtf8LossyFuel, takeScalar_encode]
        simpa using later
    · -- at most three bytes are left, of a text of more than three scalars
      have few := fromUtf8LossyFuel_length_le fuel ((encode (c :: s)).take n)
      have part := List.length_take_le n (encode (c :: s))
      have size := c.utf8Size_le_four
      have bound := utf8Len_le (c :: s)
      omega

/-- More than twelve missing bytes are missing scalars. -/
theorem fromUtf8Lossy_cut {s : Str} {n : ℕ} (cut : n + 12 < utf8Len s) :
    (fromUtf8Lossy ((encode s).take n)).length < s.length :=
  fromUtf8LossyFuel_cut _ cut

theorem fromUtf8Lossy_cut_ne {s : Str} {n : ℕ} (cut : n + 12 < utf8Len s) :
    fromUtf8Lossy ((encode s).take n) ≠ s :=
  fun same => (fromUtf8Lossy_cut cut).ne (congrArg List.length same)

end ZetMQ.Utf8Cut
