import Mathlib.Algebra.Order.Ring.Nat
import Mathlib.Data.List.Infix

/-! Logs that lose their oldest entries: shortening a list from the front until it
fits, the longest admissible suffix of a growing history, and lists whose entries
are numbered one after another, where a number is a position. -/
namespace ZetMQ.BoundedLog

variable {α : Type}

/-- Drop entries from the front while the list is exceeds a limit. -/
def shed (exceeds : List α → Bool) : List α → List α
  | [] => []
  | x :: xs => if exceeds (x :: xs) then shed exceeds xs else x :: xs

variable {exceeds : List α → Bool} {ys : List α} {x : α}

theorem shed_never (never : ∀ xs, exceeds xs = false) (xs : List α) : shed exceeds xs = xs := by
  cases xs with
  | nil => rfl
  | cons x xs => rw [shed, never, if_neg Bool.false_ne_true]

theorem shed_suffix (exceeds : List α → Bool) (xs : List α) : shed exceeds xs <:+ xs := by
  induction xs with
  | nil => exact List.suffix_rfl
  | cons x xs ih =>
    unfold shed
    split
    · exact ih.trans (List.suffix_cons x xs)
    · exact List.suffix_rfl

theorem shed_fits {xs : List α} (left : shed exceeds xs ≠ []) :
    exceeds (shed exceeds xs) = false := by
  induction xs with
  | nil => exact absurd rfl left
  | cons x xs ih =>
    unfold shed at left ⊢
    split
    · rw [if_pos ‹_›] at left
      exact ih left
    · exact Bool.not_eq_true _ ▸ ‹_›

theorem suffix_shed {xs : List α} (suffix : ys <:+ xs) (fits : exceeds ys = false) :
    ys <:+ shed exceeds xs := by
  induction xs with
  | nil => exact suffix
  | cons x xs ih =>
    unfold shed
    split
    · rename_i tooLong
      cases List.suffix_cons_iff.mp suffix with
      | inl whole =>
        rw [whole, tooLong] at fits
        exact absurd fits (by decide)
      | inr later => exact ih later
    · exact suffix

/-- The longest suffix of `history` that is admissible. -/
structure IsLongest (Admissible : List α → Prop) (history kept : List α) : Prop where
  suffix : kept <:+ history
  admissible : Admissible kept
  longest : ∀ ys, ys <:+ history → Admissible ys → ys <:+ kept

theorem suffix_append {xs : List α} (suffix : ys <:+ xs) (more : List α) :
    ys ++ more <:+ xs ++ more := by
  obtain ⟨first, rfl⟩ := suffix
  exact ⟨first, (List.append_assoc ..).symm⟩

theorem suffix_concat {history : List α} (suffix : ys <:+ history ++ [x]) (nonempty : ys ≠ []) :
    ∃ older, ys = older ++ [x] ∧ older <:+ history := by
  cases List.suffix_concat_iff.mp suffix with
  | inl empty => exact absurd empty nonempty
  | inr found => exact found

theorem longest_concat {Admissible : List α → Prop} {history kept : List α}
    (before : ∀ ys, ys <:+ history → Admissible ys → ys <:+ kept)
    (nonempty : ∀ ys, Admissible ys → ys ≠ [])
    (shorter : ∀ ys, Admissible (ys ++ [x]) → ys ≠ [] → Admissible ys)
    (suffix : ys <:+ history ++ [x]) (admissible : Admissible ys) : ys <:+ kept ++ [x] := by
  obtain ⟨older, rfl, inside⟩ := suffix_concat suffix (nonempty ys admissible)
  have older_kept : older <:+ kept := by
    by_cases none : older = []
    · rw [none]
      exact List.nil_suffix
    · exact before older inside (shorter older admissible none)
  exact suffix_append older_kept [x]

def Numbered (number : α → ℕ) : ℕ → List α → Prop
  | _, [] => True
  | first, x :: xs => number x = first ∧ Numbered number (first + 1) xs

variable {number : α → ℕ} {first : ℕ} {xs : List α}

theorem Numbered.drop (numbered : Numbered number first xs) (n : ℕ) :
    Numbered number (first + n) (xs.drop n) := by
  induction n generalizing first xs with
  | zero => exact numbered
  | succ n ih =>
    cases xs with
    | nil => trivial
    | cons x xs =>
      rw [List.drop_succ_cons, show first + (n + 1) = first + 1 + n by omega]
      exact ih numbered.2

theorem Numbered.suffix {kept : List α} (numbered : Numbered number 1 xs) (suffix : kept <:+ xs) :
    Numbered number (xs.length + 1 - kept.length) kept := by
  have shorter := suffix.length_le
  rw [List.suffix_iff_eq_drop.mp suffix, List.length_drop,
    show xs.length + 1 - (xs.length - (xs.length - kept.length)) = 1 + (xs.length - kept.length) by
      omega]
  exact numbered.drop _

theorem Numbered.getElem? (numbered : Numbered number first xs) {i : ℕ} (found : xs[i]? = some x) :
    number x = first + i := by
  induction xs generalizing first i with
  | nil => simp at found
  | cons y ys ih =>
    cases i with
    | zero =>
      rw [List.getElem?_cons_zero, Option.some.injEq] at found
      rw [← found, numbered.1, Nat.add_zero]
    | succ i =>
      rw [List.getElem?_cons_succ] at found
      rw [ih numbered.2 found]
      omega

theorem Numbered.filter (numbered : Numbered number first xs) (low high : ℕ) :
    xs.filter (fun x => low ≤ number x ∧ number x ≤ high) =
      (xs.drop (low - first)).take (high + 1 - max low first) := by
  induction xs generalizing first with
  | nil => simp
  | cons x xs ih =>
    have later := ih numbered.2
    rw [List.filter_cons, numbered.1, later]
    by_cases below : first < low
    · have skipped : low - first = (low - (first + 1)) + 1 := by omega
      have same : max low (first + 1) = max low first := by omega
      rw [if_neg (by simp; omega), skipped, List.drop_succ_cons, same]
    · by_cases above : high < first
      · rw [if_neg (by simp; omega), show high + 1 - max low first = 0 by omega,
          show high + 1 - max low (first + 1) = 0 by omega, List.take_zero, List.take_zero]
      · rw [if_pos (by simp; omega), show low - first = 0 by omega,
          show low - (first + 1) = 0 by omega, List.drop_zero, List.drop_zero,
          show high + 1 - max low first = high + 1 - max low (first + 1) + 1 by omega,
          List.take_succ_cons]

end ZetMQ.BoundedLog
