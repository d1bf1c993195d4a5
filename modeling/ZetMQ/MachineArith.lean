import Mathlib.Algebra.Order.Ring.Nat

/-! Unsigned 64-bit arithmetic as a program is built: the same source subtracts
and multiplies exactly while the result fits, and otherwise wraps around in one
build and aborts in another. -/
namespace ZetMQ.MachineArith

/-- The operations of one build. What they give when the exact result does not
fit is the build's own choice. -/
structure Arith (m : Type → Type) [Monad m] where
  sub : ℕ → ℕ → m ℕ
  mul : ℕ → ℕ → m ℕ
  sub_exact : ∀ {a b}, b ≤ a → sub a b = pure (a - b)
  mul_exact : ∀ {a b}, a * b < 2 ^ 64 → mul a b = pure (a * b)

/-- An optimised build. -/
def wrapping : Arith Id where
  sub a b := pure (if b ≤ a then a - b else 2 ^ 64 + a - b)
  mul a b := pure (a * b % 2 ^ 64)
  sub_exact h := by rw [if_pos h]
  mul_exact h := by rw [Nat.mod_eq_of_lt h]

def checked : Arith Option where
  sub a b := if b ≤ a then some (a - b) else none
  mul a b := if a * b < 2 ^ 64 then some (a * b) else none
  sub_exact h := if_pos h
  mul_exact h := if_pos h

theorem checked_sub_eq_some {a b c : ℕ} : checked.sub a b = some c ↔ b ≤ a ∧ a - b = c := by
  simp only [checked, Option.ite_none_right_eq_some, Option.some.injEq]

theorem checked_mul_eq_some {a b c : ℕ} :
    checked.mul a b = some c ↔ a * b < 2 ^ 64 ∧ a * b = c := by
  simp only [checked, Option.ite_none_right_eq_some, Option.some.injEq]

end ZetMQ.MachineArith
