import Mathlib.Data.List.Rotate
import Mathlib.Data.List.Nodup

/-! Serving the entries of a list in turn with a counter taken modulo its length.
From any value of the counter a full round is a rotation of the list, so a run
serves every entry equally often up to one. -/
namespace ZetMQ.CyclicTurns

variable {α : Type*} (l : List α)

/-- The entries that the counter values `start`, `start + 1`, … select. -/
def served (start count : ℕ) : List α :=
  (List.range' start count).filterMap fun index => l[index % l.length]?

variable {count : ℕ} (start : ℕ)

@[simp] theorem served_zero : served l start 0 = [] := rfl

theorem served_one : served l start 1 = l[start % l.length]?.toList := by
  rw [served, List.range'_one]
  cases chosen : l[start % l.length]? with
  | none => exact List.filterMap_cons_none chosen
  | some entry => exact List.filterMap_cons_some chosen

theorem served_add (first rest : ℕ) :
    served l start (first + rest) = served l start first ++ served l (start + first) rest := by
  rw [served, ← List.range'_append_1, List.filterMap_append, served, served]

theorem served_part (short : count ≤ l.length) :
    served l start count = (l.rotate start).take count := by
  induction count with
  | zero => rfl
  | succ count ih =>
    rw [served_add, served_one, ih (by omega), List.take_add_one, List.getElem?_rotate short,
      Nat.add_comm start count]

theorem served_round : served l start l.length = l.rotate start := by
  rw [served_part l start le_rfl, List.take_of_length_le (List.length_rotate l start).le]

theorem served_round_perm : (served l start l.length).Perm l := by
  rw [served_round]
  exact List.rotate_perm l start

theorem length_served (filled : l ≠ []) (start count : ℕ) :
    (served l start count).length = count := by
  have inside (index : ℕ) : index % l.length < l.length :=
    Nat.mod_lt _ (List.length_pos_iff.mpr filled)
  induction count generalizing start with
  | zero => rfl
  | succ count ih =>
    rw [served_add, served_one, List.length_append, ih, List.getElem?_eq_getElem (inside _)]
    rfl

theorem served_stretch (filled : l ≠ []) {start skipped length : ℕ}
    (inside : skipped + length ≤ count) :
    ((served l start count).drop skipped).take length = served l (start + skipped) length := by
  obtain ⟨rest, rfl⟩ := Nat.exists_eq_add_of_le inside
  rw [served_add, served_add, List.append_assoc,
    List.drop_left' (length_served l filled start skipped),
    List.take_left' (length_served l filled (start + skipped) length)]

theorem ceil_of_part {n : ℕ} (part : 0 < count % n) (positive : 0 < n) :
    (count + n - 1) / n = count / n + 1 := by
  have split : count + n - 1 = count % n - 1 + n * (count / n + 1) := by
    have whole := Nat.div_add_mod count n
    rw [Nat.mul_succ]
    omega
  have short := Nat.mod_lt count positive
  rw [split, Nat.add_mul_div_left _ _ positive, Nat.div_eq_of_lt (by omega), Nat.zero_add]

variable [DecidableEq α]

theorem count_served_rounds (rounds : ℕ) (entry : α) :
    (served l start (l.length * rounds)).count entry = rounds * l.count entry := by
  induction rounds with
  | zero => simp
  | succ rounds ih =>
    rw [Nat.mul_succ, served_add, List.count_append, ih, (served_round_perm l _).count_eq,
      Nat.succ_mul]

/-- Every entry of a list without repetitions is served `⌊count / n⌋` or
`⌈count / n⌉` times. -/
theorem count_served (nodup : l.Nodup) {entry : α} (listed : entry ∈ l) (start count : ℕ) :
    (served l start count).count entry = count / l.length ∨
      (served l start count).count entry = (count + l.length - 1) / l.length := by
  have positive : 0 < l.length := List.length_pos_of_mem listed
  have once : l.count entry = 1 := List.count_eq_one_of_mem nodup listed
  have short := Nat.mod_lt count positive
  have rest : (served l (start + l.length * (count / l.length)) (count % l.length)).count entry
      ≤ 1 := by
    rw [served_part l _ short.le, ← once, ← (List.rotate_perm l _).count_eq entry]
    exact (List.take_sublist _ _).count_le entry
  have whole : (served l start count).count entry = count / l.length +
      (served l (start + l.length * (count / l.length)) (count % l.length)).count entry := by
    conv_lhs => rw [← Nat.div_add_mod count l.length, served_add, List.count_append,
      count_served_rounds, once, Nat.mul_one]
  rw [whole]
  cases part : count % l.length with
  | zero => simp
  | succ left =>
    rw [ceil_of_part (by omega) positive]
    rw [part] at rest
    omega

end ZetMQ.CyclicTurns
