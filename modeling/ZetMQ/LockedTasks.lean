import ZetMQ.KeyedTable

/-! Tasks that share a state and one lock. A task goes on step by step; where it cannot,
because the lock is taken or because of the state, nothing happens and it is asked again
later. The lock is no part of the state: it is taken while a task is at a stage inside. -/
namespace ZetMQ.LockedTasks
open KeyedTable

variable {State Stage Choice : Type}

structure Program (State Stage Choice : Type) where
  waits : Stage → Bool
  inside : Stage → Bool
  work : State → Stage → Choice → Option (State × Stage)
  enters : ∀ {state stage choice state' stage'}, work state stage choice = some (state', stage') →
    inside stage' = true → waits stage = true ∨ inside stage = true

structure Tasks (State Stage : Type) where
  state : State
  stages : List Stage

namespace Tasks

def free (p : Program State Stage Choice) (t : Tasks State Stage) : Bool :=
  t.stages.all fun stage => !p.inside stage

/-- The step that task `i` can make. -/
def next (p : Program State Stage Choice) (t : Tasks State Stage) (i : ℕ) (choice : Choice) :
    Option (Stage × State × Stage) :=
  match t.stages[i]? with
  | none => none
  | some stage =>
    if p.waits stage && !t.free p then none else (p.work t.state stage choice).map (stage, ·)

def advance (p : Program State Stage Choice) (t : Tasks State Stage) (i : ℕ) (choice : Choice) :
    Tasks State Stage :=
  match t.next p i choice with
  | none => t
  | some (_, state, stage) => ⟨state, t.stages.set i stage⟩

end Tasks

variable {stage stage' : Stage} {stages : List Stage}

section
variable {p : Program State Stage Choice} {t : Tasks State Stage} {i j : ℕ} {choice : Choice}

theorem free_iff : t.free p = true ↔
    ∀ (i : ℕ) (stage : Stage), t.stages[i]? = some stage → p.inside stage = false := by
  rw [Tasks.free, List.all_eq_true]
  constructor
  · intro all i stage found
    simpa using all stage (List.mem_of_getElem? found)
  · intro all stage member
    obtain ⟨i, found⟩ := List.mem_iff_getElem?.mp member
    rw [all i stage found]
    rfl

theorem next_eq_some {state : State} :
    t.next p i choice = some (stage, state, stage') ↔
      t.stages[i]? = some stage ∧ (p.waits stage = true → t.free p = true) ∧
        p.work t.state stage choice = some (state, stage') := by
  rw [Tasks.next]
  cases t.stages[i]? with
  | none => simp
  | some found =>
    cases p.waits found <;> cases t.free p <;> simp <;> aesop

theorem advance_cases {motive : Tasks State Stage → Prop} (waits : motive t)
    (moves : ∀ stage state stage', t.stages[i]? = some stage →
      (p.waits stage = true → t.free p = true) →
      p.work t.state stage choice = some (state, stage') →
      motive ⟨state, t.stages.set i stage'⟩) :
    motive (t.advance p i choice) := by
  rw [Tasks.advance]
  cases step : t.next p i choice with
  | none => exact waits
  | some step' =>
    obtain ⟨stage, state, stage'⟩ := step'
    obtain ⟨found, lock, work⟩ := next_eq_some.mp step
    exact moves stage state stage' found lock work

def Exclusive (p : Program State Stage Choice) (stages : List Stage) : Prop :=
  ∀ (i j : ℕ) (stage stage' : Stage), stages[i]? = some stage → stages[j]? = some stage' →
    p.inside stage = true → p.inside stage' = true → i = j

theorem Exclusive.others (h : Exclusive p t.stages) {other : Stage}
    (found : t.stages[i]? = some stage) (inside : p.inside stage = true)
    (another : t.stages[j]? = some other) (ne : j ≠ i) : p.inside other = false := by
  by_contra both
  exact ne (h j i other stage another found (by simpa using both) inside)

theorem forall_set (found : stages[i]? = some stage) {before after : Stage → Prop}
    (all : ∀ (j : ℕ) (other : Stage), stages[j]? = some other → before other)
    (own : before stage → after stage') (others : ∀ other, before other → after other) :
    ∀ (j : ℕ) (other : Stage), (stages.set i stage')[j]? = some other → after other := by
  intro j other at_j
  rcases getElem?_set_cases at_j with ⟨rfl, rfl⟩ | ⟨-, at_j⟩
  · exact own (all _ _ found)
  · exact others other (all j other at_j)

/-- A step with the lock, or one that takes it: the other tasks are outside. -/
theorem Exclusive.forall_set (h : Exclusive p t.stages) (found : t.stages[i]? = some stage)
    (lock : p.waits stage = true → t.free p = true)
    (locked : p.inside stage = true ∨ p.waits stage = true) {before after : Stage → Prop}
    (all : ∀ (j : ℕ) (other : Stage), t.stages[j]? = some other → before other)
    (own : before stage → after stage')
    (others : ∀ other, p.inside other = false → before other → after other) :
    ∀ (j : ℕ) (other : Stage), (t.stages.set i stage')[j]? = some other → after other := by
  intro j other at_j
  rcases getElem?_set_cases at_j with ⟨rfl, rfl⟩ | ⟨ne, at_j⟩
  · exact own (all _ _ found)
  · refine others other ?_ (all j other at_j)
    rcases locked with inside | waits
    · exact h.others found inside at_j ne
    · exact free_iff.mp (lock waits) j other at_j

theorem Exclusive.concat (h : Exclusive p stages) (outside : p.inside stage = false) :
    Exclusive p (stages ++ [stage]) := by
  intro i j a b ha hb insideA insideB
  rcases getElem?_concat_cases ha with ha | ⟨rfl, rfl⟩
  · rcases getElem?_concat_cases hb with hb | ⟨rfl, rfl⟩
    · exact h i j a b ha hb insideA insideB
    · rw [outside] at insideB
      cases insideB
  · rw [outside] at insideA
    cases insideA

theorem Exclusive.set (h : Exclusive p stages)
    (alone : p.inside stage = true → ∀ (j : ℕ) (other : Stage), j ≠ i → stages[j]? = some other →
      p.inside other = false) : Exclusive p (stages.set i stage) := by
  intro k l a b ha hb insideA insideB
  rcases getElem?_set_cases ha with ⟨rfl, rfl⟩ | ⟨ka, at_k⟩ <;>
    rcases getElem?_set_cases hb with ⟨rfl, rfl⟩ | ⟨lb, at_l⟩
  · rfl
  · rw [alone insideA l b lb at_l] at insideB
    cases insideB
  · rw [alone insideB k a ka at_k] at insideA
    cases insideA
  · exact h k l a b at_k at_l insideA insideB

theorem Exclusive.moved (h : Exclusive p t.stages) {state : State}
    (found : t.stages[i]? = some stage) (lock : p.waits stage = true → t.free p = true)
    (work : p.work t.state stage choice = some (state, stage')) :
    Exclusive p (t.stages.set i stage') := by
  refine h.set fun inside j other ne at_j => ?_
  rcases p.enters work inside with waits | held
  · exact free_iff.mp (lock waits) j other at_j
  · exact h.others found held at_j ne

end

end ZetMQ.LockedTasks
