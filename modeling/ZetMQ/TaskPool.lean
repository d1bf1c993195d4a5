import Mathlib.Data.List.Basic
import Mathlib.Data.List.Perm.Basic

/-! Tasks that are spawned and run in any order. Each works on a shared state in one step,
and then offers its replies, which may be refused. Whatever the order, no task is lost or
runs twice, the state is that of the tasks one after another, and every reply is offered
at most once. -/
namespace ZetMQ.TaskPool

variable {τ σ ρ : Type*} (perform : σ → τ → List ρ × σ)

structure Pool (τ σ ρ : Type*) where
  pending : List τ
  done : List τ
  state : σ
  unsent : List ρ
  offered : List (ρ × Bool)

namespace Pool

def start (state : σ) : Pool τ σ ρ := ⟨[], [], state, [], []⟩

def spawn (pool : Pool τ σ ρ) (tasks : List τ) : Pool τ σ ρ :=
  { pool with pending := pool.pending ++ tasks }

def work (pool : Pool τ σ ρ) (k : ℕ) : Pool τ σ ρ :=
  match pool.pending[k]? with
  | none => pool
  | some task =>
    let (replies, state) := perform pool.state task
    { pool with
      pending := pool.pending.eraseIdx k
      done := pool.done ++ [task]
      state := state
      unsent := pool.unsent ++ replies }

def offer (pool : Pool τ σ ρ) (k : ℕ) (taken : Bool) : Pool τ σ ρ :=
  match pool.unsent[k]? with
  | none => pool
  | some reply =>
    { pool with
      unsent := pool.unsent.eraseIdx k
      offered := pool.offered ++ [(reply, taken)] }

def replies (pool : Pool τ σ ρ) : List ρ := pool.offered.map (·.1) ++ pool.unsent

end Pool

/-- One task after another. -/
def serial (state : σ) : List τ → List ρ × σ
  | [] => ([], state)
  | task :: tasks =>
    let first := perform state task
    let rest := serial first.2 tasks
    (first.1 ++ rest.1, rest.2)

theorem serial_concat (state : σ) (tasks : List τ) (task : τ) :
    serial perform state (tasks ++ [task]) =
      ((serial perform state tasks).1 ++ (perform (serial perform state tasks).2 task).1,
        (perform (serial perform state tasks).2 task).2) := by
  induction tasks generalizing state with
  | nil => simp [serial]
  | cons first tasks ih => simp [serial, ih]

theorem serial_induction {P : σ → Prop} (kept : ∀ state task, P state → P (perform state task).2)
    {state : σ} (start : P state) (tasks : List τ) : P (serial perform state tasks).2 := by
  induction tasks generalizing state with
  | nil => exact start
  | cons task tasks ih => exact ih (kept state task start)

/-- Against the tasks spawned so far. -/
structure Sound (start : σ) (issued : List τ) (pool : Pool τ σ ρ) : Prop where
  perm : (pool.done ++ pool.pending).Perm issued
  state : (serial perform start pool.done).2 = pool.state
  replies : pool.replies.Perm (serial perform start pool.done).1

section
variable {perform} {start : σ} {issued : List τ} {pool : Pool τ σ ρ}

theorem sound_start : Sound perform start [] (.start start) := ⟨.nil, rfl, .nil⟩

section
variable (h : Sound perform start issued pool)
include h

theorem Sound.spawn (tasks : List τ) :
    Sound perform start (issued ++ tasks) (pool.spawn tasks) := by
  refine ⟨?_, h.state, h.replies⟩
  rw [Pool.spawn, ← List.append_assoc]
  exact h.perm.append_right tasks

theorem Sound.work (k : ℕ) : Sound perform start issued (pool.work perform k) := by
  rw [Pool.work]
  split
  · exact h
  · rename_i task found
    obtain ⟨inside, rfl⟩ := List.getElem?_eq_some_iff.mp found
    refine ⟨?_, ?_, ?_⟩ <;> dsimp only
    · refine .trans ?_ h.perm
      rw [List.append_assoc]
      exact (List.getElem_cons_eraseIdx_perm inside).append_left _
    · rw [serial_concat, h.state]
    · rw [serial_concat, h.state, Pool.replies, ← List.append_assoc]
      exact h.replies.append_right _

theorem Sound.offer (k : ℕ) (taken : Bool) : Sound perform start issued (pool.offer k taken) := by
  rw [Pool.offer]
  split
  · exact h
  · rename_i reply found
    obtain ⟨inside, rfl⟩ := List.getElem?_eq_some_iff.mp found
    refine ⟨h.perm, h.state, .trans ?_ h.replies⟩
    rw [Pool.replies, Pool.replies, List.map_append, List.append_assoc]
    exact (List.getElem_cons_eraseIdx_perm inside).append_left _

end

end

end ZetMQ.TaskPool
