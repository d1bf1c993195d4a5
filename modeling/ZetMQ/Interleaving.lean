import Mathlib.Data.List.Basic

/-! Calls that run at the same time over one shared state. A call is known by what is
left of it; `next` says what its next atomic step does and what is left then. A run
lets calls begin and lets any of those in progress make a step. -/
namespace ZetMQ.Interleaving

variable {S C : Type}

structure Shared (S C : Type) where
  state : S
  pending : List C

inductive Event (C : Type) where
  | begin (call : C)
  | advance (i : ℕ)

def Event.map {D : Type} (f : C → D) : Event C → Event D
  | .begin call => .begin (f call)
  | .advance i => .advance i

variable (next : S → C → S × Option C)

namespace Shared

/-- The state after the step that call `i`, of which `call` is left, makes. -/
def advance (s : Shared S C) (i : ℕ) (call : C) : Shared S C where
  state := (next s.state call).1
  pending := match (next s.state call).2 with
    | some rest => s.pending.set i rest
    | none => s.pending.eraseIdx i

def step (s : Shared S C) : Event C → Shared S C
  | .begin call => { s with pending := s.pending ++ [call] }
  | .advance i =>
    match s.pending[i]? with
    | none => s
    | some call => s.advance next i call

def run (s : Shared S C) : List (Event C) → Shared S C
  | [] => s
  | event :: events => (s.step next event).run events

def steps (s : Shared S C) : List (Event C) → List (S × C)
  | [] => []
  | .begin call :: events => (s.step next (.begin call)).steps events
  | .advance i :: events =>
    (s.pending[i]?.map fun call => (s.state, call)).toList ++
      (s.step next (.advance i)).steps events

end Shared

/-- The call, not interrupted by others, comes to its end with `final`. -/
inductive Finishes : S → C → S → Prop where
  | last {state final : S} {call : C} (moved : next state call = (final, none)) :
    Finishes state call final
  | more {state mid final : S} {call rest : C} (moved : next state call = (mid, some rest))
    (later : Finishes mid rest final) : Finishes state call final

def Ends (state : S) : Option C → S → Prop
  | none, final => state = final
  | some call, final => Finishes next state call final

variable {call : C} {s : Shared S C} {i : ℕ}

theorem Finishes.step {state mid final : S} {rest : Option C}
    (moved : next state call = (mid, rest)) (later : Ends next mid rest final) :
    Finishes next state call final := by
  cases rest with
  | none => exact .last (later ▸ moved)
  | some rest => exact .more moved later

open Shared

theorem run_invariant {P : Shared S C → List (S × C) → Prop} {entry : C → Prop}
    (begin : ∀ s past call, entry call → P s past →
      P { s with pending := s.pending ++ [call] } past)
    (advance : ∀ s past i call, P s past → s.pending[i]? = some call →
      P (s.advance next i call) (past ++ [(s.state, call)]))
    {events : List (Event C)} (entries : ∀ call, .begin call ∈ events → entry call)
    {s : Shared S C} {past : List (S × C)} (start : P s past) :
    P (s.run next events) (past ++ s.steps next events) := by
  induction events generalizing s past with
  | nil => simpa [run, steps] using start
  | cons event events ih =>
    have later : ∀ {s past}, P s past → P (s.run next events) (past ++ s.steps next events) :=
      ih fun call member => entries call (List.mem_cons_of_mem _ member)
    cases event with
    | begin call => exact later (begin s past call (entries call List.mem_cons_self) start)
    | advance i =>
      cases found : s.pending[i]? with
      | none =>
        have same : s.step next (.advance i) = s := by simp [step, found]
        simpa [run, steps, found, same] using later start
      | some call =>
        have moved : s.step next (.advance i) = s.advance next i call := by simp [step, found]
        have after := later (advance s past i call start found)
        simpa [run, steps, found, moved, List.append_assoc] using after

section
variable (found : s.pending[i]? = some call)
include found

theorem advance_perm :
    ∃ others, s.pending.Perm (call :: others) ∧
      (s.advance next i call).pending.Perm ((next s.state call).2.toList ++ others) := by
  obtain ⟨inside, here⟩ := List.getElem?_eq_some_iff.mp found
  have split : s.pending = s.pending.take i ++ call :: s.pending.drop (i + 1) := by
    rw [← here, List.getElem_cons_drop, List.take_append_drop]
  refine ⟨s.pending.take i ++ s.pending.drop (i + 1), ?_, ?_⟩
  · exact (List.Perm.of_eq split).trans List.perm_middle
  · cases left : (next s.state call).2 with
    | none =>
      simp only [advance, left]
      exact List.Perm.of_eq (List.eraseIdx_eq_take_drop_succ ..)
    | some rest =>
      simp only [advance, left, List.set_eq_take_cons_drop rest inside]
      exact List.perm_middle

theorem mem_of_mem_advance {other : C} (member : other ∈ (s.advance next i call).pending) :
    (next s.state call).2 = some other ∨ other ∈ s.pending := by
  obtain ⟨others, before, after⟩ := advance_perm next found
  rw [after.mem_iff, List.mem_append, Option.mem_toList] at member
  exact member.imp_right fun old => before.mem_iff.mpr (List.mem_cons_of_mem _ old)

theorem mem_advance_of_ne {other : C} (different : other ≠ call) (member : other ∈ s.pending) :
    other ∈ (s.advance next i call).pending := by
  obtain ⟨others, before, after⟩ := advance_perm next found
  rw [before.mem_iff, List.mem_cons] at member
  exact after.mem_iff.mpr (List.mem_append_right _ (member.resolve_left different))

theorem rest_mem_advance {rest : C} (left : (next s.state call).2 = some rest) :
    rest ∈ (s.advance next i call).pending := by
  obtain ⟨others, _, after⟩ := advance_perm next found
  rw [after.mem_iff, left]
  simp

end

end ZetMQ.Interleaving
