import Mathlib.Data.List.Basic

/-! Noninterference of a deterministic machine: what is observed of some of its
operations does not depend on others. The rule asks for a relation of states that
hidden operations do not leave, the others preserve, and observed ones cannot tell
apart. -/
namespace ZetMQ.Noninterference

variable {S O R : Type} (step : S → O → R × S)

/-- The results of the observed operations of a run. -/
def observe (observed : O → Bool) : S → List O → List R
  | _, [] => []
  | s, op :: ops =>
    if observed op then (step s op).1 :: observe observed (step s op).2 ops
    else observe observed (step s op).2 ops

def purge (hidden : O → Bool) (ops : List O) : List O := ops.filter fun op => !hidden op

/-- `similar` states differ in what hidden operations change, and not for observers. -/
structure Unwinds (observed hidden : O → Bool) (similar : S → S → Prop) : Prop where
  disjoint : ∀ op, observed op = true → hidden op = false
  hides : ∀ s t op, similar s t → hidden op = true → similar (step s op).2 t
  keeps : ∀ s t op, similar s t → hidden op = false → similar (step s op).2 (step t op).2
  agrees : ∀ s t op, similar s t → observed op = true → (step s op).1 = (step t op).1

variable {step} {observed hidden : O → Bool} {similar : S → S → Prop}

theorem observe_purge (unwinds : Unwinds step observed hidden similar) {s t : S}
    (alike : similar s t) (ops : List O) :
    observe step observed s ops = observe step observed t (purge hidden ops) := by
  induction ops generalizing s t with
  | nil => rfl
  | cons op ops ih =>
    cases covert : hidden op with
    | true =>
      have unseen : ¬observed op = true := fun seen => by
        rw [unwinds.disjoint op seen] at covert
        cases covert
      rw [observe, if_neg unseen, purge, List.filter_cons_of_neg (by simp [covert])]
      exact ih (unwinds.hides s t op alike covert)
    | false =>
      have later := ih (unwinds.keeps s t op alike covert)
      rw [observe, purge, List.filter_cons_of_pos (by simp [covert]), observe, later]
      by_cases seen : observed op = true
      · rw [if_pos seen, if_pos seen, unwinds.agrees s t op alike seen]
        rfl
      · rw [if_neg seen, if_neg seen]
        rfl

end ZetMQ.Noninterference
