import Mathlib.Data.List.Destutter
import Mathlib.Data.List.Flatten

/-! Runs of equal neighbours in a list. `List.destutter` keeps one element per
run, so the number of runs of a value is its count there. A value has a second
run exactly when another value stands between two of its occurrences, and that
can be decided inside one block of a concatenation whose other blocks miss it. -/
namespace ZetMQ.AdjacentRuns

variable {K : Type}

/-- Some occurrence of another value separates two occurrences of `k`. -/
def Split (k : K) (l : List K) : Prop := ∃ j, j ≠ k ∧ [k, j, k].Sublist l

theorem mem_destutter'_iff [DecidableEq K] (k a : K) (l : List K) :
    k ∈ l.destutter' (· ≠ ·) a ↔ k ∈ a :: l := by
  refine ⟨fun h => (List.destutter'_sublist ..).subset h, fun h => ?_⟩
  induction l generalizing a with
  | nil => simpa using h
  | cons b l ih =>
    by_cases same : a = b
    · rw [List.destutter'_cons_neg _ (by simpa using same)]
      exact ih a (by simpa [same] using h)
    · rw [List.destutter'_cons_pos _ same, List.mem_cons]
      rcases List.mem_cons.mp h with rfl | later
      · exact .inl rfl
      · exact .inr (ih b later)

theorem split_cons_of_ne {k a : K} (h : a ≠ k) (l : List K) : Split k (a :: l) ↔ Split k l := by
  refine exists_congr fun j => and_congr_right fun _ => ?_
  refine ⟨fun sub => ?_, fun sub => sub.cons a⟩
  cases sub with
  | cons _ inner => exact inner
  | cons_cons _ inner => exact absurd rfl h

theorem split_cons_self {k b : K} (h : b ≠ k) (l : List K) : Split k (k :: b :: l) ↔ k ∈ l := by
  constructor
  · rintro ⟨j, other, sub⟩
    have tail : [j, k].Sublist (b :: l) := by
      cases sub with
      | cons _ inner => exact (List.sublist_cons_self k _).trans inner
      | cons_cons _ inner => exact inner
    have member : k ∈ b :: l := tail.subset (by simp)
    exact (List.mem_cons.mp member).resolve_left (Ne.symm h)
  · intro member
    exact ⟨b, h, ((List.singleton_sublist.mpr member).cons_cons b).cons_cons k⟩

theorem split_cons_cons_self (k a : K) (l : List K) :
    Split k (a :: a :: l) ↔ Split k (a :: l) := by
  by_cases same : a = k
  · subst same
    refine exists_congr fun j => and_congr_right fun other => ?_
    refine ⟨fun sub => ?_, fun sub => sub.cons a⟩
    cases sub with
    | cons _ inner => exact inner
    | cons_cons _ inner =>
      cases inner with
      | cons _ inner => exact inner.cons_cons a
      | cons_cons _ inner => exact absurd rfl other
  · exact split_cons_of_ne same _

theorem one_lt_count_destutter' [DecidableEq K] [BEq K] [LawfulBEq K] (k a : K) (l : List K) :
    1 < (l.destutter' (· ≠ ·) a).count k ↔ Split k (a :: l) := by
  induction l generalizing a with
  | nil =>
    have short : ¬Split k [a] := by
      rintro ⟨j, -, sub⟩
      have := sub.length_le
      simp at this
    have once : ([a].count k) ≤ 1 := by simpa using List.count_le_length (a := k) (l := [a])
    simp only [List.destutter'_nil, short, iff_false]
    omega
  | cons b l ih =>
    by_cases same : a = b
    · subst same
      rw [List.destutter'_cons_neg _ (by simp), ih, split_cons_cons_self]
    · rw [List.destutter'_cons_pos _ same, List.count_cons]
      by_cases here : a = k
      · subst here
        have present : 0 < (l.destutter' (· ≠ ·) b).count a ↔ a ∈ l := by
          rw [List.count_pos_iff, mem_destutter'_iff, List.mem_cons]
          exact or_iff_right same
        rw [split_cons_self (Ne.symm same), ← present]
        simp
      · rw [split_cons_of_ne here, ← ih]
        simp [here]

theorem one_lt_count_destutter [DecidableEq K] [BEq K] [LawfulBEq K] (k : K) (l : List K) :
    1 < (l.destutter (· ≠ ·)).count k ↔ Split k l := by
  cases l with
  | nil =>
    have short : ¬Split k ([] : List K) := by
      rintro ⟨j, -, sub⟩
      have := sub.length_le
      simp at this
    simp [short]
  | cons a l => exact one_lt_count_destutter' k a l

theorem mem_destutter_iff [DecidableEq K] (k : K) (l : List K) :
    k ∈ l.destutter (· ≠ ·) ↔ k ∈ l := by
  cases l with
  | nil => simp
  | cons a l => exact mem_destutter'_iff k a l

/-- With `k` in one block only, a separated pair of `k` lies inside that block. -/
theorem split_flatMap_iff {B : Type} {k : K} (f : B → List K) {home : B} {blocks : List B}
    (nodup : blocks.Nodup) (listed : home ∈ blocks)
    (only : ∀ block ∈ blocks, k ∈ f block → block = home) :
    Split k (blocks.flatMap f) ↔ Split k (f home) := by
  refine exists_congr fun j => and_congr_right fun _ => ?_
  constructor
  · intro sub
    clear listed
    induction blocks with
    | nil => simp at sub
    | cons block rest ih =>
      rw [List.flatMap_cons, List.sublist_append_iff] at sub
      obtain ⟨left, right, joined, inLeft, inRight⟩ := sub
      have unique := List.nodup_cons.mp nodup
      have onlyRest : ∀ other ∈ rest, k ∈ f other → other = home :=
        fun other member => only other (List.mem_cons_of_mem _ member)
      have first : k ∈ left → block = home := fun member =>
        only block (List.mem_cons_self ..) (inLeft.subset member)
      have second : k ∈ right → home ∈ rest := by
        intro member
        obtain ⟨other, listed, inside⟩ := List.mem_flatMap.mp (inRight.subset member)
        exact onlyRest other listed inside ▸ listed
      -- the three elements cannot be cut between two blocks
      match left, joined with
      | [], joined =>
        rw [List.nil_append] at joined
        exact ih unique.2 onlyRest (joined ▸ inRight)
      | [a, b, c, d], joined => simp at joined
      | a :: left, joined =>
        rw [List.cons_append, List.cons.injEq] at joined
        obtain ⟨rfl, joined⟩ := joined
        obtain rfl := first (List.mem_cons_self ..)
        rcases right.eq_nil_or_concat' with rfl | ⟨front, last, rfl⟩
        · rw [List.append_nil] at joined
          rwa [← joined] at inLeft
        · have ends := congrArg List.getLast? joined
          simp only [List.getLast?_cons_cons, List.getLast?_singleton, ← List.append_assoc,
            List.getLast?_concat, Option.some.injEq] at ends
          exact absurd (second (by simp [ends])) unique.1
  · intro sub
    have inside := (List.singleton_sublist.mpr listed).flatMap f
    rw [List.flatMap_singleton] at inside
    exact sub.trans inside

theorem destutter'_append [DecidableEq K] (a : K) {first rest : List K}
    (apart : ∀ k ∈ rest, k ∉ a :: first) :
    (first ++ rest).destutter' (· ≠ ·) a =
      first.destutter' (· ≠ ·) a ++ rest.destutter (· ≠ ·) := by
  induction first generalizing a with
  | nil =>
    cases rest with
    | nil => rfl
    | cons b rest =>
      have other : a ≠ b := fun same => apart b (List.mem_cons_self ..) (by simp [same])
      rw [List.nil_append, List.destutter'_cons_pos _ other, List.destutter_cons']
      rfl
  | cons b first ih =>
    have later : ∀ k ∈ rest, k ∉ b :: first := fun k member inside =>
      apart k member (List.mem_cons_of_mem _ inside)
    by_cases same : a = b
    · subst same
      rw [List.cons_append, List.destutter'_cons_neg _ (by simp), ih a later,
        List.destutter'_cons_neg _ (by simp)]
    · rw [List.cons_append, List.destutter'_cons_pos _ same, ih b later,
        List.destutter'_cons_pos _ same]
      rfl

theorem destutter_flatMap [DecidableEq K] {B : Type} (f : B → List K) {blocks : List B}
    (apart : blocks.Pairwise fun a b => ∀ k ∈ f a, k ∉ f b) :
    (blocks.flatMap f).destutter (· ≠ ·) =
      blocks.flatMap fun block => (f block).destutter (· ≠ ·) := by
  induction blocks with
  | nil => rfl
  | cons block blocks ih =>
    obtain ⟨first, rest⟩ := List.pairwise_cons.mp apart
    rw [List.flatMap_cons, List.flatMap_cons, ← ih rest]
    cases here : f block with
    | nil => rfl
    | cons a l =>
      rw [List.cons_append, List.destutter_cons', List.destutter_cons']
      refine destutter'_append a fun k member inside => ?_
      obtain ⟨other, listed, inOther⟩ := List.mem_flatMap.mp member
      exact first other listed k (here ▸ inside) inOther

theorem exists_sublist_of_filterMap {A : Type} {f : A → Option K} {short : List K} {l : List A}
    (h : short.Sublist (l.filterMap f)) :
    ∃ inner : List A, inner.Sublist l ∧ inner.map f = short.map some := by
  induction l generalizing short with
  | nil =>
    obtain rfl : short = [] := by simpa using h
    exact ⟨[], List.Sublist.refl _, rfl⟩
  | cons a l ih =>
    cases image : f a with
    | none =>
      rw [List.filterMap_cons_none image] at h
      obtain ⟨inner, sub, mapped⟩ := ih h
      exact ⟨inner, sub.cons a, mapped⟩
    | some k =>
      rw [List.filterMap_cons_some image] at h
      cases h with
      | cons _ below =>
        obtain ⟨inner, sub, mapped⟩ := ih below
        exact ⟨inner, sub.cons a, mapped⟩
      | cons_cons _ below =>
        obtain ⟨inner, sub, mapped⟩ := ih below
        exact ⟨a :: inner, sub.cons_cons a, by rw [List.map_cons, List.map_cons, image, mapped]⟩

end ZetMQ.AdjacentRuns
