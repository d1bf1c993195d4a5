import Mathlib.Algebra.Order.Ring.Nat
import Mathlib.Data.List.AList

/-! Finite tables as Mathlib association lists, with the two composite updates
of a hash map that programs use most: change a value in place if its key is
present, and change a value after filling in a default. Lookups are stated with
one `if`, so that a rewrite never needs to know which key is read. -/
namespace ZetMQ.KeyedTable

abbrev Table (K V : Type) := AList fun _ : K => V

variable {K V : Type} [DecidableEq K]

/-- In-place change of a present value; a missing key leaves the table alone. -/
def modify (k : K) (f : V → V) (t : Table K V) : Table K V :=
  match t.lookup k with
  | some v => t.insert k (f v)
  | none => t

/-- Entry with a default: a missing key first receives `d`. -/
def upsert (k : K) (d : V) (f : V → V) (t : Table K V) : Table K V :=
  t.insert k (f ((t.lookup k).getD d))

theorem lookup_insert_ite (t : Table K V) (k k' : K) (v : V) :
    (t.insert k v).lookup k' = if k' = k then some v else t.lookup k' := by
  split_ifs with h
  · rw [h, AList.lookup_insert]
  · rw [AList.lookup_insert_ne h]

theorem lookup_erase_ite (t : Table K V) (k k' : K) :
    (t.erase k).lookup k' = if k' = k then none else t.lookup k' := by
  split_ifs with h
  · rw [h, AList.lookup_erase]
  · rw [AList.lookup_erase_ne h]

variable {t : Table K V} {k k' : K} {v : V} {key : V → K} {entries : List (Σ _ : K, V)}

theorem lookup_insert_eq_some {v' : V} :
    (t.insert k v).lookup k' = some v' ↔ k' = k ∧ v = v' ∨ k' ≠ k ∧ t.lookup k' = some v' := by
  rw [lookup_insert_ite]
  split_ifs with h <;> simp [h]

theorem lookup_erase_eq_some : (t.erase k).lookup k' = some v ↔ k' ≠ k ∧ t.lookup k' = some v := by
  rw [lookup_erase_ite]
  split_ifs with h <;> simp [h]

theorem erase_insert (t : Table K V) (k : K) (v : V) : (t.insert k v).erase k = t.erase k := by
  refine AList.ext ?_
  change List.kerase k (t.insert k v).entries = _
  rw [AList.entries_insert]
  exact List.kerase_cons_eq rfl

theorem lookup_modify (t : Table K V) (k k' : K) (f : V → V) :
    (modify k f t).lookup k' = if k' = k then (t.lookup k).map f else t.lookup k' := by
  unfold modify
  cases found : t.lookup k with
  | none =>
    split_ifs with h
    · rw [h, found, Option.map_none]
    · rfl
  | some v => simp only [lookup_insert_ite, Option.map_some]

theorem lookup_upsert (t : Table K V) (k k' : K) (d : V) (f : V → V) :
    (upsert k d f t).lookup k' =
      if k' = k then some (f ((t.lookup k).getD d)) else t.lookup k' := by
  rw [upsert, lookup_insert_ite]

theorem mem_modify {f : V → V} : k' ∈ modify k f t ↔ k' ∈ t := by
  unfold modify
  cases found : t.lookup k with
  | none => rfl
  | some v =>
    have present : k ∈ t := AList.lookup_isSome.mp (Option.isSome_of_eq_some found)
    rw [AList.mem_insert, or_iff_right_of_imp]
    rintro rfl
    exact present

theorem mem_upsert {d : V} {f : V → V} : k' ∈ upsert k d f t ↔ k' = k ∨ k' ∈ t := by
  rw [upsert, AList.mem_insert]

def size (t : Table K V) : ℕ := t.keys.length

theorem size_insert_new (new : t.lookup k = none) (v : V) : size (t.insert k v) = size t + 1 := by
  rw [size, AList.keys_insert, List.length_cons,
    List.erase_of_not_mem (AList.lookup_eq_none.mp new), size]

theorem size_erase (found : t.lookup k = some v) : size (t.erase k) + 1 = size t := by
  have present : k ∈ t.keys := AList.lookup_isSome.mp (Option.isSome_of_eq_some found)
  have nonempty := List.length_pos_of_mem present
  rw [size, AList.keys_erase, List.length_erase_of_mem present, size]
  omega

/-- The stored values, oldest first for a table that is only inserted into at
new keys and erased from. -/
def values (t : Table K V) : List V := (t.entries.map Sigma.snd).reverse

theorem values_insert_new (t : Table K V) (k : K) (v : V) (h : t.lookup k = none) :
    values (t.insert k v) = values t ++ [v] := by
  rw [values, AList.entries_insert_of_notMem (AList.lookup_eq_none.mp h)]
  simp [values]

def KeyedBy (key : V → K) (t : Table K V) : Prop :=
  ∀ k v, t.lookup k = some v → key v = k

theorem keyedBy_empty (key : V → K) : KeyedBy key (∅ : Table K V) := by
  intro k v h
  simp at h

theorem KeyedBy.insert {key : V → K} {t : Table K V} (h : KeyedBy key t) (v : V) :
    KeyedBy key (t.insert (key v) v) := by
  intro k w hw
  rw [lookup_insert_ite] at hw
  split_ifs at hw with hk
  · rw [← Option.some.inj hw, hk]
  · exact h k w hw

theorem KeyedBy.erase (h : KeyedBy key t) (k : K) : KeyedBy key (t.erase k) := by
  intro k' w hw
  rw [lookup_erase_ite] at hw
  split_ifs at hw with hk
  exact h k' w hw

theorem mem_values_iff (h : KeyedBy key t) (v : V) : v ∈ values t ↔ t.lookup (key v) = some v := by
  have entry : ∀ k, t.lookup k = some v ↔ (⟨k, v⟩ : Σ _ : K, V) ∈ t.entries :=
    fun k => AList.mem_lookup_iff
  simp only [values, List.mem_reverse, List.mem_map]
  constructor
  · rintro ⟨⟨k, w⟩, member, rfl⟩
    have found := (entry k).mpr member
    rwa [h k w found]
  · intro found
    exact ⟨⟨key v, v⟩, (entry _).mp found, rfl⟩

private theorem kerase_eq_filter (k : K) (l : List (Σ _ : K, V)) (h : l.NodupKeys) :
    l.kerase k = l.filter fun e => e.1 ≠ k := by
  induction l with
  | nil => rfl
  | cons e l ih =>
    rw [List.nodupKeys_cons] at h
    by_cases hk : k = e.1
    · subst hk
      rw [List.kerase_cons_eq rfl, List.filter_cons_of_neg (by simp)]
      refine (List.filter_eq_self.mpr ?_).symm
      intro e' he'
      have : e'.1 ≠ e.1 := fun same => h.1 (same ▸ List.mem_keys_of_mem he')
      simpa using this
    · have other : e.1 ≠ k := fun same => hk same.symm
      rw [List.kerase_cons_ne hk, List.filter_cons_of_pos (by simpa using other), ih h.2]

theorem values_erase (h : KeyedBy key t) (k : K) :
    values (t.erase k) = (values t).filter fun v => key v ≠ k := by
  have keyed : ∀ e ∈ t.entries, key e.2 = e.1 := by
    rintro ⟨k', v⟩ member
    exact h k' v (AList.mem_lookup_iff.mpr member)
  change ((t.entries.kerase k).map Sigma.snd).reverse = _
  rw [kerase_eq_filter k t.entries t.nodupKeys, values, List.filter_reverse, List.filter_map]
  congr 2
  refine List.filter_congr ?_
  intro e member
  simp only [Function.comp_apply, keyed e member]

def collect (pushes : List (K × V)) (t : Table K (List V)) : Table K (List V) :=
  pushes.foldl (fun t push => upsert push.1 [] (· ++ [push.2]) t) t

theorem collect_append (first rest : List (K × V)) (t : Table K (List V)) :
    collect (first ++ rest) t = collect rest (collect first t) :=
  List.foldl_append

theorem lookup_collect (pushes : List (K × V)) (t : Table K (List V)) (k : K) :
    (collect pushes t).lookup k = if ∃ push ∈ pushes, push.1 = k
      then some ((t.lookup k).getD [] ++ (pushes.filter (·.1 = k)).map Prod.snd)
      else t.lookup k := by
  induction pushes generalizing t with
  | nil => simp [collect]
  | cons push rest ih =>
    rw [collect, List.foldl_cons, ← collect, ih, lookup_upsert]
    by_cases here : push.1 = k <;> by_cases later : ∃ push ∈ rest, push.1 = k
    · subst here
      simp [later]
    · subst here
      have none : rest.filter (·.1 = push.1) = [] := by
        rw [List.filter_eq_nil_iff]
        exact fun other member => by simpa using fun same => later ⟨other, member, same⟩
      simp [later, none]
    · simp [here, later, Ne.symm here]
    · simp [here, later, Ne.symm here]

def insertAll (entries : List (Σ _ : K, V)) (t : Table K V) : Table K V :=
  entries.foldl (fun t entry => t.insert entry.1 entry.2) t

theorem lookup_insertAll (nodup : entries.NodupKeys) (t : Table K V) (k : K) :
    (insertAll entries t).lookup k = (entries.dlookup k).or (t.lookup k) := by
  induction entries generalizing t with
  | nil => rfl
  | cons entry entries ih =>
    obtain ⟨key, value⟩ := entry
    rw [List.nodupKeys_cons] at nodup
    rw [insertAll, List.foldl_cons, ← insertAll, ih nodup.2, lookup_insert_ite]
    by_cases here : k = key
    · subst here
      rw [if_pos rfl, List.dlookup_eq_none.mpr nodup.1, List.dlookup_cons_eq, Option.none_or,
        Option.some_or]
    · rw [if_neg here, List.dlookup_cons_ne _ _ here]

theorem lookup_insertAll_perm (perm : entries.Perm t.entries) (k : K) :
    (insertAll entries ∅).lookup k = t.lookup k := by
  have nodup : entries.NodupKeys := (List.perm_nodupKeys perm).mpr t.nodupKeys
  rw [lookup_insertAll nodup, AList.lookup_empty, Option.or_none]
  exact List.perm_dlookup k nodup perm

def lastEntries : List (Σ _ : K, V) → List (Σ _ : K, V)
  | [] => []
  | entry :: entries =>
    if entry.1 ∈ entries.keys then lastEntries entries else entry :: lastEntries entries

theorem entries_insertAll (entries : List (Σ _ : K, V)) (t : Table K V) :
    (insertAll entries t).entries.Perm
      (lastEntries entries ++ t.entries.filter fun entry => entry.1 ∉ entries.keys) := by
  induction entries generalizing t with
  | nil => simp [insertAll, lastEntries]
  | cons entry entries ih =>
    have others : (t.entries.kerase entry.1).filter (fun other => other.1 ∉ entries.keys) =
        t.entries.filter fun other => other.1 ∉ (entry :: entries).keys := by
      rw [kerase_eq_filter _ _ t.nodupKeys, List.filter_filter]
      refine List.filter_congr fun other _ => ?_
      simp only [List.keys_cons, List.mem_cons, not_or, Bool.decide_and, Bool.and_comm, ne_eq]
    have later := ih (t.insert entry.1 entry.2)
    rw [AList.entries_insert, List.filter_cons, others] at later
    rw [insertAll, List.foldl_cons, ← insertAll, lastEntries]
    by_cases replaced : entry.1 ∈ entries.keys
    · rw [if_neg (by simpa using replaced)] at later
      rwa [if_pos replaced]
    · rw [if_pos (by simpa using replaced)] at later
      rw [if_neg replaced]
      exact later.trans List.perm_middle

theorem lastEntries_sublist (entries : List (Σ _ : K, V)) :
    (lastEntries entries).Sublist entries := by
  induction entries with
  | nil => exact .slnil
  | cons entry entries ih =>
    rw [lastEntries]
    split
    · exact ih.cons _
    · exact ih.cons_cons _

theorem entries_insertAll_empty (entries : List (Σ _ : K, V)) :
    (insertAll entries ∅).entries.Perm (lastEntries entries) := by
  refine (entries_insertAll entries ∅).trans ?_
  rw [show (∅ : Table K V).entries = [] from rfl, List.filter_nil, List.append_nil]

theorem size_insertAll_le (entries : List (Σ _ : K, V)) :
    size (insertAll entries ∅) ≤ entries.length := by
  have count : size (insertAll entries ∅) = (insertAll entries ∅).entries.length :=
    List.length_map _
  rw [count, (entries_insertAll_empty entries).length_eq]
  exact (lastEntries_sublist entries).length_le

theorem insertAll_exact (same : ∀ k, (insertAll entries ∅).lookup k = t.lookup k)
    (count : entries.length = size t) :
    entries.NodupKeys ∧ ∀ entry ∈ entries, t.lookup entry.1 = some entry.2 := by
  have covered : t.keys ⊆ entries.keys := by
    intro k present
    have found : ((insertAll entries ∅).lookup k).isSome := by
      rw [same]
      exact AList.lookup_isSome.mpr present
    obtain ⟨v, found⟩ := Option.isSome_iff_exists.mp found
    have member := (entries_insertAll_empty entries).subset (AList.mem_lookup_iff.mp found)
    exact List.mem_keys_of_mem ((lastEntries_sublist entries).subset member)
  have few : entries.keys.length ≤ t.keys.length := by
    rw [List.keys, List.length_map, count, size]
  have nodup : entries.NodupKeys :=
    ((List.subperm_of_subset t.keys_nodup covered).perm_of_length_le few).nodup t.keys_nodup
  refine ⟨nodup, fun entry member => ?_⟩
  rw [← same, lookup_insertAll nodup, List.mem_dlookup nodup member, Option.some_or]

/-- One way to iterate over tables: any listing of the entries, since a hash map
promises no order. -/
structure IterOrder (K V : Type) where
  visit : Table K V → List (Σ _ : K, V)
  perm : ∀ t, (visit t).Perm t.entries

def IterOrder.stored (K V : Type) : IterOrder K V := ⟨AList.entries, fun _ => .rfl⟩

def IterOrder.listing [DecidableEq V] (entries : List (Σ _ : K, V)) : IterOrder K V where
  visit t := if entries.Perm t.entries then entries else t.entries
  perm t := by
    split
    · assumption
    · rfl

/-! Lists by position. -/

theorem getElem?_of_extends {α : Type*} {items items' : List α} {i : ℕ} {item : α}
    (h : items <+: items') (found : items[i]? = some item) : items'[i]? = some item := by
  obtain ⟨rest, rfl⟩ := h
  rwa [List.getElem?_append_left (List.getElem?_eq_some_iff.mp found).1]

theorem getElem?_set_cases {α : Type*} {items : List α} {i j : ℕ} {item item' : α}
    (found : (items.set i item)[j]? = some item') :
    j = i ∧ item' = item ∨ j ≠ i ∧ items[j]? = some item' := by
  rw [List.getElem?_set] at found
  split_ifs at found with same inside
  · exact .inl ⟨same.symm, (Option.some.inj found).symm⟩
  · exact .inr ⟨fun other => same other.symm, found⟩

theorem getElem?_concat_cases {α : Type*} {items : List α} {item item' : α} {j : ℕ}
    (found : (items ++ [item])[j]? = some item') :
    items[j]? = some item' ∨ j = items.length ∧ item' = item := by
  rcases lt_or_ge j items.length with inside | outside
  · rw [List.getElem?_append_left inside] at found
    exact .inl found
  · rw [List.getElem?_append_right outside] at found
    obtain ⟨here, same⟩ := List.getElem?_eq_some_iff.mp found
    rw [List.length_singleton] at here
    refine .inr ⟨by omega, ?_⟩
    simpa using same.symm

end ZetMQ.KeyedTable
