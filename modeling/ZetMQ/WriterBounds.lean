import ZetMQ.BatchWriter

/-! How large the buffer of a writing task gets, and that the task ends once its
senders are gone. -/
namespace ZetMQ.BatchWriter

section
variable {α β : Type} {capacity : ℕ} {encode : α → List β} {limit : ℕ}

/-- No item is larger than `largest`. While more is collected, the buffer holds less
than the limit or a single item; at most one item is added to that. -/
structure Bounded (encode : α → List β) (limit largest : ℕ) (p : Pipe α β capacity) : Prop where
  queued : ∀ item ∈ p.channel.items, (encode item).length ≤ largest
  buffer : p.buffer.length ≤ max limit largest + largest
  collecting : p.phase = .collecting → p.buffer.length ≤ max limit largest
  idle : p.phase = .idle → p.buffer = []

section
variable {largest : ℕ} {p : Pipe α β capacity}

theorem bounded_start : Bounded encode limit largest (.start : Pipe α β capacity) :=
  ⟨by simp [Pipe.start, Channel.empty], Nat.zero_le _, fun _ => Nat.zero_le _, fun _ => rfl⟩

section
variable (h : Bounded encode limit largest p)
include h

theorem Bounded.rephase {phase : Phase} (wire : List β) (full : phase ≠ .collecting)
    (busy : phase ≠ .idle) : Bounded encode limit largest { p with phase, wire } :=
  ⟨h.queued, h.buffer, fun more => absurd more full, fun idle => absurd idle busy⟩

theorem Bounded.take {item : α} (first : p.channel.items.head? = some item)
    (short : p.buffer.length ≤ max limit largest) {phase : Phase} (busy : phase ≠ .idle)
    (more : phase = .collecting → (p.buffer ++ encode item).length ≤ max limit largest) :
    Bounded encode limit largest (p.take encode item phase) := by
  refine ⟨fun other listed => h.queued other (List.mem_of_mem_tail listed), ?_, more,
    fun idle => absurd idle busy⟩
  have size := h.queued item (List.mem_of_mem_head? first)
  rw [Pipe.take, List.length_append]
  omega

theorem Bounded.work (io : Io) : Bounded encode limit largest (p.work encode limit io) := by
  cases phase : p.phase with
  | idle =>
    simp only [Pipe.work, phase]
    split
    next item first =>
      have size := h.queued item (List.mem_of_mem_head? first)
      have empty := h.idle phase
      refine h.take first (by simp [empty]) (by simp) fun _ => ?_
      rw [empty, List.nil_append]
      omega
    next =>
      split_ifs
      · exact h
      · exact h.rephase p.wire (by simp) (by simp)
  | collecting =>
    simp only [Pipe.work, phase]
    split
    next item first =>
      refine h.take first (h.collecting phase) (by split_ifs <;> simp) fun more => ?_
      split_ifs at more
      omega
    next => exact h.rephase p.wire (by simp) (by simp)
  | writing done =>
    simp only [Pipe.work, phase]
    cases io with
    | wrote n => exact h.rephase _ (by simp) (by simp)
    | flushed =>
      dsimp only
      split_ifs
      · exact ⟨h.queued, Nat.zero_le _, fun _ => Nat.zero_le _, fun _ => rfl⟩
      · exact h
    | failed =>
      exact ⟨by simp [Channel.empty], Nat.zero_le _, fun _ => Nat.zero_le _, fun _ => rfl⟩
  | stopped clean =>
    simp only [Pipe.work, phase]
    exact h

theorem Bounded.send {item : α} (small : (encode item).length ≤ largest) :
    Bounded encode limit largest (p.trySend item).1 := by
  rcases trySend_cases p item with same | ⟨-, channel, items, taken⟩
  · rw [same]
    exact h
  · rw [taken]
    refine ⟨fun other listed => ?_, h.buffer, h.collecting, h.idle⟩
    simp only [items, List.mem_append, List.mem_singleton] at listed
    rcases listed with queued | rfl
    · exact h.queued other queued
    · exact small

theorem Bounded.run {moves : List (Move α)}
    (small : ∀ item, .send item ∈ moves → (encode item).length ≤ largest) :
    Bounded encode limit largest (p.run encode limit moves) := by
  induction moves generalizing p with
  | nil => exact h
  | cons move moves ih =>
    refine ih ?_ fun item sent => small item (List.mem_cons_of_mem _ sent)
    cases move with
    | send item => exact h.send (small item (List.mem_cons_self ..))
    | hangUp => exact ⟨h.queued, h.buffer, h.collecting, h.idle⟩
    | work io => exact h.work io

end

end

def Helpful (p : Pipe α β capacity) (io : Io) : Prop :=
  ∀ done, p.phase = .writing done →
    if done < p.buffer.length then ∃ n, 0 < n ∧ io = .wrote n else io = .flushed

/-- A bound on the steps to the end, once there are no senders. -/
def weight (encode : α → List β) (p : Pipe α β capacity) : ℕ :=
  (flat encode p.channel.items).length + 4 * p.channel.items.length +
    match p.phase with
    | .idle => 1
    | .collecting => p.buffer.length + 3
    | .writing done => p.buffer.length - done + 2
    | .stopped _ => 0

theorem weight_take {p : Pipe α β capacity} {item : α}
    (first : p.channel.items.head? = some item) {phase : Phase} (full : phase.Full) :
    weight encode (p.take encode item phase) <
      (flat encode p.channel.items).length + 4 * p.channel.items.length + p.buffer.length + 1 := by
  rw [Channel.items_eq_cons first, flat_cons]
  rcases full with rfl | rfl
  all_goals
    simp only [weight, Pipe.take, List.length_append, List.length_cons]
    omega

theorem work_weight {p : Pipe α β capacity} (h : Conserved encode p) (alone : p.senders = false)
    {io : Io} (helpful : Helpful p io) (running : p.phase.isStopped = false) :
    weight encode (p.work encode limit io) < weight encode p := by
  cases phase : p.phase with
  | idle =>
    have empty := h.emptied (.inl phase)
    simp only [Pipe.work, phase]
    split
    next item first =>
      refine Nat.lt_of_lt_of_le (weight_take first (.inl rfl)) ?_
      simp [weight, phase, empty]
    next => simp [alone, weight, phase]
  | collecting =>
    simp only [Pipe.work, phase]
    split
    next item first =>
      refine Nat.lt_of_lt_of_le (weight_take first ?_) ?_
      · split_ifs
        · exact .inr rfl
        · exact .inl rfl
      · simp only [weight, phase]
        omega
    next => simp [weight, phase]
  | writing done =>
    have inside := h.inside
    have useful := helpful done phase
    simp only [phase, Phase.done] at inside
    split_ifs at useful with short
    · obtain ⟨n, some, rfl⟩ := useful
      simp only [Pipe.work, weight, phase]
      omega
    · subst useful
      have whole : done = p.buffer.length := by omega
      simp [Pipe.work, weight, phase, whole]
  | stopped clean =>
    rw [phase] at running
    cases running

def Pipe.alone (encode : α → List β) (limit : ℕ) (p : Pipe α β capacity) (ios : List Io) :
    Pipe α β capacity :=
  ios.foldl (Pipe.work encode limit) p

def AllHelpful (encode : α → List β) (limit : ℕ) : Pipe α β capacity → List Io → Prop
  | _, [] => True
  | p, io :: ios => Helpful p io ∧ AllHelpful encode limit (p.work encode limit io) ios

theorem work_not_failed {p : Pipe α β capacity} {io : Io} (helpful : Helpful p io)
    (running : p.phase ≠ .stopped false) : (p.work encode limit io).phase ≠ .stopped false := by
  cases phase : p.phase with
  | idle =>
    simp only [Pipe.work, phase]
    split
    · simp [Pipe.take]
    · split_ifs <;> simp [phase]
  | collecting =>
    simp only [Pipe.work, phase]
    split
    · simp only [Pipe.take]
      split_ifs <;> simp
    · simp
  | writing done =>
    have useful := helpful done phase
    split_ifs at useful
    · obtain ⟨n, -, rfl⟩ := useful
      simp [Pipe.work, phase]
    · subst useful
      simp only [Pipe.work, phase]
      split_ifs <;> simp [phase]
  | stopped clean =>
    simp only [Pipe.work, phase]
    rwa [← phase]

theorem alone_stopped {p : Pipe α β capacity} (ended : p.phase.isStopped = true) (ios : List Io) :
    p.alone encode limit ios = p := by
  have still (io : Io) : p.work encode limit io = p := by
    cases phase : p.phase with
    | stopped clean => simp only [Pipe.work, phase]
    | _ => rw [phase] at ended; cases ended
  induction ios with
  | nil => rfl
  | cons io ios ih =>
    rw [Pipe.alone, List.foldl_cons, still io]
    exact ih

theorem alone_ends {p : Pipe α β capacity} (h : Conserved encode p) (alone : p.senders = false)
    (running : p.phase ≠ .stopped false) {ios : List Io} (helpful : AllHelpful encode limit p ios)
    (enough : weight encode p ≤ ios.length) :
    (p.alone encode limit ios).phase = .stopped true ∧
      (p.alone encode limit ios).wire = flat encode p.accepted := by
  by_cases ended : p.phase.isStopped = true
  · have clean : p.phase = .stopped true := by
      cases phase : p.phase with
      | stopped clean => cases clean with
        | true => rfl
        | false => exact absurd phase running
      | _ => rw [phase] at ended; cases ended
    rw [alone_stopped ended]
    exact ⟨clean, h.written clean⟩
  · rw [Bool.not_eq_true] at ended
    cases ios with
    | nil =>
      -- a task that has not ended has a positive weight
      simp only [weight, List.length_nil, Nat.le_zero, Nat.add_eq_zero_iff] at enough
      cases phase : p.phase with
      | stopped clean => rw [phase] at ended; cases ended
      | _ => simp [phase] at enough
    | cons io ios =>
      obtain ⟨first, rest⟩ := helpful
      have less : weight encode (p.work encode limit io) < weight encode p :=
        work_weight h alone first ended
      obtain ⟨senders, accepted⟩ := @work_frame _ _ _ encode limit p io
      rw [List.length_cons] at enough
      rw [← accepted]
      exact alone_ends (h.work io) (senders.trans alone) (work_not_failed first running) rest
        (by omega)
termination_by ios.length

end

end ZetMQ.BatchWriter
