import Mathlib.Data.List.Basic

/-! A task that writes what others put into a bounded channel. It waits for an item,
encodes it, encodes what else is queued until its buffer is large enough, writes the
buffer in as many pieces as the stream takes, and starts again. Nothing is lost,
repeated or reordered on the way, and once the senders are gone it ends by itself. -/
namespace ZetMQ.BatchWriter

structure Channel (α : Type) (capacity : ℕ) where
  items : List α
  bounded : items.length ≤ capacity

namespace Channel
variable {α : Type} {capacity : ℕ}

def empty : Channel α capacity := ⟨[], Nat.zero_le _⟩

def trySend (channel : Channel α capacity) (item : α) : Option (Channel α capacity) :=
  if room : channel.items.length < capacity then
    some ⟨channel.items ++ [item], by rw [List.length_append]; exact room⟩
  else none

def rest (channel : Channel α capacity) : Channel α capacity :=
  ⟨channel.items.tail, Nat.le_trans (List.tail_sublist _).length_le channel.bounded⟩

theorem items_eq_cons {channel : Channel α capacity} {item : α}
    (first : channel.items.head? = some item) : channel.items = item :: channel.rest.items :=
  (List.cons_head?_tail first).symm

end Channel

/-- Waiting for an item, collecting more of them, writing with a number of bytes of
the buffer out already, or ended: because the senders are gone, or by an error. -/
inductive Phase where
  | idle
  | collecting
  | writing (done : ℕ)
  | stopped (clean : Bool)
deriving DecidableEq

namespace Phase

def done : Phase → ℕ
  | .writing done => done
  | _ => 0

def isStopped : Phase → Bool
  | .stopped _ => true
  | _ => false

end Phase

/-- The channel with its senders, the task, the stream it writes to, and all items
that the channel ever took. -/
structure Pipe (α β : Type) (capacity : ℕ) where
  channel : Channel α capacity
  senders : Bool
  phase : Phase
  buffer : List β
  wire : List β
  accepted : List α

/-- What the stream does while the task writes. -/
inductive Io where
  | wrote (n : ℕ)
  | flushed
  | failed
deriving DecidableEq

inductive Move (α : Type) where
  | send (item : α)
  | hangUp
  | work (io : Io)

namespace Pipe
variable {α β : Type} {capacity : ℕ}

def start : Pipe α β capacity := ⟨.empty, true, .idle, [], [], []⟩

def trySend (p : Pipe α β capacity) (item : α) : Pipe α β capacity × Bool :=
  if p.senders = false ∨ p.phase.isStopped = true then (p, false)
  else match p.channel.trySend item with
    | some channel => ({ p with channel, accepted := p.accepted ++ [item] }, true)
    | none => (p, false)

variable (encode : α → List β) (limit : ℕ)

def take (p : Pipe α β capacity) (item : α) (phase : Phase) : Pipe α β capacity :=
  { p with channel := p.channel.rest, buffer := p.buffer ++ encode item, phase }

def work (p : Pipe α β capacity) (io : Io) : Pipe α β capacity :=
  match p.phase with
  | .idle =>
    match p.channel.items.head? with
    | some item => p.take encode item .collecting
    | none => if p.senders then p else { p with phase := .stopped true }
  | .collecting =>
    match p.channel.items.head? with
    | some item =>
      p.take encode item
        (if limit ≤ (p.buffer ++ encode item).length then .writing 0 else .collecting)
    | none => { p with phase := .writing 0 }
  | .writing done =>
    match io with
    | .wrote n =>
      { p with
        wire := p.wire ++ (p.buffer.drop done).take n
        phase := .writing (min (done + n) p.buffer.length) }
    | .flushed => if done = p.buffer.length then { p with buffer := [], phase := .idle } else p
    | .failed => { p with channel := .empty, buffer := [], phase := .stopped false }
  | .stopped _ => p

def step (p : Pipe α β capacity) : Move α → Pipe α β capacity
  | .send item => (p.trySend item).1
  | .hangUp => { p with senders := false }
  | .work io => p.work encode limit io

def run (p : Pipe α β capacity) (moves : List (Move α)) : Pipe α β capacity :=
  moves.foldl (step encode limit) p

def answers : Pipe α β capacity → List (Move α) → List (α × Bool)
  | _, [] => []
  | p, .send item :: moves =>
    (item, (p.trySend item).2) :: answers (p.trySend item).1 moves
  | p, move :: moves => answers (p.step encode limit move) moves

end Pipe

section
variable {α β : Type} {capacity : ℕ} {encode : α → List β} {limit : ℕ}

/-- All bytes of a list of items. -/
def flat (encode : α → List β) (items : List α) : List β := (items.map encode).flatten

@[simp] theorem flat_nil : flat encode [] = [] := rfl

@[simp] theorem flat_cons (item : α) (items : List α) :
    flat encode (item :: items) = encode item ++ flat encode items := rfl

@[simp] theorem flat_append (items more : List α) :
    flat encode (items ++ more) = flat encode items ++ flat encode more := by
  simp [flat]

def Pipe.pending (encode : α → List β) (p : Pipe α β capacity) : List β :=
  p.buffer.drop p.phase.done ++ flat encode p.channel.items

/-- Written, pending and accepted agree, unless an error has ended the task; then
what was written is still the beginning of what was accepted. -/
structure Conserved (encode : α → List β) (p : Pipe α β capacity) : Prop where
  bytes : p.phase ≠ .stopped false → p.wire ++ p.pending encode = flat encode p.accepted
  started : p.wire <+: flat encode p.accepted
  emptied : p.phase = .idle ∨ p.phase.isStopped = true → p.buffer = []
  drained : p.phase.isStopped = true → p.channel.items = []
  inside : p.phase.done ≤ p.buffer.length

theorem conserved_start : Conserved encode (.start : Pipe α β capacity) :=
  ⟨fun _ => rfl, List.nil_prefix, fun _ => rfl, fun _ => rfl, Nat.zero_le _⟩

theorem trySend_cases (p : Pipe α β capacity) (item : α) :
    p.trySend item = (p, false) ∨ p.phase.isStopped = false ∧ ∃ channel : Channel α capacity,
      channel.items = p.channel.items ++ [item] ∧
        p.trySend item = ({ p with channel, accepted := p.accepted ++ [item] }, true) := by
  unfold Pipe.trySend
  by_cases closed : p.senders = false ∨ p.phase.isStopped = true
  · exact .inl (if_pos closed)
  · rw [if_neg closed]
    unfold Channel.trySend
    split
    · rename_i channel taken
      split at taken
      · refine .inr ⟨by simpa using (not_or.mp closed).2, channel, ?_, rfl⟩
        rw [← Option.some.inj taken]
      · cases taken
    · exact .inl rfl

theorem Conserved.send {p : Pipe α β capacity} (h : Conserved encode p) (item : α) :
    Conserved encode (p.trySend item).1 := by
  rcases trySend_cases p item with same | ⟨running, channel, items, taken⟩
  · rw [same]
    exact h
  · rw [taken]
    have alive : p.phase ≠ .stopped false := fun ended => by rw [ended] at running; cases running
    refine ⟨fun _ => ?_, ?_, h.emptied, fun ended => ?_, h.inside⟩
    · have before := h.bytes alive
      simp only [Pipe.pending] at before ⊢
      rw [items, flat_append, flat_append, ← before, List.append_assoc, List.append_assoc]
    · rw [flat_append]
      exact h.started.trans (List.prefix_append ..)
    · rw [running] at ended
      cases ended

theorem Conserved.moved {p q : Pipe α β capacity} (h : Conserved encode p)
    (running : p.phase ≠ .stopped false) (accepted : q.accepted = p.accepted)
    (bytes : q.wire ++ q.pending encode = p.wire ++ p.pending encode)
    (emptied : q.phase = .idle ∨ q.phase.isStopped = true → q.buffer = [])
    (drained : q.phase.isStopped = true → q.channel.items = [])
    (inside : q.phase.done ≤ q.buffer.length) : Conserved encode q := by
  have all : q.wire ++ q.pending encode = flat encode q.accepted := by
    rw [bytes, h.bytes running, accepted]
  exact ⟨fun _ => all, ⟨_, all⟩, emptied, drained, inside⟩

def Phase.Full (phase : Phase) : Prop := phase = .collecting ∨ phase = .writing 0

theorem Phase.Full.done {phase : Phase} (full : phase.Full) : phase.done = 0 := by
  rcases full with rfl | rfl <;> rfl

theorem Phase.Full.not_empty {phase : Phase} (full : phase.Full) :
    ¬(phase = .idle ∨ phase.isStopped = true) := by
  rcases full with rfl | rfl <;> decide

theorem Conserved.take {p : Pipe α β capacity} (h : Conserved encode p) {item : α}
    (first : p.channel.items.head? = some item) (running : p.phase ≠ .stopped false)
    (unwritten : p.phase.done = 0) {phase : Phase} (full : phase.Full) :
    Conserved encode (p.take encode item phase) := by
  refine h.moved running rfl ?_ (fun ended => absurd ended full.not_empty)
    (fun ended => absurd (.inr ended) full.not_empty) ?_
  · simp only [Pipe.pending, Pipe.take, full.done, unwritten, Channel.items_eq_cons first,
      flat_cons, List.drop_zero, List.append_assoc]
  · simp only [Pipe.take, full.done, Nat.zero_le]

theorem drop_wrote (buffer : List β) (done n : ℕ) :
    buffer.drop (min (done + n) buffer.length) = (buffer.drop done).drop n := by
  rw [List.drop_drop]
  rcases Nat.le_total (done + n) buffer.length with short | long
  · rw [Nat.min_eq_left short]
  · rw [Nat.min_eq_right long, List.drop_length, List.drop_eq_nil_of_le long]

theorem Conserved.write {p : Pipe α β capacity} (h : Conserved encode p) {done : ℕ}
    (writing : p.phase = .writing done) (io : Io) :
    Conserved encode (p.work encode limit io) := by
  have running : p.phase ≠ .stopped false := by simp [writing]
  have position : p.phase.done = done := by rw [writing]; rfl
  simp only [Pipe.work, writing]
  cases io with
  | wrote n =>
    refine h.moved running rfl ?_ (by simp [Phase.isStopped]) (by simp [Phase.isStopped])
      (Nat.min_le_right ..)
    simp only [Pipe.pending, position]
    rw [Phase.done, drop_wrote, List.append_assoc, ← List.append_assoc (List.take ..),
      List.take_append_drop]
  | flushed =>
    dsimp only
    split_ifs with whole
    · refine h.moved running rfl ?_ (fun _ => rfl) (by simp [Phase.isStopped]) (Nat.zero_le _)
      simp only [Pipe.pending, position, whole, List.drop_length, List.drop_nil]
    · exact h
  | failed =>
    exact ⟨fun other => absurd rfl other, h.started, fun _ => rfl, fun _ => rfl, Nat.zero_le _⟩

theorem Conserved.work {p : Pipe α β capacity} (h : Conserved encode p) (io : Io) :
    Conserved encode (p.work encode limit io) := by
  cases phase : p.phase with
  | idle =>
    have running : p.phase ≠ .stopped false := by simp [phase]
    simp only [Pipe.work, phase]
    split
    next item first => exact h.take first running (by rw [phase]; rfl) (.inl rfl)
    next none =>
      split_ifs
      · exact h
      · refine h.moved running rfl ?_ (fun _ => h.emptied (.inl phase))
          (fun _ => List.head?_eq_none_iff.mp none) (Nat.zero_le _)
        simp only [Pipe.pending, Phase.done, phase]
  | collecting =>
    have running : p.phase ≠ .stopped false := by simp [phase]
    simp only [Pipe.work, phase]
    split
    next item first =>
      refine h.take first running (by rw [phase]; rfl) ?_
      split_ifs
      · exact .inr rfl
      · exact .inl rfl
    next none =>
      refine h.moved running rfl ?_ (by simp [Phase.isStopped]) (by simp [Phase.isStopped])
        (Nat.zero_le _)
      simp only [Pipe.pending, Phase.done, phase]
  | writing done => exact h.write phase io
  | stopped clean =>
    simp only [Pipe.work, phase]
    exact h

theorem Conserved.step {p : Pipe α β capacity} (h : Conserved encode p) (move : Move α) :
    Conserved encode (p.step encode limit move) := by
  cases move with
  | send item => exact h.send item
  | hangUp => exact ⟨h.bytes, h.started, h.emptied, h.drained, h.inside⟩
  | work io => exact h.work io

theorem Conserved.run {p : Pipe α β capacity} (h : Conserved encode p) (moves : List (Move α)) :
    Conserved encode (p.run encode limit moves) := by
  induction moves generalizing p with
  | nil => exact h
  | cons move moves ih => exact ih (h.step move)

theorem mem_answers {p : Pipe α β capacity} {moves : List (Move α)} {item : α} {taken : Bool}
    (listed : (item, taken) ∈ p.answers encode limit moves) : .send item ∈ moves := by
  induction moves generalizing p with
  | nil => cases listed
  | cons move moves ih =>
    cases move with
    | send other =>
      rcases List.mem_cons.mp listed with here | later
      · rw [(Prod.mk.inj here).1]
        exact List.mem_cons_self ..
      · exact List.mem_cons_of_mem _ (ih later)
    | hangUp => exact List.mem_cons_of_mem _ (ih listed)
    | work io => exact List.mem_cons_of_mem _ (ih listed)

theorem work_frame (p : Pipe α β capacity) (io : Io) :
    (p.work encode limit io).senders = p.senders ∧
      (p.work encode limit io).accepted = p.accepted := by
  unfold Pipe.work
  split <;> (try split) <;> (try split_ifs) <;> exact ⟨rfl, rfl⟩

theorem run_accepted (p : Pipe α β capacity) (moves : List (Move α)) :
    (p.run encode limit moves).accepted =
      p.accepted ++ ((p.answers encode limit moves).filter (·.2)).map (·.1) := by
  induction moves generalizing p with
  | nil => exact (List.append_nil _).symm
  | cons move moves ih =>
    rw [Pipe.run, List.foldl_cons]
    refine (ih _).trans ?_
    cases move with
    | send item =>
      rw [Pipe.step, Pipe.answers]
      rcases trySend_cases p item with same | ⟨-, channel, -, taken⟩
      · simp [same]
      · simp [taken]
    | hangUp => rfl
    | work io =>
      rw [Pipe.step, (work_frame p io).2]
      rfl

theorem Conserved.written {p : Pipe α β capacity} (h : Conserved encode p)
    (clean : p.phase = .stopped true) : p.wire = flat encode p.accepted := by
  have all := h.bytes (by rw [clean]; decide)
  have ended : p.phase.isStopped = true := by rw [clean]; rfl
  rw [Pipe.pending, h.emptied (.inr ended), h.drained ended] at all
  simpa using all

end

end ZetMQ.BatchWriter
