import Mathlib.Data.List.Count
import ZetMQ.ClientLink
import ZetMQ.ClientNumbers

/-! Which answer belongs to which flush. The session answers a `PING` without its number, and
the read task gives such an answer to the flush with the smallest number; a flush is
answered by its own `PING` as long as there are no more answers before its own than
flushes that are still waiting for one. -/
namespace ZetMQ.FlushAnswers
open KeyedTable ClientConnection LockedTasks ClientTasks ClientNumbers ClientLink

variable {M : Type} {opts : Options} {l l' : Link M} {i corrId : ℕ}

def isPing : Sent → Bool
  | .ping _ => true
  | _ => false

def isPong (item : Enqueued M) : Bool :=
  match item.frame with
  | .pong _ => true
  | _ => false

/-- The answers that are enqueued and not yet taken. -/
def pongsDue (l : Link M) : ℕ := (l.enqueued.drop l.taken).countP isPong

/-- The frames before the `k`-th that the session has still to answer. -/
def pingsAhead (l : Link M) (k : ℕ) : ℕ := ((l.conn.sent.take k).drop l.served).countP isPing

def older (t : Table ℕ ℕ) (corrId : ℕ) : ℕ := t.keys.countP (· < corrId)

/-- Every answer before that to frame `k` goes to another flush. -/
def Behind (l : Link M) (corrId k : ℕ) : Prop :=
  corrId ∉ l.conn.pongs ∧ (l.conn.reader = .ended ∨
    pongsDue l + pingsAhead l k ≤ older l.conn.maps.pendingFlush corrId)

def Holds (l : Link M) (corrId : ℕ) : Stage → Prop
  | .sendingPing corrId' =>
    corrId' = corrId ∧ (l.conn.broken = true ∨ Behind l corrId l.conn.sent.length)
  | .awaitingPong corrId' => corrId' = corrId ∧
    ∃ k, l.conn.sent[k]? = some (.ping corrId) ∧ (k < l.served ∨ Behind l corrId k)
  | .forgetting _ => True
  | .returned (.flushed corrId') =>
    corrId' = corrId ∧ ∃ k, l.conn.sent[k]? = some (.ping corrId) ∧ k < l.served
  | .returned _ => True
  | _ => False

def Tracked (l : Link M) (i corrId : ℕ) : Prop :=
  ∃ stage, l.client.stages[i]? = some stage ∧ Holds l corrId stage

/-- The flushes that wait are entered under their own numbers. -/
structure Flow (opts : Options) (l : Link M) : Prop where
  numbered : Numbered opts l.client
  own : ∀ corrId tx, l.conn.maps.pendingFlush.lookup corrId = some tx → tx = corrId
  below : ∀ corrId ∈ l.conn.maps.pendingFlush, corrId < l.conn.subCounter
  resolved : ∀ corrId ∈ l.conn.pongs, corrId < l.conn.subCounter
  joining : ∀ (i : ℕ) corrId, l.client.stages[i]? = some (.joining corrId) →
    (∀ other ∈ l.conn.maps.pendingFlush, other < corrId) ∧ corrId ∉ l.conn.pongs
  unnumbered : ∀ item ∈ l.enqueued, ∀ corrId, item.frame = .pong corrId → corrId = 0

section
variable {t : Table ℕ ℕ}

theorem older_erase {key : ℕ} (member : key ∈ t) (smaller : key < corrId) :
    older (t.erase key) corrId + 1 = older t corrId := by
  have present : key ∈ t.keys := AList.mem_keys.mp member
  have positive : 0 < t.keys.countP (· < corrId) :=
    List.countP_pos_iff.mpr ⟨key, present, by simpa using smaller⟩
  rw [older, older, AList.keys_erase, List.countP_erase, if_pos ⟨present, by simpa using smaller⟩]
  omega

theorem exists_older (some_older : 0 < older t corrId) : ∃ key ∈ t, key < corrId := by
  obtain ⟨key, member, smaller⟩ := List.countP_pos_iff.mp some_older
  exact ⟨key, AList.mem_keys.mpr member, by simpa using smaller⟩

end

theorem take_answer {conn : Connection M}
    (own : ∀ corrId tx, conn.maps.pendingFlush.lookup corrId = some tx → tx = corrId) :
    conn.maps.pendingFlush.keys = [] ∧ conn.take (.pong 0) = conn ∨
      ∃ first ∈ conn.maps.pendingFlush, (∀ other ∈ conn.maps.pendingFlush, first ≤ other) ∧
        conn.take (.pong 0) = { conn with
          maps := { conn.maps with pendingFlush := conn.maps.pendingFlush.erase first }
          pongs := conn.pongs ++ [first] } := by
  rw [take_pong, ConnState.resolveFlush, if_pos rfl]
  cases least : conn.maps.pendingFlush.keys.min? with
  | none => exact .inl ⟨List.min?_eq_none_iff.mp least, by simp⟩
  | some first =>
    obtain ⟨member, smallest⟩ := List.min?_eq_some_iff.mp least
    obtain ⟨tx, known⟩ := AList.lookup_isSome.mpr (AList.mem_keys.mpr member) |>
      Option.isSome_iff_exists.mp
    refine .inr ⟨first, AList.mem_keys.mpr member, fun other known =>
      smallest other (AList.mem_keys.mp known), ?_⟩
    simp [known, own first tx known]

structure Steady (conn conn' : Connection M) : Prop where
  counter : conn.subCounter ≤ conn'.subCounter
  pending : ∀ corrId tx, conn'.maps.pendingFlush.lookup corrId = some tx →
    conn.maps.pendingFlush.lookup corrId = some tx
  pongs : ∀ corrId ∈ conn'.pongs, corrId ∈ conn.pongs ∨ corrId ∈ conn.maps.pendingFlush

theorem Steady.same {conn conn' : Connection M} (counter : conn.subCounter ≤ conn'.subCounter)
    (pending : conn'.maps.pendingFlush = conn.maps.pendingFlush)
    (pongs : conn'.pongs = conn.pongs) :
    Steady conn conn' :=
  ⟨counter, fun _ _ known => by rwa [← pending], fun _ member => .inl (by rwa [← pongs])⟩

theorem mem_of_lookup {t : Table ℕ ℕ} {key tx : ℕ} (known : t.lookup key = some tx) : key ∈ t := by
  rw [← AList.lookup_isSome, known]
  rfl

theorem Steady.mem {conn conn' : Connection M} (steady : Steady conn conn') {key : ℕ}
    (member : key ∈ conn'.maps.pendingFlush) : key ∈ conn.maps.pendingFlush := by
  obtain ⟨tx, known⟩ := Option.isSome_iff_exists.mp (AList.lookup_isSome.mpr member)
  exact mem_of_lookup (steady.pending key tx known)

theorem Flow.of_steady (h : Flow opts l) (steady : Steady l.conn l'.conn)
    (numbered : Numbered opts l'.client)
    (joining : ∀ (i : ℕ) corrId, l'.client.stages[i]? = some (.joining corrId) →
      l.client.stages[i]? = some (.joining corrId))
    (unnumbered : ∀ item ∈ l'.enqueued, ∀ corrId, item.frame = .pong corrId → corrId = 0) :
    Flow opts l' where
  numbered := numbered
  own corrId tx known := h.own corrId tx (steady.pending corrId tx known)
  below corrId member := (h.below corrId (steady.mem member)).trans_le steady.counter
  resolved corrId member :=
    ((steady.pongs corrId member).elim (h.resolved corrId) (h.below corrId)).trans_le steady.counter
  joining i corrId found := by
    obtain ⟨smaller, unanswered⟩ := h.joining i corrId (joining i corrId found)
    refine ⟨fun other member => smaller other (steady.mem member), fun answered => ?_⟩
    rcases steady.pongs corrId answered with before | waiting
    · exact unanswered before
    · exact absurd (smaller corrId waiting) (lt_irrefl _)
  unnumbered := unnumbered

theorem steady_take {conn : Connection M} {frame : Inbound M}
    (own : ∀ corrId tx, conn.maps.pendingFlush.lookup corrId = some tx → tx = corrId)
    (unnumbered : ∀ corrId, frame = .pong corrId → corrId = 0) : Steady conn (conn.take frame) := by
  by_cases answer : frame = .pong 0
  · subst answer
    rcases take_answer own with ⟨-, same⟩ | ⟨first, member, -, same⟩ <;> rw [same]
    · exact .same le_rfl rfl rfl
    · refine ⟨le_rfl, fun _ _ known => (lookup_erase_eq_some.mp known).2, fun corrId answered => ?_⟩
      rcases List.mem_append.mp answered with before | new
      · exact .inl before
      · exact .inr (List.mem_singleton.mp new ▸ member)
  · have took := took conn frame
    generalize conn.take frame = conn' at took ⊢
    cases took with
    | resolves corrId => exact absurd (unnumbered corrId rfl ▸ rfl) answer
    | _ => exact .same le_rfl rfl rfl

theorem steady_net (opts : Options) (s : ClientState M) {event : Net M}
    (local_ : ∀ frame, event ≠ .read frame) :
    Steady s.conn (s.net opts event).conn := by
  have stirred := stirred opts s event
  generalize s.net opts event = s' at stirred ⊢
  cases stirred with
  | reads frame => exact absurd rfl (local_ frame)
  | forwards sends => cases sends <;> exact .same le_rfl rfl rfl
  | _ => exact .same le_rfl rfl rfl

section
variable {s s' : ClientState M} {stage stage' : Stage} {choice : Choice}

theorem worked_flushes (worked : Worked opts s choice stage s' stage') :
    Steady s.conn s'.conn ∧ (∀ corrId, stage' = .joining corrId →
        stage = .locking .flush ∧ corrId = s.conn.subCounter ∧ s' = s.setConn s.conn.count) ∨
      (∃ corrId, stage = .joining corrId ∧ stage' = .sendingPing corrId ∧
        s' = s.setConn (s.conn.setMaps { s.conn.maps with
          pendingFlush := s.conn.maps.pendingFlush.insert corrId corrId })) ∨
      choice = .accepted := by
  have still : Steady s.conn s.conn := .same le_rfl rfl rfl
  cases worked with
  | wanders was next =>
    refine .inl ⟨still, fun corrId same => ?_⟩
    subst same
    cases next
  | flushes =>
    refine .inl ⟨.same (Nat.le_succ _) rfl rfl, fun corrId same => ?_⟩
    cases same
    exact ⟨rfl, rfl, rfl⟩
  | joins corrId free => exact .inr (.inl ⟨corrId, rfl, rfl, rfl⟩)
  | accepted who attempt delay chosen => exact .inr (.inr chosen)
  | forgets corrId free =>
    refine .inl ⟨⟨le_rfl, fun _ _ known => (lookup_erase_eq_some.mp known).2, fun _ => .inl⟩, ?_⟩
    intro corrId same
    cases same
  | drains attempt drained next =>
    refine .inl ⟨.same le_rfl rfl rfl, fun corrId same => ?_⟩
    subst same
    rcases next with same | ⟨_, _, _, -, same⟩ <;> cases same
  | remaps who remapped =>
    refine .inl ⟨still, fun corrId same => ?_⟩
    cases who <;> cases same
  | @copies who order todo =>
    cases todo <;> exact .inl ⟨.same (by first | exact le_rfl | exact Nat.le_succ _) rfl rfl,
      fun corrId same => by cases same⟩
  | failsSub corrId channel purpose =>
    rcases purpose with ⟨_, _, _⟩ | ⟨_ | _, _, _, _⟩ <;>
      exact .inl ⟨.same le_rfl rfl rfl, fun corrId same => by cases same⟩
  | enters corrId subId channel purpose free entered =>
    subst entered
    rcases purpose with ⟨_, _, _ | _⟩ | ⟨_, _, _ | _, _⟩ <;>
      exact .inl ⟨.same (by first | exact le_rfl | exact Nat.le_succ _) rfl rfl,
        fun corrId same => by cases same⟩
  | subscribes =>
    exact .inl ⟨.same (Nat.le_succ _) rfl rfl, fun corrId same => by cases same⟩
  | _ => exact .inl ⟨.same le_rfl rfl rfl, fun corrId same => by cases same⟩

end

theorem Flow.moved (h : Flow opts l) {stage stage' : Stage} {s' : ClientState M} {choice : Choice}
    (chosen : choice ≠ .accepted)
    (step : l.client.next (program opts) i choice = some (stage, s', stage')) :
    Flow opts (l.moved i stage s' stage') := by
  obtain ⟨found, lock, work⟩ := next_eq_some.mp step
  have numbered := h.numbered.moved step
  rcases worked_flushes (worked_of_work work) with ⟨steady, joins⟩ | ⟨corrId, rfl, rfl, rfl⟩
    | accepted
  · by_cases joining : ∃ corrId, stage' = .joining corrId
    · obtain ⟨corrId, rfl⟩ := joining
      obtain ⟨rfl, rfl, rfl⟩ := joins corrId rfl
      refine ⟨numbered, h.own, fun other member => Nat.lt_succ_of_lt (h.below other member),
        fun other member => Nat.lt_succ_of_lt (h.resolved other member), fun j corrId at_j => ?_,
        h.unnumbered⟩
      rcases getElem?_set_cases at_j with ⟨-, same⟩ | ⟨-, at_j⟩
      · cases same
        exact ⟨h.below, fun answered => absurd (h.resolved _ answered) (lt_irrefl _)⟩
      · exact h.joining j corrId at_j
    · refine h.of_steady steady numbered (fun j corrId at_j => ?_) h.unnumbered
      rcases getElem?_set_cases at_j with ⟨-, same⟩ | ⟨-, at_j⟩
      exacts [absurd ⟨corrId, same.symm⟩ joining, at_j]
  · have unused := h.numbered.stages i _ found
    refine ⟨numbered, fun other tx known => ?_, fun other member => ?_, h.resolved,
      fun j other at_j => ?_, h.unnumbered⟩
    · rcases lookup_insert_eq_some.mp known with ⟨rfl, rfl⟩ | ⟨-, known⟩
      exacts [rfl, h.own other tx known]
    · rcases AList.mem_insert _ |>.mp member with rfl | member
      exacts [unused.1, h.below other member]
    · rcases getElem?_set_cases at_j with ⟨-, same⟩ | ⟨ne, at_j⟩
      · cases same
      · have alone := h.numbered.exclusive.others found rfl at_j ne
        cases alone
  · exact absurd accepted chosen

theorem Flow.net (h : Flow opts l) {event : Net M} (local_ : ∀ frame, event ≠ .read frame) :
    Flow opts (l.act opts (.net event)) := by
  have numbered := h.numbered.net event
  have steady := steady_net opts l.client.state local_
  cases event with
  | read frame => exact absurd rfl (local_ frame)
  | _ => exact h.of_steady steady numbered (fun _ _ at_j => at_j) h.unnumbered

theorem Flow.act (h : Flow opts l) (event : ClientTasks.Event M) :
    Flow opts (l.act opts event) := by
  have still : Steady l.conn l.conn := .same le_rfl rfl rfl
  refine act_cases event h (fun r stage first => ?_) (fun i stage found => ?_)
    (fun _ _ _ _ _ chosen step => h.moved chosen step) fun _ local_ => h.net local_
  · refine h.of_steady still (h.numbered.request first) (fun j corrId at_j => ?_) h.unnumbered
    rcases getElem?_concat_cases at_j with at_j | ⟨-, rfl⟩
    · exact at_j
    · cases first_outside first
  · refine h.of_steady still (h.numbered.cancel found _) (fun j corrId at_j => ?_) h.unnumbered
    rcases getElem?_set_cases at_j with ⟨-, same⟩ | ⟨-, at_j⟩
    · cases same
    · exact at_j

theorem Flow.server (h : Flow opts l) (client : l'.client = l.client)
    (unnumbered : ∀ item ∈ l'.enqueued, ∀ corrId, item.frame = .pong corrId → corrId = 0) :
    Flow opts l' := by
  refine h.of_steady ?_ (client ▸ h.numbered) (fun j corrId at_j => by rwa [client] at at_j)
    unnumbered
  rw [Link.conn, Link.conn, client]
  exact .same le_rfl rfl rfl

theorem enqueue_unnumbered
    (h : ∀ item ∈ l.enqueued, ∀ corrId, item.frame = .pong corrId → corrId = 0)
    {frame : Inbound M} (plain : ∀ corrId, frame = .pong corrId → corrId = 0) (room early : Bool) :
    ∀ item ∈ (l.enqueue room frame early).enqueued, ∀ corrId, item.frame = .pong corrId →
      corrId = 0 := by
  rw [Link.enqueue]
  split_ifs
  · intro item member
    rcases List.mem_append.mp member with old | new
    · exact h item old
    · cases List.mem_singleton.mp new
      exact plain
  · exact h

theorem Flow.read (h : Flow opts l) {item : Enqueued M} (known : l.enqueued[l.taken]? = some item)
    (reading : l.client.state.reading = true) :
    Flow opts { l with
      client := l.client.step opts (.net (.read item.frame))
      taken := l.taken + 1 } := by
  have numbered := h.numbered.net (.read item.frame)
  rw [Client.step]
  rw [ClientState.net, if_pos reading] at numbered ⊢
  exact h.of_steady (steady_take h.own (h.unnumbered item (List.mem_of_getElem? known)))
    numbered (fun _ _ at_j => at_j) h.unnumbered

theorem Flow.step (h : Flow opts l) (event : ClientLink.Event M) :
    Flow opts (l.step opts event) := by
  have stepped := stepped opts l event
  generalize l.step opts event = l' at stepped ⊢
  have enqueues (l' : Link M) (client : l'.client = l.client) (enqueued : l'.enqueued = l.enqueued)
      {frame : Inbound M} (plain : ∀ corrId, frame = .pong corrId → corrId = 0)
      (room early : Bool) : Flow opts (l'.enqueue room frame early) :=
    h.server ((enqueue_client _ _ _ _).trans client)
      (enqueue_unnumbered (enqueued ▸ h.unnumbered) plain room early)
  cases stepped with
  | rests => exact h
  | acts event => exact h.act event
  | creates | skips | elsewhere => exact h.server rfl h.unnumbered
  | answers =>
    refine enqueues { l with served := l.served + 1 } rfl rfl (fun corrId same => ?_) _ _
    cases same
    rfl
  | acks =>
    refine enqueues { l with acking := none } rfl rfl (fun corrId same => ?_) _ _
    cases same
  | delivers =>
    refine enqueues l rfl rfl (fun corrId same => ?_) _ _
    cases same
  | emits isPlain =>
    refine enqueues l rfl rfl ?_ _ _
    rintro corrId rfl
    cases isPlain
  | reads known reading => exact h.read known reading

theorem flow_start : Flow opts (Link.start opts : Link M) := by
  refine ⟨numbered_start, ?_, ?_, ?_, ?_, by simp [Link.start]⟩
  · simp [Link.conn, Link.start, Client.start, ClientState.start, Connection.connect, ConnState.new]
  · simp [Link.conn, Link.start, Client.start, ClientState.start, Connection.connect, ConnState.new]
  · simp [Link.conn, Link.start, Client.start, ClientState.start, Connection.connect]
  · intro i corrId found
    simp only [Link.start, Client.start] at found
    split_ifs at found
    · cases List.mem_singleton.mp (List.mem_of_getElem? found)
    · cases found

end ZetMQ.FlushAnswers
