import ZetMQ.FlushTracking

/-! When a flush confirms what was sent before it: if there is no answer to an earlier `PING`
still to come when it enters itself into the map, beyond those of the flushes that were
dropped there without an answer. -/
namespace ZetMQ.FlushSchedules
open KeyedTable ClientConnection LockedTasks ClientTasks ClientNumbers ClientLink FlushAnswers
open FlushTracking

variable {M : Type} {opts : Options} {l : Link M} {i corrId : ℕ}

def Confirmed (l : Link M) (i corrId : ℕ) : Prop :=
  l.client.stages[i]? = some (.returned (.flushed corrId)) →
    (∃ k : ℕ, l.conn.sent[k]? = some (.ping corrId)) ∧
      ∀ k : ℕ, l.conn.sent[k]? = some (.ping corrId) → k ≤ l.served

def Registers (l : Link M) (event : ClientLink.Event M) (i corrId : ℕ) : Prop :=
  event = .client (.advance i .go) ∧ l.client.stages[i]? = some (.joining corrId) ∧
    l.conn.mapsFree = true

def Current (l : Link M) : Prop :=
  l.conn.broken = false → l.conn.reader ≠ .ended →
    pongsDue l + pingsAhead l l.conn.sent.length ≤ l.conn.maps.pendingFlush.keys.length

def AlwaysConfirms (opts : Options) (l : Link M) : List (ClientLink.Event M) → Prop
  | [] => True
  | event :: events =>
    (∀ i corrId, Registers l event i corrId →
      ∀ later, Confirmed ((l.step opts event).run opts later) i corrId) ∧
    AlwaysConfirms opts (l.step opts event) events

def AlwaysCurrent (opts : Options) (l : Link M) : List (ClientLink.Event M) → Prop
  | [] => True
  | event :: events =>
    (∀ i corrId, Registers l event i corrId → Current l) ∧
    AlwaysCurrent opts (l.step opts event) events

variable {event : ClientLink.Event M}

theorem step_registers (opts : Options) (registers : Registers l event i corrId) :
    l.step opts event = l.moved i (.joining corrId)
      (l.client.state.setConn (l.conn.setMaps { l.conn.maps with
        pendingFlush := l.conn.maps.pendingFlush.insert corrId corrId }))
        (.sendingPing corrId) := by
  obtain ⟨rfl, found, free⟩ := registers
  refine step_advance (next_eq_some.mpr ⟨found, fun waits => (by cases waits), ?_⟩)
  change l.client.state.onMaps (fun maps => { maps with
    pendingFlush := maps.pendingFlush.insert corrId corrId }) (·, .sendingPing corrId) = _
  rw [ClientState.onMaps, if_pos (show l.client.state.conn.mapsFree = true from free)]
  rfl

theorem older_insert {t : Table ℕ ℕ} (smaller : ∀ other ∈ t, other < corrId) (tx : ℕ) :
    older (t.insert corrId tx) corrId = t.keys.length := by
  have new : corrId ∉ t.keys := fun member =>
    absurd (smaller corrId (AList.mem_keys.mpr member)) (lt_irrefl _)
  rw [older, AList.keys_insert, List.erase_of_not_mem new, List.countP_cons_of_neg (by simp),
    List.countP_eq_length]
  intro other member
  simpa using smaller other (AList.mem_keys.mpr member)

theorem tracked_of_current (h : Flow opts l) (registers : Registers l event i corrId)
    (current : Current l) : Tracked (l.step opts event) i corrId := by
  have step := step_registers opts registers
  obtain ⟨-, found, -⟩ := registers
  obtain ⟨smaller, unanswered⟩ := h.joining i corrId found
  rw [step]
  refine ⟨.sendingPing corrId, List.getElem?_set_self (List.getElem?_eq_some_iff.mp found).1, rfl,
    ?_⟩
  cases up : l.conn.broken with
  | true => exact .inl up
  | false =>
    refine .inr ⟨unanswered, ?_⟩
    by_cases running : l.conn.reader = .ended
    · exact .inl running
    · refine .inr ((current up running).trans_eq ?_)
      exact (older_insert smaller corrId).symm

theorem confirmed_of_tracked (h : Numbered opts l.client) (tracked : Tracked l i corrId) :
    Confirmed l i corrId := by
  intro returned
  obtain ⟨stage, found, holds⟩ := tracked
  cases found.symm.trans returned
  obtain ⟨-, k, known, served⟩ := holds
  refine ⟨⟨k, known⟩, fun k' known' => ?_⟩
  rw [h.once k' k _ _ corrId known' known rfl rfl]
  exact served.le

theorem confirmed_of_current (h : Flow opts l) (registers : Registers l event i corrId)
    (current : Current l) (later : List (ClientLink.Event M)) :
    Confirmed ((l.step opts event).run opts later) i corrId := by
  have tracked := tracked_of_current h registers current
  have flow := List.foldlRecOn later _ (motive := Flow opts) (h.step event)
    fun _ flow event _ => flow.step event
  exact confirmed_of_tracked flow.numbered (tracked_run (h.step event) tracked later)

theorem alwaysConfirms_of_current (h : Flow opts l) (events : List (ClientLink.Event M))
    (current : AlwaysCurrent opts l events) : AlwaysConfirms opts l events := by
  induction events generalizing l with
  | nil => trivial
  | cons event events ih =>
    exact ⟨fun i corrId registers =>
      confirmed_of_current h registers (current.1 i corrId registers), ih (h.step event) current.2⟩

private def goesOn (i : ℕ) : ClientLink.Event Unit := .client (.advance i .go)

private def promptAnswer : List (ClientLink.Event Unit) :=
  [.client (.request (.call .publish)), goesOn 0, goesOn 0, .client (.request (.call .flush)),
    goesOn 1, goesOn 1, goesOn 1, .client (.net .write), .client (.net .write),
    .serve false true, .serve false true, .read, goesOn 1]

instance (l : Link Unit) : Decidable (Current l) :=
  inferInstanceAs (Decidable (_ → _ → _))

private def lateAnswer : List (ClientLink.Event Unit) :=
  [.client (.request (.call .flush)), goesOn 0, goesOn 0, goesOn 0, .client (.net .write),
    .serve false true, .client (.advance 0 .expire), goesOn 0,
    .client (.request (.call .publish)), goesOn 1, goesOn 1,
    .client (.request (.call .flush)), goesOn 2, goesOn 2, goesOn 2, .read, goesOn 2]

end ZetMQ.FlushSchedules
