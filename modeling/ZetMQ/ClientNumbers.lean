import ZetMQ.ClientTasks

/-! The correlation ids of one connection are taken from a counter under its lock, so no two
frames that ask for an answer carry the same one. -/
namespace ZetMQ.ClientNumbers
open KeyedTable ClientConnection LockedTasks ClientTasks

variable {M : Type} {opts : Options}

/-- The number under which a frame asks for an answer. -/
def asks : Sent → Option ℕ
  | .sub corrId _ => some corrId
  | .ping corrId => some corrId
  | _ => none

def Unused (conn : Connection M) (corrId : ℕ) : Prop :=
  corrId < conn.subCounter ∧ ∀ frame ∈ conn.sent, asks frame ≠ some corrId

/-- A request that is still to be sent has a number of its own. -/
def StageNumbered (conn : Connection M) : Stage → Prop
  | .registering corrId _ _ | .sendingSub corrId _ _ | .joining corrId | .sendingPing corrId =>
    Unused conn corrId
  | .awaitingSuback corrId channel _ => .sub corrId channel ∈ conn.sent
  | .awaitingPong corrId => .ping corrId ∈ conn.sent
  | _ => True

structure Numbered (opts : Options) (c : Client M) : Prop where
  exclusive : Exclusive (program (M := M) opts) c.stages
  below : ∀ frame ∈ c.state.conn.sent, ∀ corrId, asks frame = some corrId →
    corrId < c.state.conn.subCounter
  once : ∀ (j k : ℕ) frame frame' corrId, c.state.conn.sent[j]? = some frame →
    c.state.conn.sent[k]? = some frame' → asks frame = some corrId → asks frame' = some corrId →
    j = k
  own : ∀ corrId tx, c.state.conn.maps.pendingSubs.lookup corrId = some tx → tx = corrId
  stages : ∀ (i : ℕ) (stage : Stage), c.stages[i]? = some stage → StageNumbered c.state.conn stage

theorem stageNumbered_outside {conn : Connection M} {stage : Stage}
    (outside : stage.inside = false) : StageNumbered conn stage := by
  cases stage with
  | registering | sendingSub | awaitingSuback | joining | sendingPing | awaitingPong =>
    cases outside
  | _ => trivial

structure Continues (conn conn' : Connection M) : Prop where
  counter : conn.subCounter ≤ conn'.subCounter
  sent : conn'.sent = conn.sent ∨ ∃ frame, asks frame = none ∧ conn'.sent = conn.sent ++ [frame]
  pending : ∀ corrId tx, conn'.maps.pendingSubs.lookup corrId = some tx →
    conn.maps.pendingSubs.lookup corrId = some tx ∨ tx = corrId

variable {frame : Sent} {corrId : ℕ}

section
variable {conn conn' : Connection M}

theorem Continues.mem (continues : Continues conn conn') (asking : asks frame = some corrId) :
    frame ∈ conn'.sent ↔ frame ∈ conn.sent := by
  rcases continues.sent with same | ⟨other, silent, same⟩
  · rw [same]
  · rw [same, List.mem_append, List.mem_singleton, or_iff_left]
    rintro rfl
    cases silent.symm.trans asking

theorem Continues.getElem? (continues : Continues conn conn') {k : ℕ}
    (found : conn'.sent[k]? = some frame) (asking : asks frame = some corrId) :
    conn.sent[k]? = some frame := by
  rcases continues.sent with same | ⟨other, silent, same⟩
  · rwa [← same]
  · rw [same] at found
    rcases getElem?_concat_cases found with found | ⟨-, rfl⟩
    · exact found
    · cases silent.symm.trans asking

theorem Unused.continues (h : Unused conn corrId) (continues : Continues conn conn') :
    Unused conn' corrId :=
  ⟨h.1.trans_le continues.counter,
    fun frame member asking => h.2 frame ((continues.mem asking).mp member) asking⟩

theorem Continues.stage (continues : Continues conn conn') {stage : Stage}
    (h : StageNumbered conn stage) : StageNumbered conn' stage := by
  cases stage with
  | registering | sendingSub | joining | sendingPing => exact Unused.continues h continues
  | awaitingSuback | awaitingPong => exact (continues.mem rfl).mpr h
  | _ => trivial

theorem continues_of_eq (counter : conn.subCounter ≤ conn'.subCounter)
    (sent : conn'.sent = conn.sent) (pending : conn'.maps.pendingSubs = conn.maps.pendingSubs) :
    Continues conn conn' :=
  ⟨counter, .inl sent, fun corrId tx found => .inl (by rwa [← pending])⟩

theorem Continues.refl (conn : Connection M) : Continues conn conn :=
  continues_of_eq le_rfl rfl rfl

theorem continues_post (silent : asks frame = none) : Continues conn (conn.post frame) :=
  ⟨le_rfl, .inr ⟨frame, silent, rfl⟩, fun _ _ found => .inl found⟩

end

theorem continues_take (conn : Connection M) (frame : Inbound M) :
    Continues conn (conn.take frame) := by
  have took := took conn frame
  generalize conn.take frame = conn' at took ⊢
  cases took with
  | strays | acks =>
    exact ⟨le_rfl, .inl rfl, fun _ _ found => .inl (lookup_erase_eq_some.mp found).2⟩
  | resolves => exact continues_of_eq le_rfl rfl (resolveFlush_pendingSubs _ _)
  | ignores | holds | answers => exact continues_of_eq le_rfl rfl rfl

theorem continues_net (s : ClientState M) (event : Net M) :
    Continues s.conn (s.net opts event).conn := by
  have stirred := stirred opts s event
  generalize s.net opts event = s' at stirred ⊢
  cases stirred with
  | reads frame => exact continues_take s.conn frame
  | forwards sends => cases sends <;> exact continues_of_eq le_rfl rfl rfl
  | answers =>
    have posted : Continues s.conn (s.conn.post .pong) := continues_post rfl
    exact ⟨posted.1, posted.2, posted.3⟩
  | _ => exact continues_of_eq le_rfl rfl rfl

section
variable {c : Client M}

section
variable (h : Numbered opts c)
include h

theorem Numbered.of_continues {s' : ClientState M} {stages' : List Stage}
    (continues : Continues c.state.conn s'.conn)
    (exclusive : Exclusive (program (M := M) opts) stages')
    (stages : ∀ (i : ℕ) (stage : Stage), stages'[i]? = some stage → StageNumbered s'.conn stage) :
    Numbered opts ⟨s', stages'⟩ where
  exclusive := exclusive
  below frame member corrId asking :=
    (h.below frame ((continues.mem asking).mp member) corrId asking).trans_le continues.counter
  once j k frame frame' corrId first second asking asking' :=
    h.once j k frame frame' corrId (continues.getElem? first asking)
      (continues.getElem? second asking') asking asking'
  own corrId tx found := (continues.pending corrId tx found).elim (h.own corrId tx) id
  stages := stages

theorem Numbered.fresh (counted : Connection M)
    (counter : counted.subCounter = c.state.conn.subCounter + 1)
    (sent : counted.sent = c.state.conn.sent) : Unused counted c.state.conn.subCounter := by
  refine ⟨by omega, fun frame member asking => ?_⟩
  rw [sent] at member
  exact absurd (h.below frame member _ asking) (lt_irrefl _)

theorem Numbered.sub_once {channel channel' : ℕ} (first : .sub corrId channel ∈ c.state.conn.sent)
    (second : .sub corrId channel' ∈ c.state.conn.sent) : channel = channel' := by
  obtain ⟨j, first⟩ := List.mem_iff_getElem?.mp first
  obtain ⟨k, second⟩ := List.mem_iff_getElem?.mp second
  obtain rfl := h.once j k _ _ corrId first second rfl rfl
  cases first.symm.trans second
  rfl

end

variable {i : ℕ} {stage stage' : Stage} {s' : ClientState M}

section
variable (h : Numbered opts c)
include h

theorem Numbered.goes (s' : ClientState M) (found : c.stages[i]? = some stage)
    (exclusive : Exclusive (program (M := M) opts) (c.stages.set i stage'))
    (continues : Continues c.state.conn s'.conn) (own : StageNumbered s'.conn stage') :
    Numbered opts ⟨s', c.stages.set i stage'⟩ :=
  h.of_continues continues exclusive
    (forall_set found h.stages (fun _ => own) fun _ ok => continues.stage ok)

theorem Numbered.sends (found : c.stages[i]? = some stage)
    (lock : stage.waits = true → c.free (program (M := M) opts) = true)
    (inside : stage.inside = true)
    (exclusive : Exclusive (program (M := M) opts) (c.stages.set i stage'))
    (asking : asks frame = some corrId) (unused : Unused c.state.conn corrId)
    (own : ∀ conn : Connection M, frame ∈ conn.sent → StageNumbered conn stage') :
    Numbered opts ⟨c.state.setConn (c.state.conn.post frame), c.stages.set i stage'⟩ := by
  have here : frame ∈ (c.state.conn.post frame).sent :=
    List.mem_append_right _ (List.mem_singleton_self _)
  refine ⟨exclusive, fun frame' member corrId' asking' => ?_,
    fun j k a b corrId' first second asksA asksB => ?_, h.own, ?_⟩
  · rcases List.mem_append.mp member with old | new
    · exact h.below frame' old corrId' asking'
    · cases List.mem_singleton.mp new
      cases asking.symm.trans asking'
      exact unused.1
  · rcases getElem?_concat_cases first with oldA | ⟨rfl, rfl⟩ <;>
      rcases getElem?_concat_cases second with oldB | ⟨rfl, rfl⟩
    · exact h.once j k a b corrId' oldA oldB asksA asksB
    · cases asking.symm.trans asksB
      exact absurd asksA (unused.2 a (List.mem_of_getElem? oldA))
    · cases asking.symm.trans asksA
      exact absurd asksB (unused.2 b (List.mem_of_getElem? oldB))
    · rfl
  · exact h.exclusive.forall_set found lock (.inl inside) h.stages (fun _ => own _ here)
      fun _ outside _ => stageNumbered_outside outside

theorem Numbered.moved {choice : Choice}
    (step : c.next (program opts) i choice = some (stage, s', stage')) :
    Numbered opts ⟨s', c.stages.set i stage'⟩ := by
  obtain ⟨found, lock, work⟩ := next_eq_some.mp step
  have exclusive := h.exclusive.moved found lock work
  have own := h.stages i stage found
  have goes := h.goes s' found exclusive
  cases worked_of_work work with
  | wanders was next => exact goes (.refl _) (stageNumbered_outside (outer_outside next))
  | subscribes | flushes =>
    exact goes (continues_of_eq (Nat.le_succ _) rfl rfl) (h.fresh _ rfl rfl)
  | drains attempt drained next =>
    rcases next with rfl | ⟨who, k, delay, -, rfl⟩ <;>
      exact goes (continues_of_eq le_rfl rfl rfl) trivial
  | accepted who attempt delay chosen =>
    refine ⟨exclusive, by simp [ClientState.setConn, Connection.connect],
      by simp [ClientState.setConn, Connection.connect],
      by simp [ClientState.setConn, Connection.connect, ConnState.new], ?_⟩
    exact h.exclusive.forall_set found lock (.inl rfl) h.stages (fun _ => trivial)
      fun _ outside _ => stageNumbered_outside outside
  | @copies who order todo visits =>
    cases todo with
    | nil => exact goes (.refl _) trivial
    | cons entry todo =>
      exact goes (continues_of_eq (Nat.le_succ _) rfl rfl) (h.fresh _ rfl rfl)
  | remaps who remapped =>
    exact goes (.refl _) (stageNumbered_outside (outer_outside (resume_outer who)))
  | registers corrId channel purpose free =>
    refine goes ⟨le_rfl, .inl rfl, fun corrId' tx known => ?_⟩ own
    rcases lookup_insert_eq_some.mp known with ⟨rfl, rfl⟩ | ⟨-, known⟩
    exacts [.inr rfl, .inl known]
  | sendsPub | sendsUnsub => exact goes (continues_post rfl) trivial
  | sendsPing => exact h.sends found lock rfl exclusive rfl own fun _ member => member
  | sendsSub => exact h.sends found lock rfl exclusive rfl own fun _ member => member
  | failsSub corrId channel purpose down =>
    cases purpose with
    | fresh => exact goes (.refl _) trivial
    | replay who =>
      exact goes (.refl _) (stageNumbered_outside (outer_outside (giveUp_outer who)))
  | enters corrId subId channel purpose free entered =>
    subst entered
    cases purpose with
    | fresh subject queueGroup track =>
      cases track <;> exact goes (continues_of_eq le_rfl rfl rfl) trivial
    | replay who stableId todo remapped =>
      cases todo with
      | nil => exact goes (continues_of_eq le_rfl rfl rfl) trivial
      | cons entry todo =>
        exact goes (continues_of_eq (Nat.le_succ _) rfl rfl) (h.fresh _ rfl rfl)
  | acked | failsPing | flushed | expires | publishes | leaves | closes | takes | records =>
    exact goes (.refl _) trivial
  | joins => exact goes (continues_of_eq le_rfl rfl rfl) own
  | shuts | forgets | removes => exact goes (continues_of_eq le_rfl rfl rfl) trivial

theorem Numbered.request {r : Request} {stage : Stage} (first : c.first opts r = some stage) :
    Numbered opts { c with stages := c.stages ++ [stage] } := by
  have outside := first_outside first
  refine h.of_continues (.refl _) (h.exclusive.concat outside) fun j other at_j => ?_
  rcases getElem?_concat_cases at_j with at_j | ⟨-, rfl⟩
  exacts [h.stages j other at_j, stageNumbered_outside outside]

theorem Numbered.cancel (found : c.stages[i]? = some stage) (dropped : List ℕ) : Numbered opts
      ⟨{ c.state with dropped := dropped }, c.stages.set i (.returned .cancelled)⟩ :=
  h.of_continues (.refl _) (h.exclusive.set (by simp [program, Stage.inside]))
    (forall_set found h.stages (fun _ => trivial) fun _ ok => ok)

theorem Numbered.net (event : Net M) : Numbered opts { c with state := c.state.net opts event } :=
  h.of_continues (continues_net _ event) h.exclusive
    fun i stage found => (continues_net _ event).stage (h.stages i stage found)

end

theorem stage_start {i : ℕ} {stage : Stage}
    (found : (Client.start opts : Client M).stages[i]? = some stage) : stage = .polling := by
  rw [Client.start] at found
  split_ifs at found
  · simpa using List.mem_of_getElem? found
  · cases found

theorem numbered_start : Numbered opts (Client.start opts : Client M) := by
  refine ⟨?_, by simp [Client.start, ClientState.start, Connection.connect],
    by simp [Client.start, ClientState.start, Connection.connect],
    by simp [Client.start, ClientState.start, Connection.connect, ConnState.new], ?_⟩
  · intro i j stage stage' found
    obtain rfl := stage_start found
    intro _ inside
    cases inside
  · intro i stage found
    obtain rfl := stage_start found
    trivial

end

end ZetMQ.ClientNumbers
