import ZetMQ.ClientHandles

/-! On one connection no channel is subscribed twice: a call subscribes a channel of its own,
and a replay goes once through a record in which no channel stands twice. -/
namespace ZetMQ.SubscribedOnce
open KeyedTable ClientConnection ClientSubscriptions LockedTasks ClientTasks ClientNumbers
  ClientHandles Session

variable {M : Type} {opts : Options}

/-- The channels that a replay still has to subscribe. -/
def todo : Purpose → List ℕ
  | .fresh _ _ _ => []
  | .replay _ _ todo _ => todo.map (·.2.tx)

def Ahead (s : ClientState M) (channels : List ℕ) : Prop :=
  channels.Nodup ∧ ∀ channel ∈ channels, channel < s.channels ∧ subs s.conn channel = []

def StageWired (s : ClientState M) : Stage → Prop
  | .registering _ channel purpose => Ahead s (channel :: todo purpose)
  | .sendingSub corrId channel purpose => Ahead s (channel :: todo purpose) ∧
    s.conn.maps.pendingSubs.lookup corrId = some corrId
  | .awaitingSuback corrId channel purpose =>
    subs s.conn channel = [corrId] ∧ Ahead s (todo purpose)
  | .entering _ subId channel purpose => Once s.conn channel subId ∧ Ahead s (todo purpose)
  | .recording subId channel _ _ => Once s.conn channel subId
  | .copying _ => ∀ channel, subs s.conn channel = []
  | .shutting _ => s.conn.connected = false
  | _ => True

structure Wired (opts : Options) (s : Session M) : Prop where
  numbered : Numbered opts s.client
  down : s.conn.broken = true → s.conn.connected = false
  waiting : ∀ corrId channel, .sub corrId channel ∈ s.conn.sent →
    s.conn.subacks.lookup corrId = none → s.conn.maps.pendingSubs.lookup corrId = some corrId
  answers : ∀ corrId subId, s.conn.subacks.lookup corrId = some subId →
    ∃ channel, .sub corrId channel ∈ s.conn.sent
  single : ∀ channel, (subs s.conn channel).length ≤ 1
  below : ∀ corrId channel, .sub corrId channel ∈ s.conn.sent → channel < s.client.state.channels
  latest : ∀ channel subId, Once s.conn channel subId → s.latest channel = subId
  stages : ∀ (i : ℕ) (stage : Stage), s.client.stages[i]? = some stage →
    StageWired s.client.state stage

/-- What most steps do to the parts that this is about. -/
structure Still (s s' : ClientState M) : Prop where
  sent : ∀ channel, subs s'.conn channel = subs s.conn channel
  subacks : s'.conn.subacks = s.conn.subacks
  pending : ∀ corrId, s.conn.maps.pendingSubs.lookup corrId = some corrId →
    s'.conn.maps.pendingSubs.lookup corrId = some corrId
  connected : s'.conn.connected = true → s.conn.connected = true
  down : s'.conn.broken = true → s.conn.broken = true ∨ s'.conn.connected = false
  channels : s.channels ≤ s'.channels

variable {channel : ℕ} {handles : ℕ → Option Handle}

section
variable {s s' : ClientState M}

theorem Still.of_eq (conn : s'.conn = s.conn) (channels : s'.channels = s.channels) :
    Still s s' where
  sent channel := by rw [conn]
  subacks := by rw [conn]
  pending corrId found := by rwa [conn]
  connected up := by rwa [← conn]
  down broken := .inl (by rwa [← conn])
  channels := channels.ge

theorem Still.refl (s : ClientState M) : Still s s := .of_eq rfl rfl

theorem still_of_parts (sent : s'.conn.sent = s.conn.sent)
    (subacks : s'.conn.subacks = s.conn.subacks)
    (pending : s'.conn.maps.pendingSubs = s.conn.maps.pendingSubs)
    (ends : s'.conn.connected = s.conn.connected ∧ s'.conn.broken = s.conn.broken ∨
      s'.conn.connected = false) (channels : s.channels ≤ s'.channels) : Still s s' where
  sent channel := by rw [subs, sent, subs]
  subacks := subacks
  pending corrId found := by rwa [pending]
  connected up := by
    rcases ends with same | down
    · rwa [← same.1]
    · cases up.symm.trans down
  down broken := ends.imp (fun same => by rwa [← same.2]) id
  channels := channels

theorem still_post {frame : Sent} (silent : ∀ channel, subFor channel frame = none) :
    Still s (s.setConn (s.conn.post frame)) where
  sent channel := by
    change subs (s.conn.post frame) channel = _
    rw [subs_post, silent]
    simp
  subacks := rfl
  pending _ found := found
  connected up := up
  down broken := .inl broken
  channels := le_rfl

theorem Still.once (still : Still s s') {subId : ℕ} (once : Once s.conn channel subId) :
    Once s'.conn channel subId :=
  once.of_eq (still.sent channel) still.subacks

theorem Still.mem (still : Still s s') {corrId : ℕ} :
    .sub corrId channel ∈ s'.conn.sent ↔ .sub corrId channel ∈ s.conn.sent := by
  rw [← mem_subs, still.sent, mem_subs]

theorem Ahead.still {channels : List ℕ} (h : Ahead s channels) (still : Still s s') :
    Ahead s' channels :=
  ⟨h.1, fun channel member => ⟨(h.2 channel member).1.trans_le still.channels,
    (still.sent channel).trans (h.2 channel member).2⟩⟩

theorem StageWired.still {stage : Stage} (h : StageWired s stage) (still : Still s s') :
    StageWired s' stage := by
  cases stage with
  | registering => exact Ahead.still h still
  | sendingSub => exact ⟨h.1.still still, still.pending _ h.2⟩
  | awaitingSuback => exact ⟨(still.sent _).trans h.1, h.2.still still⟩
  | entering => exact ⟨still.once h.1, h.2.still still⟩
  | recording => exact still.once h
  | copying => exact fun channel => (still.sent channel).trans (h channel)
  | shutting =>
    exact Bool.eq_false_of_not_eq_true fun up => by cases (still.connected up).symm.trans h
  | _ => trivial

theorem stageWired_outside {stage : Stage} (outside : stage.inside = false) :
    StageWired s stage := by
  cases stage with
  | registering | sendingSub | awaitingSuback | entering | recording | copying | shutting =>
    cases outside
  | _ => trivial

theorem still_net (s : ClientState M) {event : Net M}
    (other : ∀ corrId subId, event ≠ .read (.suback corrId subId)) :
    Still s (s.net opts event) := by
  have alike {s' : ClientState M} (sent : s'.conn.sent = s.conn.sent)
      (subacks : s'.conn.subacks = s.conn.subacks)
      (pending : s'.conn.maps.pendingSubs = s.conn.maps.pendingSubs)
      (connected : s'.conn.connected = s.conn.connected) (broken : s'.conn.broken = s.conn.broken)
      (channels : s'.channels = s.channels) : Still s s' :=
    still_of_parts sent subacks pending (.inl ⟨connected, broken⟩) channels.ge
  have stirred := stirred opts s event
  generalize s.net opts event = s' at stirred ⊢
  cases stirred with
  | reads frame =>
    have took := took s.conn frame
    generalize s.conn.take frame = conn' at took ⊢
    cases took with
    | strays corrId subId | acks subId => exact absurd rfl (other _ subId)
    | resolves => exact alike rfl rfl (resolveFlush_pendingSubs _ _) rfl rfl rfl
    | ignores | holds | answers => exact alike rfl rfl rfl rfl rfl rfl
  | closes | breaks => exact still_of_parts rfl rfl rfl (.inr rfl) le_rfl
  | forwards sends => cases sends <;> exact alike rfl rfl rfl rfl rfl rfl
  | answers =>
    have posted : Still s (s.setConn (s.conn.post .pong)) := still_post fun _ => rfl
    exact ⟨posted.1, posted.2, posted.3, posted.4, posted.5, posted.6⟩
  | _ => exact alike rfl rfl rfl rfl rfl rfl

end

section
variable {s : Session M} {i : ℕ} {stage stage' : Stage} {state : ClientState M}

section
variable (h : Wired opts s)
include h

theorem Wired.goes {client : ClientTasks.Client M} (numbered : Numbered opts client)
    (still : Still s.client.state client.state)
    (stages : ∀ (i : ℕ) (stage : Stage), client.stages[i]? = some stage →
      StageWired client.state stage) : Wired opts ⟨client, handles, s.latest⟩ where
  numbered := numbered
  down broken := (still.down broken).elim
    (fun before => Bool.eq_false_of_not_eq_true fun up => by
      cases (still.connected up).symm.trans (h.down before)) id
  waiting corrId channel member new := by
    refine still.pending corrId (h.waiting corrId channel (still.mem.mp member) ?_)
    exact still.subacks ▸ new
  answers corrId subId found := by
    obtain ⟨channel, member⟩ := h.answers corrId subId (still.subacks ▸ found)
    exact ⟨channel, still.mem.mpr member⟩
  single channel := (still.sent channel).symm ▸ h.single channel
  below corrId channel member :=
    (h.below corrId channel (still.mem.mp member)).trans_le still.channels
  latest channel subId once :=
    h.latest channel subId (once.of_eq (still.sent channel).symm still.subacks.symm)
  stages := stages

theorem Wired.subs_new (new : s.client.state.channels ≤ channel) : subs s.conn channel = [] := by
  refine List.eq_nil_iff_forall_not_mem.mpr fun corrId member => ?_
  exact absurd (h.below corrId channel (mem_subs.mp member)) (Nat.not_lt.mpr new)

theorem Wired.accepted {who : Option Call} {attempt delay : ℕ} (numbered : Numbered opts
      ⟨s.client.state.setConn .connect, s.client.stages.set i (.copying who)⟩)
    (found : s.client.stages[i]? = some (.connecting who attempt delay)) :
    Wired opts ⟨⟨s.client.state.setConn .connect, s.client.stages.set i (.copying who)⟩, handles,
      s.latest⟩ := by
  have none (channel : ℕ) : subs (.connect : Connection M) channel = [] := rfl
  refine ⟨numbered, by simp [Session.conn, ClientState.setConn, Connection.connect,
    Connection.broken],
    fun corrId channel member => (List.not_mem_nil member).elim, fun corrId subId known => ?_,
    fun channel => Nat.zero_le 1, fun corrId channel member => (List.not_mem_nil member).elim,
    fun channel subId once => ?_, ?_⟩
  · simp [Session.conn, ClientState.setConn, Connection.connect] at known
  · obtain ⟨corrId, only, -⟩ := once_iff.mp once
    cases only
  · exact h.numbered.exclusive.forall_set found (by simp [program, Stage.waits]) (.inl rfl) h.stages
      (fun _ => none) fun _ outside _ => stageWired_outside outside

theorem Wired.sendsSub {corrId : ℕ} {purpose : Purpose}
    (numbered : Numbered opts ⟨s.client.state.setConn (s.conn.post (.sub corrId channel)),
      s.client.stages.set i (.awaitingSuback corrId channel purpose)⟩)
    (found : s.client.stages[i]? = some (.sendingSub corrId channel purpose)) :
    Wired opts ⟨⟨s.client.state.setConn (s.conn.post (.sub corrId channel)),
      s.client.stages.set i (.awaitingSuback corrId channel purpose)⟩, handles, s.latest⟩ := by
  obtain ⟨⟨nodup, ahead⟩, registered⟩ := h.stages i _ found
  have unsent : subs s.conn channel = [] := (ahead channel (List.mem_cons_self ..)).2
  have here : subs (s.conn.post (.sub corrId channel)) channel = [corrId] := by
    rw [subs_post, unsent, subFor, if_pos rfl]
    rfl
  have there {channel' : ℕ} (other : channel' ≠ channel) :
      subs (s.conn.post (.sub corrId channel)) channel' = subs s.conn channel' := by
    rw [subs_post, subFor, if_neg (Ne.symm other)]
    simp
  have cases_of {corrId' channel' : ℕ}
      (member : .sub corrId' channel' ∈ (s.conn.post (.sub corrId channel)).sent) :
      .sub corrId' channel' ∈ s.conn.sent ∨ corrId' = corrId ∧ channel' = channel := by
    simpa [Connection.post] using member
  refine ⟨numbered, h.down, fun corrId' channel' member new => ?_, fun corrId' subId known => ?_,
    fun channel' => ?_, fun corrId' channel' member => ?_, fun channel' subId once => ?_, ?_⟩
  · rcases cases_of member with old | ⟨rfl, -⟩
    exacts [h.waiting corrId' channel' old new, registered]
  · obtain ⟨channel', member⟩ := h.answers corrId' subId known
    exact ⟨channel', List.mem_append_left _ member⟩
  · by_cases same : channel' = channel
    · subst same
      exact (congrArg List.length here).le
    · exact (there same).symm ▸ h.single channel'
  · rcases cases_of member with old | ⟨-, rfl⟩
    exacts [h.below corrId' channel' old, (ahead channel' (List.mem_cons_self ..)).1]
  · by_cases same : channel' = channel
    · -- the new `SUB` has no answer yet
      subst same
      obtain ⟨_, only, known⟩ := once_iff.mp once
      cases here.symm.trans only
      obtain ⟨channel'', member⟩ := h.answers corrId subId known
      exact absurd rfl ((h.numbered.stages i _ found).2 _ member)
    · exact h.latest channel' subId (once.of_eq (there same).symm rfl)
  · refine h.numbered.exclusive.forall_set found (by simp [program, Stage.waits]) (.inl rfl)
      h.stages
      (fun _ => ⟨here, (List.nodup_cons.mp nodup).2, fun channel' member => ?_⟩)
      fun _ outside _ => stageWired_outside outside
    obtain ⟨below, none⟩ := ahead channel' (List.mem_cons_of_mem _ member)
    refine ⟨below, (there ?_).trans none⟩
    rintro rfl
    exact (List.nodup_cons.mp nodup).1 member

theorem Wired.moved {choice : Choice} (distinct : ∀ order : IterOrder ℕ ActiveSubscription,
      ((order.visit s.record).map (·.2.tx)).Nodup ∧
        ∀ entry ∈ order.visit s.record, entry.2.tx < s.client.state.channels)
    (step : s.client.next (program opts) i choice = some (stage, state, stage')) :
    Wired opts ⟨⟨state, s.client.stages.set i stage'⟩, handles, s.latest⟩ := by
  obtain ⟨found, lock, work⟩ := next_eq_some.mp step
  have numbered := h.numbered.moved step
  have own := h.stages i stage found
  have goes (still : Still s.client.state state) (next : StageWired state stage') :
      Wired opts ⟨⟨state, s.client.stages.set i stage'⟩, handles, s.latest⟩ :=
    h.goes numbered still (forall_set found h.stages (fun _ => next) fun _ ok => ok.still still)
  cases worked_of_work work with
  | wanders was next => exact goes (.refl _) (stageWired_outside (outer_outside next))
  | closes | takes | leaves | records | publishes | failsPing | flushed | expires =>
    exact goes (.of_eq rfl rfl) trivial
  | subscribes =>
    refine goes (still_of_parts rfl rfl rfl (.inl ⟨rfl, rfl⟩) (Nat.le_succ _)) ⟨by simp [todo], ?_⟩
    intro channel member
    obtain rfl : channel = s.client.state.channels := by simpa [todo] using member
    exact ⟨Nat.lt_succ_self _, h.subs_new le_rfl⟩
  | flushes | forgets | removes | joins =>
    exact goes (still_of_parts rfl rfl rfl (.inl ⟨rfl, rfl⟩) le_rfl) trivial
  | shuts => exact goes (still_of_parts rfl rfl rfl (.inr rfl) le_rfl) rfl
  | drains attempt drained next =>
    have still : Still s.client.state
        (s.client.state.setConn { s.client.state.conn with writing := false }) :=
      still_of_parts rfl rfl rfl (.inr own) le_rfl
    rcases next with rfl | ⟨who, k, delay, -, rfl⟩ <;> exact goes still trivial
  | accepted who attempt delay => exact h.accepted numbered found
  | @copies who order todo visits =>
    subst visits
    have ⟨nodup, below⟩ := distinct order
    have ahead : Ahead s.client.state ((order.visit s.record).map (·.2.tx)) := by
      refine ⟨nodup, fun channel member => ?_⟩
      obtain ⟨entry, inRecord, rfl⟩ := List.mem_map.mp member
      exact ⟨below entry inRecord, own _⟩
    change Ahead _ ((order.visit s.client.state.record.subscriptions).map _) at ahead
    cases visited : order.visit s.client.state.record.subscriptions with
    | nil =>
      rw [visited] at goes numbered
      exact goes (.refl _) trivial
    | cons entry todo =>
      rw [visited] at goes numbered ahead
      exact goes (still_of_parts rfl rfl rfl (.inl ⟨rfl, rfl⟩) le_rfl)
        (ahead.still (still_of_parts rfl rfl rfl (.inl ⟨rfl, rfl⟩) le_rfl))
  | remaps who remapped =>
    exact goes (.of_eq rfl rfl) (stageWired_outside (outer_outside (resume_outer who)))
  | sendsPub | sendsPing | sendsUnsub => exact goes (still_post fun _ => rfl) trivial
  | registers corrId channel purpose free =>
    have still : Still s.client.state (s.client.state.setConn (s.client.state.conn.setMaps
        { s.client.state.conn.maps with
          pendingSubs := s.client.state.conn.maps.pendingSubs.insert corrId corrId })) := by
      refine ⟨fun _ => rfl, rfl, fun corrId' known => ?_, id, .inl, le_rfl⟩
      refine lookup_insert_eq_some.mpr ?_
      by_cases same : corrId' = corrId
      exacts [.inl ⟨same, same.symm⟩, .inr ⟨same, known⟩]
    exact goes still ⟨Ahead.still own still, AList.lookup_insert _⟩
  | sendsSub corrId channel purpose => exact h.sendsSub numbered found
  | failsSub corrId channel purpose =>
    cases purpose with
    | fresh => exact goes (.of_eq rfl rfl) trivial
    | replay who =>
      exact goes (.refl _) (stageWired_outside (outer_outside (giveUp_outer who)))
  | acked corrId subId channel purpose known =>
    exact goes (.refl _) ⟨once_iff.mpr ⟨corrId, own.1, known⟩, own.2⟩
  | enters corrId subId channel purpose free entered =>
    subst entered
    have still {s' : ClientState M} (sent : s'.conn.sent = s.conn.sent)
        (subacks : s'.conn.subacks = s.conn.subacks)
        (pending : s'.conn.maps.pendingSubs = s.conn.maps.pendingSubs)
        (connected : s'.conn.connected = s.conn.connected)
        (broken : s'.conn.broken = s.conn.broken)
        (channels : s'.channels = s.client.state.channels) : Still s.client.state s' :=
      still_of_parts sent subacks pending (.inl ⟨connected, broken⟩) channels.ge
    cases purpose with
    | fresh subject queueGroup track =>
      cases track with
      | false => exact goes (still rfl rfl rfl rfl rfl rfl) trivial
      | true => exact goes (still rfl rfl rfl rfl rfl rfl) own.1
    | replay who stableId todo remapped =>
      cases todo with
      | nil => exact goes (still rfl rfl rfl rfl rfl rfl) trivial
      | cons entry todo =>
        exact goes (still rfl rfl rfl rfl rfl rfl) (own.2.still (still rfl rfl rfl rfl rfl rfl))

end

end

end ZetMQ.SubscribedOnce
