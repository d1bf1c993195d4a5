import ZetMQ.SubscribeRecord

/-! Both ends of a link agree after every run, and the message that the read task has in hand
belongs to the frame it took last. -/
namespace ZetMQ.SubscribeRuns
open KeyedTable ClientConnection ClientSubscriptions LockedTasks ClientTasks ClientNumbers
  ClientLink
open SubscribeRecord

variable {M : Type} {opts : Options} {l : Link M}

/-- The message that the read task is passing on, and what it has passed on. -/
structure InHand (l : Link M) : Prop where
  within : l.taken ≤ l.enqueued.length
  reader : ∀ channel subId message, l.conn.reader = .forwarding channel subId message →
    ∃ k item, l.taken = k + 1 ∧ l.enqueued[k]? = some item ∧ item.frame = .msg subId message ∧
      ChannelOf l subId channel
  forwarded : ∀ k channel, (k, channel) ∈ l.forwarded → k < l.taken ∧
    ∀ channel' subId message, l.conn.reader = .forwarding channel' subId message → k + 1 < l.taken

structure Sound (opts : Options) (l : Link M) : Prop where
  session : Session l
  records : Records opts l
  inHand : InHand l

theorem InHand.quiet {l l' : Link M} (h : InHand l) (taken : l'.taken = l.taken)
    (enqueued : l.enqueued <+: l'.enqueued) (forwarded : l'.forwarded = l.forwarded)
    (grows : ∀ subId sub, l.created.lookup subId = some sub → l'.created.lookup subId = some sub)
    (reader : ∀ channel subId message, l'.conn.reader = .forwarding channel subId message →
      l.conn.reader = .forwarding channel subId message) : InHand l' where
  within := taken.trans_le (h.within.trans enqueued.length_le)
  reader channel subId message reading := by
    obtain ⟨k, item, here, known, frame, corrId, created⟩ :=
      h.reader channel subId message (reader _ _ _ reading)
    exact ⟨k, item, taken.trans here, getElem?_of_extends enqueued known, frame, corrId,
      grows _ _ created⟩
  forwarded k channel member := by
    rw [forwarded] at member
    obtain ⟨below, passed⟩ := h.forwarded k channel member
    rw [taken]
    exact ⟨below, fun channel' subId message reading => passed _ _ _ (reader _ _ _ reading)⟩

variable {stage : Stage} {frame : Inbound M}

section
variable (h : Sound opts l)
include h

theorem Sound.moved {i : ℕ} {stage' : Stage} {s' : ClientState M} {choice : Choice}
    (chosen : choice ≠ .accepted)
    (step : l.client.next (program opts) i choice = some (stage, s', stage')) :
    Sound opts (l.moved i stage s' stage') := by
  have worked := worked_of_work (next_eq_some.mp step).2.2
  refine ⟨h.session.sends rfl rfl rfl rfl ?_, h.records.moved h.session chosen step,
    h.inHand.quiet rfl List.prefix_rfl rfl (fun _ _ known => known) ?_⟩
  · exact (worked_sent worked).elim id fun accepted => absurd accepted chosen
  · intro channel subId message reading
    rcases worked_reader worked with same | ended | accepted
    · exact same.symm.trans reading
    · cases ended.symm.trans reading
    · exact absurd accepted chosen

/-- Something happens beside the tasks that the reader has no part in. -/
theorem Sound.outside {s' : ClientState M} (numbered : Numbered opts ⟨s', l.client.stages⟩)
    (sent : l.conn.sent <+: s'.conn.sent)
    (map : s'.conn.maps.subscriptions = l.conn.maps.subscriptions)
    (subacks : s'.conn.subacks = l.conn.subacks) (record : s'.record = l.client.state.record)
    (dropped : l.client.state.dropped ⊆ s'.dropped)
    (reader : ∀ channel subId message, s'.conn.reader = .forwarding channel subId message →
      l.conn.reader = .forwarding channel subId message) :
    Sound opts { l with client := ⟨s', l.client.stages⟩ } where
  session := h.session.sends rfl rfl rfl rfl sent
  records := h.records.net numbered (fun subId channel known => by rwa [← map])
    (fun subId channel known live => by rwa [map])
    (fun corrId subId known => h.records.resolved corrId subId (by rwa [← subacks])) record dropped
  inHand := h.inHand.quiet rfl List.prefix_rfl rfl (fun _ _ known => known) reader

theorem first_sound {r : Request} (first : l.client.first opts r = some stage) :
    stage.replays = false ∧ StageSound l stage := by
  cases r with
  | call call =>
    obtain rfl := Option.some.inj first
    split <;> exact ⟨rfl, trivial⟩
  | unsubscribe j =>
    rw [Client.first] at first
    split at first <;> cases first
    rename_i id channel returned
    exact ⟨rfl, h.records.stages j (.returned (.subscribed id channel)) returned⟩
  | close =>
    rw [Client.first] at first
    split_ifs at first
    cases first
    exact ⟨rfl, trivial⟩

theorem Sound.request {r : Request} (first : l.client.first opts r = some stage) :
    Sound opts { l with client := { l.client with stages := l.client.stages ++ [stage] } } := by
  obtain ⟨single, own⟩ := first_sound h first
  refine ⟨h.session.sends rfl rfl rfl rfl List.prefix_rfl,
    { h.records with numbered := h.records.numbered.request first, single := ?_, stages := ?_ },
    h.inHand.quiet rfl List.prefix_rfl rfl (fun _ _ => id) fun _ _ _ => id⟩
  · intro j other at_j
    rcases getElem?_concat_cases at_j with at_j | ⟨-, rfl⟩
    exacts [h.records.single j other at_j, single]
  · intro j other at_j
    rcases getElem?_concat_cases at_j with at_j | ⟨-, rfl⟩
    exacts [h.records.stages j other at_j, own]

theorem Sound.cancel {i : ℕ} (found : l.client.stages[i]? = some stage) (more : List ℕ) :
    Sound opts { l with client := ⟨
      { l.client.state with dropped := l.client.state.dropped ++ more },
      l.client.stages.set i (.returned .cancelled)⟩ } := by
  refine ⟨h.session.sends rfl rfl rfl rfl List.prefix_rfl,
    { h.records with
      numbered := h.records.numbered.cancel found _
      single := forall_set found h.records.single (fun _ => rfl) fun _ ok => ok
      kept := fun subId channel registered isChannel live => ?_
      stages := forall_set found h.records.stages (fun _ => trivial) fun _ ok => ok },
    h.inHand.quiet rfl List.prefix_rfl rfl (fun _ _ => id) fun _ _ _ => id⟩
  exact h.records.kept subId channel registered isChannel fun gone =>
    live (List.mem_append_left _ gone)

theorem Sound.forward : Sound opts (l.act opts (.net .forward)) := by
  have numbered := h.records.numbered.net .forward
  have still : Sound opts { l with forwarded := l.forwarded ++ [] } := by
    rw [List.append_nil]
    exact h
  rw [Link.act, Client.step]
  rw [ClientState.net] at numbered ⊢
  have sends := forwards opts l.client.state
  generalize l.client.state.forward opts = s' at numbered sends ⊢
  generalize l.client.state.passing opts = passed at sends ⊢
  cases sends with
  | waits => exact still
  | fails channel subId message reading gone =>
    obtain ⟨k, item, taken, known, frame, isChannel⟩ :=
      h.inHand.reader channel subId message reading
    refine ⟨h.session.sends rfl rfl rfl rfl List.prefix_rfl,
      (h.records.net numbered (fun _ _ known => (lookup_erase_eq_some.mp known).2)
        (fun subId' channel' known live => ?_) h.records.resolved rfl
        (List.Subset.refl _)).server rfl rfl rfl fun _ _ known => known, h.inHand.within, ?_, ?_⟩
    · refine lookup_erase_eq_some.mpr ⟨?_, known⟩
      rintro rfl
      rw [(h.records.entry subId' channel' known).2.unique isChannel] at live
      exact live gone
    · intro channel' subId' message' same
      cases same
    · intro k channel member
      have below := (h.inHand.forwarded k channel (by simpa using member)).1
      exact ⟨below, fun _ _ _ same => by cases same⟩
  | passes channel subId message reading live room =>
    obtain ⟨k, item, taken, known, frame, isChannel⟩ :=
      h.inHand.reader channel subId message reading
    refine ⟨h.session.sends rfl rfl rfl rfl List.prefix_rfl,
      (h.records.net numbered (fun _ _ known => known) (fun _ _ known _ => known)
        h.records.resolved rfl (List.Subset.refl _)).server rfl rfl rfl fun _ _ known => known,
      h.inHand.within, ?_, ?_⟩
    · intro channel' subId' message' same
      cases same
    · intro k' channel' member
      refine ⟨?_, fun _ _ _ same => by cases same⟩
      rcases List.mem_append.mp member with old | new
      · exact (h.inHand.forwarded k' channel' old).1
      · cases List.mem_singleton.mp new
        exact Nat.sub_lt (taken ▸ Nat.succ_pos k) Nat.one_pos

theorem Sound.net {event : Net M} (local_ : ∀ frame, event ≠ .read frame) :
    Sound opts (l.act opts (.net event)) := by
  by_cases forward : event = .forward
  · exact forward ▸ h.forward
  · have numbered := h.records.numbered.net event
    have sent := net_sent opts l.client.state event
    have stirred := stirred opts l.client.state event
    rw [act_net l local_ forward]
    generalize l.client.state.net opts event = s' at numbered sent stirred ⊢
    cases stirred with
    | reads frame => exact absurd rfl (local_ frame)
    | forwards => exact absurd rfl forward
    | closes | panics | declines | answers =>
      exact h.outside numbered sent rfl rfl rfl (List.Subset.refl _) fun _ _ _ same => by cases same
    | rests | writes | breaks | receives =>
      exact h.outside numbered sent rfl rfl rfl (List.Subset.refl _) fun _ _ _ same => same
    | drops =>
      exact h.outside numbered sent rfl rfl rfl (List.subset_append_left _ _)
        fun _ _ _ same => same

theorem Sound.act (event : ClientTasks.Event M) : Sound opts (l.act opts event) :=
  act_cases event h (fun _ _ first => h.request first) (fun _ _ found => h.cancel found _)
    (fun _ _ _ _ _ chosen step => h.moved chosen step) fun _ local_ => h.net local_

end

theorem take_record {conn : Connection M} :
    (conn.take frame).maps.subscriptions = conn.maps.subscriptions := by
  have took := took conn frame
  generalize conn.take frame = conn' at took ⊢
  cases took with
  | resolves => exact resolveFlush_subscriptions _ _
  | _ => rfl

theorem take_reader {conn : Connection M} {channel subId : ℕ} {message : M}
    (idle : conn.reader = .idle)
    (reading : (conn.take frame).reader = .forwarding channel subId message) :
    frame = .msg subId message ∧ conn.maps.subscriptions.lookup subId = some channel := by
  have took := took conn frame
  generalize conn.take frame = conn' at took reading
  cases took with
  | holds message entry =>
    cases reading
    exact ⟨rfl, entry⟩
  | answers => cases reading
  | _ => cases idle.symm.trans reading

section
variable (h : Sound opts l)
include h

theorem Sound.subacks {item : Enqueued M} (member : item ∈ l.enqueued) {corrId subId : ℕ}
    (known : (l.conn.take item.frame).subacks.lookup corrId = some subId) :
    Answers l corrId subId := by
  have old := h.records.resolved corrId subId
  generalize same : item.frame = frame at known
  have took := took l.conn frame
  generalize l.conn.take frame = conn' at took known
  cases took with
  | @acks corrId' tx subId' pending =>
    rcases lookup_insert_eq_some.mp known with ⟨rfl, rfl⟩ | ⟨-, known⟩
    · rw [h.records.numbered.own corrId' corrId pending]
      exact h.session.answers item member corrId' subId' same
    · exact old known
  | _ => exact old known

theorem Sound.read {item : Enqueued M} (known : l.enqueued[l.taken]? = some item)
    (reading : l.client.state.reading = true) :
    Sound opts { l with
      client := l.client.step opts (.net (.read item.frame))
      taken := l.taken + 1 } := by
  have member := List.mem_of_getElem? known
  have idle := reading_idle reading
  have numbered := h.records.numbered.net (.read item.frame)
  rw [Client.step]
  rw [ClientState.net, if_pos reading] at numbered ⊢
  have records := h.records.net numbered
    (fun subId channel known => by rwa [← take_record])
    (fun subId channel known _ => by
      change (l.conn.take item.frame).maps.subscriptions.lookup subId = some channel
      rwa [take_record])
    (fun corrId subId known => h.subacks member known) rfl (List.Subset.refl _)
  refine ⟨h.session.sends rfl rfl rfl rfl ?_, records.server rfl rfl rfl fun _ _ known => known,
    (List.getElem?_eq_some_iff.mp known).1, ?_, ?_⟩
  · change l.conn.sent <+: (l.conn.take item.frame).sent
    exact (take_sent l.conn item.frame).symm ▸ List.prefix_rfl
  · intro channel subId message passing
    obtain ⟨frame, entry⟩ := take_reader idle passing
    exact ⟨l.taken, item, rfl, known, frame, (h.records.entry subId channel entry).2⟩
  · intro k channel passed
    have below := (h.inHand.forwarded k channel passed).1
    exact ⟨Nat.lt_succ_of_lt below, fun _ _ _ _ => Nat.succ_lt_succ below⟩

theorem Sound.enqueue (room early : Bool)
    (answers : ∀ corrId subId, frame = .suback corrId subId → Answers l corrId subId)
    (messages : ∀ subId message, frame = .msg subId message →
      ∃ channel, ChannelOf l subId channel) : Sound opts (l.enqueue room frame early) := by
  rw [Link.enqueue]
  split_ifs
  · refine ⟨{ h.session with answers := ?_, messages := ?_ },
      h.records.server rfl rfl rfl fun _ _ known => known,
      h.inHand.quiet rfl (List.prefix_append _ _) rfl (fun _ _ known => known) fun _ _ _ same =>
        same⟩
    · intro item member corrId subId same
      rcases List.mem_append.mp member with old | new
      · exact h.session.answers item old corrId subId same
      · cases List.mem_singleton.mp new
        exact answers corrId subId same
    · intro item member subId message same
      rcases List.mem_append.mp member with old | new
      · exact h.session.messages item old subId message same
      · cases List.mem_singleton.mp new
        exact messages subId message same
  · exact h

theorem Sound.skip (served : ℕ) : Sound opts { l with served := served } :=
  ⟨h.session.sends rfl rfl rfl rfl List.prefix_rfl,
    h.records.server rfl rfl rfl fun _ _ known => known,
    h.inHand.quiet rfl List.prefix_rfl rfl (fun _ _ => id) fun _ _ _ => id⟩

theorem Sound.create {corrId channel : ℕ} (served : ℕ) (sent : .sub corrId channel ∈ l.conn.sent) :
    Sound opts { l with
      served := served
      nextId := l.nextId + 1
      created := l.created.insert l.nextId (corrId, channel)
      acking := some (corrId, l.nextId) } := by
  have grows : ∀ subId sub, l.created.lookup subId = some sub →
      (l.created.insert l.nextId (corrId, channel)).lookup subId = some sub := by
    intro subId sub known
    have below := h.session.below subId sub known
    rwa [lookup_insert_ite, if_neg (by omega)]
  have new : (l.created.insert l.nextId (corrId, channel)).lookup l.nextId =
      some (corrId, channel) := by rw [lookup_insert_ite, if_pos rfl]
  refine ⟨⟨fun subId sub known => ?_, fun subId corrId' channel' known => ?_,
      fun corrId' subId same => ?_, fun item member corrId' subId same => ?_,
      fun item member subId message same => ?_⟩,
    h.records.server rfl rfl rfl grows,
    h.inHand.quiet rfl List.prefix_rfl rfl grows fun _ _ _ same => same⟩
  · rcases lookup_insert_eq_some.mp known with ⟨rfl, -⟩ | ⟨-, old⟩
    · exact Nat.lt_succ_self _
    · exact (h.session.below subId sub old).trans (Nat.lt_succ_self _)
  · rcases lookup_insert_eq_some.mp known with ⟨-, same⟩ | ⟨-, old⟩
    · cases same
      exact sent
    · exact h.session.asked subId corrId' channel' old
  · cases same
    exact ⟨channel, new⟩
  · obtain ⟨channel', old⟩ := h.session.answers item member corrId' subId same
    exact ⟨channel', grows _ _ old⟩
  · obtain ⟨channel', corrId', old⟩ := h.session.messages item member subId message same
    exact ⟨channel', corrId', grows _ _ old⟩

theorem Sound.step (event : ClientLink.Event M) : Sound opts (l.step opts event) := by
  have stepped := stepped opts l event
  generalize l.step opts event = l' at stepped ⊢
  cases stepped with
  | rests => exact h
  | acts event => exact h.act event
  | creates room next =>
    refine h.create _ ?_
    rw [Link.next] at next
    split_ifs at next
    exact List.mem_of_getElem? next
  | answers accepted room => exact (h.skip _).enqueue room false (by simp) (by simp)
  | skips => exact h.skip _
  | acks room acking =>
    have done : Sound opts { l with acking := none } :=
      ⟨{ h.session with acking := by simp }, h.records.server rfl rfl rfl fun _ _ known => known,
        h.inHand.quiet rfl List.prefix_rfl rfl (fun _ _ => id) fun _ _ _ => id⟩
    refine done.enqueue room false (fun corrId' subId' same => ?_) (by simp)
    cases same
    exact h.session.acking _ _ acking
  | elsewhere =>
    exact ⟨{ h.session with below := fun subId sub known =>
        (h.session.below subId sub known).trans (Nat.lt_succ_self _) },
      h.records.server rfl rfl rfl fun _ _ known => known,
      h.inHand.quiet rfl List.prefix_rfl rfl (fun _ _ => id) fun _ _ _ => id⟩
  | delivers message known =>
    refine h.enqueue true _ (by simp) fun subId' message' same => ?_
    cases same
    exact ⟨_, _, known⟩
  | emits isPlain =>
    refine h.enqueue true false (fun corrId subId same => ?_) fun subId message same => ?_ <;>
    · subst same
      cases isPlain
  | reads known reading => exact h.read known reading

end

theorem sound_start : Sound opts (Link.start opts : Link M) := by
  refine ⟨⟨by simp [Link.start], by simp [Link.start], by simp [Link.start], by simp [Link.start],
    by simp [Link.start]⟩, ⟨numbered_start, fun i stage found => ?_, ?_, by simp [Link.start],
    by simp [Link.start], ?_, ?_, ?_, fun i stage found => ?_⟩, Nat.le_refl 0,
      ?_, by simp [Link.start]⟩
  · rw [stage_start found]
    rfl
  · simp [Link.conn, Link.start, Client.start, ClientState.start, Connection.connect]
  · simp [Link.conn, Link.start, Client.start, ClientState.start, Connection.connect, ConnState.new]
  · rintro subId channel ⟨member, -⟩
    cases member
  · simp [Link.start, Client.start, ClientState.start]
  · rw [stage_start found]
    trivial
  · intro channel subId message reading
    cases reading

end ZetMQ.SubscribeRuns
