import ZetMQ.SubscribeRuns

/-! Which schedules of a link lose a message. A message is lost if the read task takes it
before its `subscribe` has entered the channel, after an `unsubscribe` has removed it or
after the `Subscription` was dropped; or if it is still in hand, or not even taken, when
the receiver is dropped or the read task ends. -/
namespace ZetMQ.SubscribeSchedules
open KeyedTable ClientConnection LockedTasks ClientTasks ClientNumbers ClientLink SubscribeRecord
open SubscribeRuns

variable {M : Type} {opts : Options} {l : Link M}

def Due (l : Link M) (k channel : ℕ) : Prop :=
  ∃ item subId message, l.enqueued[k]? = some item ∧ item.early = true ∧
    item.frame = .msg subId message ∧ ChannelOf l subId channel

def InTransit (l : Link M) (k channel : ℕ) : Prop :=
  k + 1 = l.taken ∧ channel ∉ l.client.state.dropped ∧
    ∃ subId message, l.conn.reader = .forwarding channel subId message

def NothingLost (l : Link M) : Prop :=
  ∀ k channel, Due l k channel → (k, channel) ∈ l.forwarded ∨ InTransit l k channel ∨
    l.taken ≤ k ∧ l.conn.reader ≠ .ended

/-- A message is read only while its channel is registered and its receiver is there, no
receiver is dropped with a message in hand for it, and when the read task is gone there was
no message in hand or still to be taken. -/
structure Prompt (opts : Options) (l : Link M) (event : ClientLink.Event M) : Prop where
  registered : event = .read → l.conn.reader = .idle → ∀ item subId message channel,
    l.enqueued[l.taken]? = some item → item.early = true → item.frame = .msg subId message →
    ChannelOf l subId channel → Registered l subId ∧ channel ∉ l.client.state.dropped
  received : ∀ k channel, Due l k channel → InTransit l k channel →
    channel ∉ (l.step opts event).client.state.dropped
  running : (l.step opts event).conn.reader = .ended → ∀ k channel,
    Due (l.step opts event) k channel → k < l.taken ∧ ¬ InTransit l k channel

def AlwaysPrompt (opts : Options) (l : Link M) : List (ClientLink.Event M) → Prop
  | [] => True
  | event :: events => Prompt opts l event ∧ AlwaysPrompt opts (l.step opts event) events

inductive Passage (event : ClientLink.Event M) (l l' : Link M) : Prop
  | rests (taken : l'.taken = l.taken) (forwarded : l'.forwarded = l.forwarded)
      (dropped : l.client.state.dropped ⊆ l'.client.state.dropped)
      (keeps : ∀ channel subId message, l.conn.reader = .forwarding channel subId message →
        l'.conn.reader = .forwarding channel subId message ∨ l'.conn.reader = .ended)
      (had : ∀ channel subId message, l'.conn.reader = .forwarding channel subId message →
        l.conn.reader = .forwarding channel subId message)
      (ended : l.conn.reader = .ended → l'.conn.reader = .ended)
  | fails (channel subId : ℕ) (message : M)
      (reading : l.conn.reader = .forwarding channel subId message)
      (gone : channel ∈ l.client.state.dropped) (taken : l'.taken = l.taken)
      (forwarded : l'.forwarded = l.forwarded) (idle : l'.conn.reader = .idle)
  | passes (channel subId : ℕ) (message : M)
      (reading : l.conn.reader = .forwarding channel subId message)
      (live : channel ∉ l.client.state.dropped) (taken : l'.taken = l.taken)
      (forwarded : l'.forwarded = l.forwarded ++ [(l.taken - 1, channel)])
      (dropped : l'.client.state.dropped = l.client.state.dropped) (idle : l'.conn.reader = .idle)
  | takes (item : Enqueued M) (reads : event = .read) (known : l.enqueued[l.taken]? = some item)
      (was : l.conn.reader = .idle) (taken : l'.taken = l.taken + 1)
      (forwarded : l'.forwarded = l.forwarded)
      (dropped : l'.client.state.dropped = l.client.state.dropped)
      (took : l'.conn = l.conn.take item.frame)

variable {event : ClientLink.Event M} {l' : Link M} {k channel : ℕ}

theorem Passage.same {l : Link M} (taken : l'.taken = l.taken)
    (forwarded : l'.forwarded = l.forwarded)
    (dropped : l.client.state.dropped ⊆ l'.client.state.dropped)
    (reader : l'.conn.reader = l.conn.reader) : Passage event l l' :=
  .rests taken forwarded dropped (fun _ _ _ reading => .inl (reader.trans reading))
    (fun _ _ _ reading => reader.symm.trans reading) fun ended => reader.trans ended

theorem worked_dropped {s s' : ClientState M} {stage stage' : Stage} {choice : Choice}
    (worked : Worked opts s choice stage s' stage') : s.dropped ⊆ s'.dropped := by
  have still : s.dropped ⊆ s.dropped := List.Subset.refl _
  cases worked with
  | @copies who order todo => cases todo <;> exact still
  | failsSub corrId channel purpose =>
    cases purpose with
    | fresh => exact List.subset_append_left _ _
    | replay => exact still
  | enters corrId subId channel purpose free entered =>
    subst entered
    rcases purpose with ⟨_, _, _ | _⟩ | ⟨_, _, _ | _, _⟩ <;> exact still
  | _ => exact still

theorem passage_net (opts : Options) (l : Link M) {event : Net M}
    (local_ : ∀ frame, event ≠ .read frame) :
    Passage (.client (.net event)) l (l.act opts (.net event)) := by
  by_cases forward : event = .forward
  · subst forward
    rw [Link.act, Client.step, ClientState.net]
    have sends := forwards opts l.client.state
    generalize l.client.state.forward opts = s' at sends ⊢
    generalize l.client.state.passing opts = passed at sends ⊢
    cases sends with
    | waits => exact .same rfl (List.append_nil _) (List.Subset.refl _) rfl
    | fails channel subId message reading gone =>
      exact .fails channel subId message reading gone rfl (List.append_nil _) rfl
    | passes channel subId message reading live =>
      exact .passes channel subId message reading live rfl rfl rfl rfl
  · rw [act_net l local_ forward]
    have stirred := stirred opts l.client.state event
    generalize l.client.state.net opts event = s' at stirred ⊢
    cases stirred with
    | reads frame => exact absurd rfl (local_ frame)
    | forwards => exact absurd rfl forward
    | closes | panics =>
      refine .rests rfl rfl (List.Subset.refl _) (fun _ _ _ _ => .inr rfl) ?_ fun _ => rfl
      intro channel subId message passing
      cases passing
    | declines answering | answers answering =>
      refine .rests rfl rfl (List.Subset.refl _) ?_ ?_ ?_
      · intro channel subId message reading
        cases answering.symm.trans reading
      · intro channel subId message reading
        cases reading
      · intro ended
        cases answering.symm.trans ended
    | rests | writes | breaks | receives => exact .same rfl rfl (List.Subset.refl _) rfl
    | drops => exact .same rfl rfl (List.subset_append_left _ _) rfl

theorem passage_act (l : Link M) (event : ClientTasks.Event M) :
    Passage (.client event) l (l.act opts event) := by
  refine act_cases (motive := Passage _ l) event (.same rfl rfl (List.Subset.refl _) rfl)
    (fun _ _ _ => .same rfl rfl (List.Subset.refl _) rfl)
    (fun _ _ _ => .same rfl rfl (List.subset_append_left _ _) rfl)
    (fun i choice stage s' stage' chosen step => ?_) fun event local_ => ?_
  · have worked := worked_of_work (next_eq_some.mp step).2.2
    rcases worked_reader worked with same | ended | accepted
    · exact .same rfl rfl (worked_dropped worked) same
    · refine .rests rfl rfl (worked_dropped worked) (fun _ _ _ _ => .inr ended) ?_ fun _ => ended
      intro channel subId message reading
      cases ended.symm.trans reading
    · exact absurd accepted chosen
  · cases passage_net opts l local_ with
    | rests taken forwarded dropped keeps had ended =>
      exact .rests taken forwarded dropped keeps had ended
    | fails channel subId message reading gone taken forwarded idle =>
      exact .fails channel subId message reading gone taken forwarded idle
    | passes channel subId message reading live taken forwarded dropped idle =>
      exact .passes channel subId message reading live taken forwarded dropped idle
    | takes item reads => cases reads

theorem passage_enqueue {l : Link M} (taken : l'.taken = l.taken)
    (forwarded : l'.forwarded = l.forwarded) (client : l'.client = l.client) (room early : Bool)
    (frame : Inbound M) : Passage event l (l'.enqueue room frame early) := by
  have same := (enqueue_client l' room early frame).trans client
  refine .same ?_ ?_ (same ▸ List.Subset.refl _) (congrArg (fun c => c.state.conn.reader) same)
  all_goals
    rw [Link.enqueue]
    split_ifs
    all_goals assumption

theorem passage_step (opts : Options) (l : Link M) (event : ClientLink.Event M) :
    Passage event l (l.step opts event) := by
  have stepped := stepped opts l event
  generalize l.step opts event = l' at stepped ⊢
  cases stepped with
  | acts event => exact passage_act l event
  | rests | creates | skips | elsewhere => exact .same rfl rfl (List.Subset.refl _) rfl
  | answers | acks | delivers | emits => exact passage_enqueue (by rfl) (by rfl) (by rfl) _ _ _
  | reads known reading =>
    refine .takes _ rfl known (reading_idle reading) rfl rfl ?_ ?_ <;>
      rw [Client.step, ClientState.net, if_pos reading]
    exacts [rfl, rfl]

structure Grows (l l' : Link M) : Prop where
  enqueued : l.enqueued <+: l'.enqueued
  created : ∀ subId sub, l.created.lookup subId = some sub → l'.created.lookup subId = some sub

theorem Grows.same {l : Link M} (enqueued : l'.enqueued = l.enqueued)
    (created : l'.created = l.created) : Grows l l' :=
  ⟨enqueued ▸ List.prefix_rfl, fun _ _ known => by rwa [created]⟩

theorem grows_enqueue {l : Link M} (grows : Grows l l') (room early : Bool) (frame : Inbound M) :
    Grows l (l'.enqueue room frame early) := by
  rw [Link.enqueue]
  split_ifs
  exacts [⟨grows.enqueued.trans (List.prefix_append _ _), grows.created⟩, grows]

theorem grows_act (l : Link M) (event : ClientTasks.Event M) : Grows l (l.act opts event) :=
  act_cases (motive := Grows l) event (.same rfl rfl) (fun _ _ _ => .same rfl rfl)
    (fun _ _ _ => .same rfl rfl) (fun _ _ _ _ _ _ _ => .same rfl rfl)
    fun event _ => by cases event <;> exact .same rfl rfl

theorem grows_step (h : Session l) (opts : Options) (event : ClientLink.Event M) :
    Grows l (l.step opts event) := by
  have stepped := stepped opts l event
  generalize l.step opts event = l' at stepped ⊢
  cases stepped with
  | acts event => exact grows_act l event
  | rests | skips | elsewhere | reads => exact .same rfl rfl
  | creates room next =>
    refine ⟨List.prefix_rfl, fun subId sub known => ?_⟩
    have below := h.below subId sub known
    rwa [lookup_insert_ite, if_neg (by omega)]
  | answers | acks | delivers | emits => exact grows_enqueue (.same (by rfl) (by rfl)) _ _ _

theorem Due.grows {l : Link M} (due : Due l k channel) (grows : Grows l l') : Due l' k channel := by
  obtain ⟨item, subId, message, known, early, frame, corrId, created⟩ := due
  exact ⟨item, subId, message, getElem?_of_extends grows.enqueued known, early, frame, corrId,
    grows.created _ _ created⟩

theorem Due.before {l : Link M} (due : Due l' k channel) (h : Session l) (grows : Grows l l')
    (old : k < l.enqueued.length) : Due l k channel := by
  obtain ⟨item, subId, message, known, early, frame, isChannel⟩ := due
  have before : l.enqueued[k]? = some item := by
    rw [List.getElem?_eq_getElem old]
    rw [← known]
    exact (getElem?_of_extends grows.enqueued (List.getElem?_eq_getElem old)).symm
  obtain ⟨channel', corrId, created⟩ :=
    h.messages item (List.mem_of_getElem? before) subId message frame
  have same := isChannel.unique ⟨corrId, grows.created _ _ created⟩
  exact ⟨item, subId, message, before, early, frame, same ▸ ⟨corrId, created⟩⟩

structure Lost (l : Link M) (k channel : ℕ) : Prop where
  due : Due l k channel
  unsent : (k, channel) ∉ l.forwarded
  stuck : ¬ InTransit l k channel
  passed : l.taken ≤ k → l.conn.reader = .ended

theorem Lost.not_nothingLost (lost : Lost l k channel) : ¬ NothingLost l := by
  intro whole
  rcases whole k channel lost.due with sent | transit | ⟨untaken, running⟩
  exacts [lost.unsent sent, lost.stuck transit, running (lost.passed untaken)]

theorem Lost.step (lost : Lost l k channel) (h : Sound opts l) (event : ClientLink.Event M) :
    Lost (l.step opts event) k channel := by
  have due := lost.due.grows (grows_step h.session opts event)
  have passage := passage_step opts l event
  generalize l.step opts event = l' at due passage ⊢
  cases passage with
  | rests taken forwarded dropped keeps had ended =>
    refine ⟨due, by rw [forwarded]; exact lost.unsent, ?_, fun untaken => ?_⟩
    · rintro ⟨here, live, subId, message, reading⟩
      exact lost.stuck ⟨here.trans taken, fun gone => live (dropped gone), subId, message,
        had _ _ _ reading⟩
    · exact ended (lost.passed (taken ▸ untaken))
  | fails channel' subId message reading gone taken forwarded idle =>
    refine ⟨due, by rw [forwarded]; exact lost.unsent, ?_, fun untaken => ?_⟩
    · rintro ⟨-, -, subId', message', passing⟩
      cases idle.symm.trans passing
    · cases reading.symm.trans (lost.passed (taken ▸ untaken))
  | passes channel' subId message reading live taken forwarded dropped idle =>
    obtain ⟨k', item, takenOne, -⟩ := h.inHand.reader channel' subId message reading
    refine ⟨due, ?_, ?_, fun untaken => ?_⟩
    · rw [forwarded, List.mem_append, List.mem_singleton]
      rintro (sent | same)
      · exact lost.unsent sent
      · cases same
        exact lost.stuck ⟨by omega, live, subId, message, reading⟩
    · rintro ⟨-, -, subId', message', passing⟩
      cases idle.symm.trans passing
    · cases reading.symm.trans (lost.passed (taken ▸ untaken))
  | takes item reads known was taken forwarded dropped took =>
    have below : k < l.taken := by
      by_contra untaken
      cases was.symm.trans (lost.passed (Nat.le_of_not_lt untaken))
    refine ⟨due, by rw [forwarded]; exact lost.unsent, ?_, fun untaken => ?_⟩
    · rintro ⟨here, -⟩
      omega
    · omega

theorem NothingLost.taken (whole : NothingLost l) (due : Due l k channel) (below : k < l.taken) :
    (k, channel) ∈ l.forwarded ∨ InTransit l k channel :=
  (whole k channel due).imp_right fun rest => rest.resolve_right fun untaken =>
    absurd untaken.1 (Nat.not_le_of_lt below)

theorem nothingLost_step (whole : NothingLost l) (h : Sound opts l) (prompt : Prompt opts l event) :
    NothingLost (l.step opts event) := by
  intro k channel after
  have before := after.before h.session (grows_step h.session opts event)
  cases passage_step opts l event with
  | rests taken forwarded dropped keeps had ended =>
    rw [forwarded, taken]
    rcases lt_or_ge k l.taken with below | untaken
    · have due := before (below.trans_le h.inHand.within)
      rcases whole.taken due below with sent | transit
      · exact .inl sent
      · have running : (l.step opts event).conn.reader ≠ .ended := fun ended =>
          (prompt.running ended k channel after).2 transit
        have received := prompt.received k channel due transit
        obtain ⟨here, live, subId, message, reading⟩ := transit
        refine .inr (.inl ⟨here.trans taken.symm, received, subId, message, ?_⟩)
        exact (keeps _ _ _ reading).resolve_right running
    · refine .inr (.inr ⟨untaken, fun ended => ?_⟩)
      have below := (prompt.running ended k channel after).1
      omega
  | fails channel' subId message reading gone taken forwarded idle =>
    rw [forwarded, taken]
    rcases lt_or_ge k l.taken with below | untaken
    · rcases whole.taken (before (below.trans_le h.inHand.within)) below with sent | transit
      · exact .inl sent
      · obtain ⟨-, live, subId', message', reading'⟩ := transit
        cases reading.symm.trans reading'
        exact absurd gone live
    · exact .inr (.inr ⟨untaken, fun ended => by cases idle.symm.trans ended⟩)
  | passes channel' subId message reading live taken forwarded dropped idle =>
    rw [forwarded, taken]
    rcases lt_or_ge k l.taken with below | untaken
    · rcases whole.taken (before (below.trans_le h.inHand.within)) below with sent | transit
      · exact .inl (List.mem_append_left _ sent)
      · obtain ⟨here, -, subId', message', reading'⟩ := transit
        cases reading.symm.trans reading'
        obtain rfl : k = l.taken - 1 := by omega
        exact .inl (List.mem_append_right _ (List.mem_singleton_self _))
    · exact .inr (.inr ⟨untaken, fun ended => by cases idle.symm.trans ended⟩)
  | takes item reads known was taken forwarded dropped took =>
    rw [forwarded, taken]
    rcases Nat.lt_trichotomy k l.taken with below | rfl | untaken
    · rcases whole.taken (before (below.trans_le h.inHand.within)) below with sent | transit
      · exact .inl sent
      · obtain ⟨-, -, subId, message, reading⟩ := transit
        cases was.symm.trans reading
    · obtain ⟨item', subId, message, known', early, frame, isChannel⟩ :=
        before (List.getElem?_eq_some_iff.mp known).1
      cases known.symm.trans known'
      obtain ⟨registered, live⟩ :=
        prompt.registered reads was item subId message channel known early frame isChannel
      have entry := h.records.kept subId channel registered isChannel live
      refine .inr (.inl ⟨taken.symm, by rwa [dropped], subId, message, ?_⟩)
      rw [took, frame, Connection.take, entry]
    · refine .inr (.inr ⟨untaken, ?_⟩)
      rw [took]
      exact take_running was

theorem read_taken (opts : Options) {item : Enqueued M} (known : l.enqueued[l.taken]? = some item)
    (idle : l.conn.reader = .idle) : (l.step opts .read).taken = l.taken + 1 := by
  have reading : l.client.state.reading = true := by
    rw [ClientState.reading, show l.client.state.conn.reader = .idle from idle]
  rw [Link.step, Link.read, known]
  simp only [reading, if_true]

theorem lost_of_unregistered (h : Sound opts l) {item : Enqueued M} {subId : ℕ} {message : M}
    (known : l.enqueued[l.taken]? = some item) (early : item.early = true)
    (frame : item.frame = .msg subId message) (isChannel : ChannelOf l subId channel)
    (idle : l.conn.reader = .idle)
    (missing : ¬ (Registered l subId ∧ channel ∉ l.client.state.dropped)) :
    Lost (l.step opts .read) l.taken channel := by
  have due : Due l l.taken channel := ⟨item, subId, message, known, early, frame, isChannel⟩
  have after := due.grows (grows_step h.session opts .read)
  have advanced := read_taken opts known idle
  cases passage_step opts l .read with
  | rests taken => omega
  | fails channel' subId' message' reading => cases idle.symm.trans reading
  | passes channel' subId' message' reading => cases idle.symm.trans reading
  | takes item' reads known' was taken forwarded dropped took =>
    cases known.symm.trans known'
    refine ⟨after, ?_, ?_, by omega⟩
    · rw [forwarded]
      intro sent
      exact absurd (h.inHand.forwarded _ _ sent).1 (lt_irrefl _)
    · rintro ⟨-, live, subId', message', reading⟩
      rw [took] at reading
      obtain ⟨same, entry⟩ := take_reader idle reading
      cases frame.symm.trans same
      exact missing ⟨(h.records.entry subId channel entry).1, by rwa [← dropped]⟩

theorem lost_of_dropped (h : Sound opts l) (due : Due l k channel) (transit : InTransit l k channel)
    (gone : channel ∈ (l.step opts event).client.state.dropped) :
    Lost (l.step opts event) k channel := by
  have after := due.grows (grows_step h.session opts event)
  obtain ⟨here, live, subId, message, reading⟩ := transit
  have unsent : (k, channel) ∉ l.forwarded := fun sent => by
    have passed := (h.inHand.forwarded k channel sent).2 channel subId message reading
    omega
  have stuck : ¬ InTransit (l.step opts event) k channel := fun transit => transit.2.1 gone
  cases passage_step opts l event with
  | rests taken forwarded => exact ⟨after, by rwa [forwarded], stuck, by omega⟩
  | fails channel' subId' message' reading' gone' =>
    cases reading.symm.trans reading'
    exact absurd gone' live
  | passes channel' subId' message' reading' live' taken forwarded dropped =>
    rw [dropped] at gone
    exact absurd gone live
  | takes item reads known was => cases was.symm.trans reading

theorem lost_of_ended (h : Sound opts l) (after : Due (l.step opts event) k channel)
    (ended : (l.step opts event).conn.reader = .ended)
    (open_ : k < l.taken → InTransit l k channel) : Lost (l.step opts event) k channel := by
  have stuck : ¬ InTransit (l.step opts event) k channel := by
    rintro ⟨-, -, subId, message, reading⟩
    cases ended.symm.trans reading
  have unsent : (k, channel) ∉ l.forwarded := fun sent => by
    obtain ⟨below, passed⟩ := h.inHand.forwarded k channel sent
    obtain ⟨here, -, subId, message, reading⟩ := open_ below
    have := passed channel subId message reading
    omega
  cases passage_step opts l event with
  | rests taken forwarded => exact ⟨after, by rwa [forwarded], stuck, fun _ => ended⟩
  | fails channel' subId' message' reading gone taken forwarded idle =>
    cases idle.symm.trans ended
  | passes channel' subId' message' reading live taken forwarded dropped idle =>
    cases idle.symm.trans ended
  | takes item reads known was taken forwarded dropped took =>
    rw [took] at ended
    exact absurd ended (take_running was)

theorem lost_of_late (h : Sound opts l) (late : ¬ Prompt opts l event) :
    ∃ k channel, Lost (l.step opts event) k channel := by
  by_contra whole
  refine late ⟨fun reads was item subId message channel known early frame isChannel => ?_,
    fun k channel due transit gone => ?_, fun ended k channel due => ?_⟩
  · by_contra missing
    subst reads
    exact whole ⟨_, _, lost_of_unregistered h known early frame isChannel was missing⟩
  · exact whole ⟨k, channel, lost_of_dropped h due transit gone⟩
  · by_contra spared
    refine whole ⟨k, channel, lost_of_ended h due ended fun below => ?_⟩
    by_contra passed
    exact spared ⟨below, passed⟩

theorem lost_run (events : List (ClientLink.Event M)) (lost : Lost l k channel) (h : Sound opts l) :
    Lost (l.run opts events) k channel := by
  induction events generalizing l with
  | nil => exact lost
  | cons event events ih => exact ih (lost.step h event) (h.step event)

theorem nothingLost_run_iff (events : List (ClientLink.Event M)) (whole : NothingLost l)
    (h : Sound opts l) : NothingLost (l.run opts events) ↔ AlwaysPrompt opts l events := by
  induction events generalizing l with
  | nil => exact ⟨fun _ => trivial, fun _ => whole⟩
  | cons event events ih =>
    rw [AlwaysPrompt, Link.run, List.foldl_cons, ← Link.run]
    by_cases prompt : Prompt opts l event
    · rw [ih (nothingLost_step whole h prompt) (h.step event)]
      exact ⟨fun rest => ⟨prompt, rest⟩, And.right⟩
    · obtain ⟨k, channel, lost⟩ := lost_of_late h prompt
      have gone := (lost_run events lost (h.step event)).not_nothingLost
      exact ⟨fun kept => absurd kept gone, fun both => absurd both.1 prompt⟩

private def going : ClientLink.Event ℕ := .client (.advance 0 .go)

private def asked : List (ClientLink.Event ℕ) :=
  [.client (.request (.call (.subscribe [] none false))), going, going, going,
    .client (.net .write), .serve true true]

private def overtaken : List (ClientLink.Event ℕ) :=
  asked ++ [.deliver 1 7, .ack true, .read, .read, going, going]

private def readTogether : List (ClientLink.Event ℕ) :=
  asked ++ [.ack true, .deliver 1 7, .read, .read, going, going]

private def droppedInHand : List (ClientLink.Event ℕ) :=
  asked ++ [.ack true, .read, going, going, .deliver 1 7, .deliver 1 8, .read,
    .client (.net .forward), .read, .client (.net (.drop 0))]

end ZetMQ.SubscribeSchedules
