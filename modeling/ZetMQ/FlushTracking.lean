import ZetMQ.FlushAnswers

/-! A flush that starts out behind the earlier ones stays so until the session has taken its
`PING`, whatever happens on the link. -/
namespace ZetMQ.FlushTracking
open KeyedTable ClientConnection LockedTasks ClientTasks ClientNumbers ClientLink FlushAnswers

variable {M : Type} {opts : Options} {l l' : Link M} {i corrId : ℕ}

/-- What a step keeps for a flush that makes no step itself. -/
structure Carries (l l' : Link M) (corrId : ℕ) : Prop where
  sent : l.conn.sent <+: l'.conn.sent
  served : l.served ≤ l'.served
  broken : l.conn.broken = true → l'.conn.broken = true
  unsent : Behind l corrId l.conn.sent.length → Behind l' corrId l'.conn.sent.length
  asked : ∀ k, l.conn.sent[k]? = some (.ping corrId) → Behind l corrId k →
    k < l'.served ∨ Behind l' corrId k

theorem Holds.carries {stage : Stage} (holds : Holds l corrId stage) (h : Carries l l' corrId) :
    Holds l' corrId stage := by
  cases stage with
  | sendingPing =>
    obtain ⟨same, down | behind⟩ := holds
    exacts [⟨same, .inl (h.broken down)⟩, ⟨same, .inr (h.unsent behind)⟩]
  | awaitingPong =>
    obtain ⟨same, k, known, served | behind⟩ := holds
    · exact ⟨same, k, getElem?_of_extends h.sent known, .inl (served.trans_le h.served)⟩
    · exact ⟨same, k, getElem?_of_extends h.sent known, h.asked k known behind⟩
  | returned outcome =>
    cases outcome with
    | flushed =>
      obtain ⟨same, k, known, served⟩ := holds
      exact ⟨same, k, getElem?_of_extends h.sent known, served.trans_le h.served⟩
    | _ => trivial
  | forgetting => trivial
  | _ => exact holds

theorem Behind.of_le {k k' : ℕ} (h : Behind l corrId k) (pongs : l'.conn.pongs = l.conn.pongs)
    (reader : l.conn.reader = .ended → l'.conn.reader = .ended)
    (pending : l'.conn.maps.pendingFlush = l.conn.maps.pendingFlush)
    (due : pongsDue l' + pingsAhead l' k' ≤ pongsDue l + pingsAhead l k) : Behind l' corrId k' := by
  refine ⟨by rw [pongs]; exact h.1, h.2.imp reader fun bound => ?_⟩
  rw [pending]
  omega

theorem Carries.quiet (sent : l'.conn.sent = l.conn.sent) (served : l'.served = l.served)
    (broken : l.conn.broken = true → l'.conn.broken = true)
    (pongs : l'.conn.pongs = l.conn.pongs)
    (reader : l.conn.reader = .ended → l'.conn.reader = .ended)
    (pending : l'.conn.maps.pendingFlush = l.conn.maps.pendingFlush)
    (due : pongsDue l' ≤ pongsDue l) : Carries l l' corrId := by
  have behind (k : ℕ) (h : Behind l corrId k) : Behind l' corrId k := by
    refine Behind.of_le h pongs reader pending ?_
    rw [pingsAhead, pingsAhead, sent, served]
    omega
  refine ⟨sent ▸ List.prefix_rfl, served.ge, broken, fun h => ?_, fun k _ h => .inr (behind k h)⟩
  rw [sent]
  exact behind _ h

theorem Carries.same (conn : l'.conn = l.conn) (served : l'.served = l.served)
    (due : pongsDue l' ≤ pongsDue l) : Carries l l' corrId := by
  exact .quiet (by rw [conn]) served (by rw [conn]; exact id) (by rw [conn])
    (by rw [conn]; exact id) (by rw [conn]) due

theorem pongsDue_enqueue (l : Link M) (room early : Bool) (frame : Inbound M) :
    pongsDue (l.enqueue room frame early) ≤
      pongsDue l + if isPong ⟨frame, early⟩ then 1 else 0 := by
  cases room with
  | false => exact Nat.le_add_right _ _
  | true =>
    rw [Link.enqueue, if_pos rfl, pongsDue, pongsDue, List.drop_append, List.countP_append]
    refine Nat.add_le_add_left ((List.drop_sublist _ _).countP_le.trans ?_) _
    simp [List.countP_cons]

theorem pingsAhead_serve {frame : Sent} {k : ℕ} (next : l.conn.sent[l.served]? = some frame)
    (before : l.served < k) (client : l'.client = l.client) (served : l'.served = l.served + 1) :
    pingsAhead l' k + (if isPing frame then 1 else 0) = pingsAhead l k := by
  have conn : l'.conn = l.conn := congrArg (fun c => c.state.conn) client
  have known : (l.conn.sent.take k)[l.served]? = some frame := by
    rwa [List.getElem?_take_of_lt before]
  obtain ⟨inside, same⟩ := List.getElem?_eq_some_iff.mp known
  rw [pingsAhead, pingsAhead, conn, served, List.drop_eq_getElem_cons inside, same,
    List.countP_cons]

/-- A frame that is taken adds an answer only if it was a `PING`. -/
theorem carries_serve {frame : Sent} (next : l.next = some frame) (client : l'.client = l.client)
    (served : l'.served = l.served + 1)
    (due : pongsDue l' ≤ pongsDue l + if isPing frame then 1 else 0) : Carries l l' corrId := by
  rw [Link.next] at next
  split_ifs at next with waiting
  have conn : l'.conn = l.conn := congrArg (fun c => c.state.conn) client
  have behind (k : ℕ) (before : l.served < k) (h : Behind l corrId k) : Behind l' corrId k := by
    have ahead := pingsAhead_serve next before client served
    refine Behind.of_le h (by rw [conn]) (by rw [conn]; exact id) (by rw [conn]) ?_
    omega
  refine ⟨conn ▸ List.prefix_rfl, by omega, by rw [conn]; exact id, fun h => ?_,
    fun k known h => ?_⟩
  · rw [conn]
    exact behind _ (List.getElem?_eq_some_iff.mp next).1 h
  · rcases lt_or_ge l.served k with before | after
    exacts [.inr (behind k before h), .inl (by omega)]

theorem pongsDue_take {item : Enqueued M} (known : l.enqueued[l.taken]? = some item)
    (enqueued : l'.enqueued = l.enqueued) (taken : l'.taken = l.taken + 1) :
    pongsDue l' + (if isPong item then 1 else 0) = pongsDue l := by
  obtain ⟨inside, same⟩ := List.getElem?_eq_some_iff.mp known
  rw [pongsDue, pongsDue, enqueued, taken, List.drop_eq_getElem_cons inside, same, List.countP_cons]

theorem behind_answer (h : Flow opts l) {item : Enqueued M} {k : ℕ}
    (known : l.enqueued[l.taken]? = some item) (frame : item.frame = .pong 0)
    (idle : l.conn.reader = .idle) (conn : l'.conn = l.conn.take (.pong 0))
    (enqueued : l'.enqueued = l.enqueued) (taken : l'.taken = l.taken + 1)
    (served : l'.served = l.served) (behind : Behind l corrId k) : Behind l' corrId k := by
  have due := pongsDue_take known enqueued taken
  have answer : isPong item = true := by rw [isPong, frame]
  rw [if_pos answer] at due
  obtain ⟨unanswered, ended | bound⟩ := behind
  · cases idle.symm.trans ended
  · have waiting : 0 < older l.conn.maps.pendingFlush corrId := by omega
    rcases take_answer h.own with ⟨empty, -⟩ | ⟨first, member, smallest, same⟩
    · rw [older, empty] at waiting
      cases waiting
    · obtain ⟨key, present, smaller⟩ := exists_older waiting
      have sooner : first < corrId := (smallest key present).trans_lt smaller
      have fewer := older_erase member sooner
      rw [same] at conn
      have ahead : pingsAhead l' k = pingsAhead l k := by rw [pingsAhead, pingsAhead, conn, served]
      refine ⟨?_, .inr ?_⟩ <;> rw [conn]
      · rw [List.mem_append, List.mem_singleton, not_or]
        exact ⟨unanswered, sooner.ne'⟩
      · rw [ahead]
        change _ ≤ older (l.conn.maps.pendingFlush.erase first) corrId
        omega

theorem take_quiet (conn : Connection M) {frame : Inbound M}
    (plain : ∀ corrId, frame ≠ .pong corrId) :
    (conn.take frame).pongs = conn.pongs ∧
      (conn.take frame).maps.pendingFlush = conn.maps.pendingFlush := by
  have took := took conn frame
  generalize conn.take frame = conn' at took ⊢
  cases took with
  | resolves corrId => exact absurd rfl (plain corrId)
  | _ => exact ⟨rfl, rfl⟩

theorem take_broken (conn : Connection M) (frame : Inbound M) :
    (conn.take frame).broken = conn.broken := by
  have took := took conn frame
  generalize conn.take frame = conn' at took ⊢
  cases took <;> rfl

theorem carries_read (h : Flow opts l) {item : Enqueued M}
    (known : l.enqueued[l.taken]? = some item) (reading : l.client.state.reading = true) :
    Carries l { l with
      client := l.client.step opts (.net (.read item.frame))
      taken := l.taken + 1 } corrId := by
  have idle := reading_idle reading
  rw [Client.step, ClientState.net, if_pos reading]
  have sent : (l.conn.take item.frame).sent = l.conn.sent := take_sent _ _
  by_cases plain : ∀ corrId, item.frame ≠ .pong corrId
  · obtain ⟨pongs, pending⟩ := take_quiet l.conn plain
    refine .quiet sent rfl ?_ pongs (fun ended => ?_) pending ?_
    · exact fun down => (take_broken l.conn item.frame).trans down
    · cases idle.symm.trans ended
    · exact Nat.le.intro (pongsDue_take known rfl rfl)
  · push Not at plain
    obtain ⟨corrId', frame⟩ := plain
    obtain rfl := h.unnumbered item (List.mem_of_getElem? known) corrId' frame
    have behind (k : ℕ) (ahead : Behind l corrId k) : Behind { l with
        client := { l.client with state := l.client.state.setConn (l.conn.take item.frame) }
        taken := l.taken + 1 } corrId k :=
      behind_answer h known frame idle (by rw [frame]; rfl) rfl rfl rfl ahead
    refine ⟨sent ▸ List.prefix_rfl, le_rfl, ?_, fun ahead => ?_, fun k _ ahead =>
      .inr (behind k ahead)⟩
    · exact fun down => (take_broken l.conn item.frame).trans down
    · change Behind _ corrId (l.conn.take item.frame).sent.length
      rw [sent]
      exact behind _ ahead

theorem pingsAhead_post {frame : Sent} (silent : isPing frame = false)
    (sent : l'.conn.sent = l.conn.sent ++ [frame]) (served : l'.served = l.served) {k k' : ℕ}
    (position : k' = k ∧ k ≤ l.conn.sent.length ∨
      k' = l'.conn.sent.length ∧ k = l.conn.sent.length) : pingsAhead l' k' = pingsAhead l k := by
  rw [pingsAhead, pingsAhead, served]
  rcases position with ⟨rfl, inside⟩ | ⟨rfl, rfl⟩
  · rw [sent, List.take_append_of_le_length inside]
  · rw [List.take_length, List.take_length, sent, List.drop_append, List.countP_append]
    refine Nat.add_eq_left.mpr (List.countP_eq_zero.mpr fun frame' member => ?_)
    cases List.mem_singleton.mp (List.mem_of_mem_drop member)
    simp [silent]

theorem carries_answer (l : Link M) (answering : l.conn.reader = .answering) :
    Carries l { l with client := { l.client with
      state := l.client.state.setConn { l.conn.post .pong with reader := .idle } } } corrId := by
  let l' : Link M := { l with client := { l.client with
    state := l.client.state.setConn { l.conn.post .pong with reader := .idle } } }
  have behind {k k' : ℕ} (position : k' = k ∧ k ≤ l.conn.sent.length ∨
      k' = l'.conn.sent.length ∧ k = l.conn.sent.length) (ahead : Behind l corrId k) :
      Behind l' corrId k' := by
    have same := pingsAhead_post rfl
      (show l'.conn.sent = l.conn.sent ++ [.pong] from rfl) rfl position
    exact Behind.of_le ahead rfl (fun ended => by cases answering.symm.trans ended) rfl
      (Nat.add_le_add_left same.le _)
  refine ⟨List.prefix_append _ _, le_rfl, id, behind (.inr ⟨rfl, rfl⟩), fun k known ahead => ?_⟩
  have inside := (List.getElem?_eq_some_iff.mp known).1
  exact .inr (behind (.inl ⟨rfl, inside.le⟩) ahead)

theorem carries_net (l : Link M) {event : Net M} (local_ : ∀ frame, event ≠ .read frame) :
    Carries l (l.act opts (.net event)) corrId := by
  by_cases forward : event = .forward
  · subst forward
    rw [Link.act, Client.step, ClientState.net]
    have sends := forwards opts l.client.state
    generalize l.client.state.forward opts = s' at sends ⊢
    generalize l.client.state.passing opts = passed at sends ⊢
    cases sends with
    | waits => exact .quiet rfl rfl id rfl id rfl le_rfl
    | fails channel subId message reading | passes channel subId message reading =>
      exact .quiet rfl rfl id rfl (fun ended => by cases reading.symm.trans ended) rfl le_rfl
  · rw [act_net l local_ forward]
    have stirred := stirred opts l.client.state event
    generalize l.client.state.net opts event = s' at stirred ⊢
    cases stirred with
    | reads frame => exact absurd rfl (local_ frame)
    | forwards => exact absurd rfl forward
    | declines answering =>
      exact .quiet rfl rfl id rfl (fun ended => by cases answering.symm.trans ended) rfl le_rfl
    | answers answering => exact carries_answer l answering
    | breaks =>
      refine .quiet rfl rfl (fun _ => ?_) rfl id rfl le_rfl
      exact congrArg Bool.not (Bool.and_false _)
    | closes | panics => exact .quiet rfl rfl id rfl (fun _ => rfl) rfl le_rfl
    | rests | writes | receives | drops => exact .quiet rfl rfl id rfl id rfl le_rfl

theorem aside_conn {s s' : ClientState M} {stage stage' : Stage} {choice : Choice}
    (worked : Worked opts s choice stage s' stage') (outside : stage.inside = false)
    (apart : stage.waits = false) : s'.conn = s.conn := by
  cases worked with
  | wanders | closes | takes | records => rfl
  | shuts waits =>
    rw [waits] at apart
    cases apart
  | flushes | subscribes => cases apart
  | publishes | leaves => rfl
  | _ => cases outside

section
variable {s' : ClientState M} {stage stage' : Stage} {choice : Choice}

theorem Holds.own (holds : Holds l corrId stage)
    (worked : Worked opts l.client.state choice stage s' stage') :
    Holds (l.moved i stage s' stage') corrId stage' := by
  cases stage with
  | sendingPing corrId' =>
    obtain ⟨rfl, unsent⟩ := holds
    cases worked with
    | wanders was => cases was
    | shuts waits => cases waits
    | failsPing => trivial
    | sendsPing _ up =>
      have behind := unsent.resolve_left (by rw [Link.conn, up]; simp)
      refine ⟨rfl, l.conn.sent.length, List.getElem?_concat_length, .inr ?_⟩
      refine Behind.of_le behind rfl id rfl (Nat.add_le_add_left (le_of_eq ?_) _)
      exact congrArg (fun sent => (sent.drop l.served).countP isPing)
        (List.take_append_of_le_length le_rfl)
  | awaitingPong corrId' =>
    obtain ⟨rfl, k, known, served⟩ := holds
    cases worked with
    | wanders was => cases was
    | shuts waits => cases waits
    | expires => trivial
    | flushed _ answered =>
      exact ⟨rfl, k, known, served.resolve_right fun behind => behind.1 answered⟩
  | forgetting =>
    cases worked with
    | wanders was => cases was
    | shuts waits => cases waits
    | forgets => trivial
  | returned outcome =>
    cases worked with
    | wanders was => cases was
    | shuts waits => cases waits
  | _ => exact holds.elim

theorem Holds.moved (h : Flow opts l) {own : Stage} (found : l.client.stages[i]? = some own)
    (holds : Holds l corrId own) {j : ℕ} (other : j ≠ i) (chosen : choice ≠ .accepted)
    (step : l.client.next (program opts) j choice = some (stage, s', stage')) :
    Holds (l.moved j stage s' stage') corrId own := by
  obtain ⟨at_j, lock, work⟩ := next_eq_some.mp step
  have worked := worked_of_work work
  cases inside : own.inside with
  | true =>
    -- the flush has the connection, so the other task is not at it
    have outside := h.numbered.exclusive.others found inside at_j other
    have apart : stage.waits = false := by
      by_contra waits
      have free := free_iff.mp (lock ((Bool.not_eq_false _).mp waits)) i own found
      cases inside.symm.trans free
    exact Holds.carries holds (.same (aside_conn worked outside apart) rfl le_rfl)
  | false =>
    cases own with
    | returned outcome =>
      cases outcome with
      | flushed =>
        obtain ⟨same, k, known, served⟩ := holds
        have sent := (worked_sent worked).resolve_right chosen
        exact ⟨same, k, getElem?_of_extends sent known, served⟩
      | _ => trivial
    | _ => first | exact holds.elim | cases inside

theorem Tracked.moved (h : Flow opts l) (tracked : Tracked l i corrId) {j : ℕ}
    (chosen : choice ≠ .accepted)
    (step : l.client.next (program opts) j choice = some (stage, s', stage')) :
    Tracked (l.moved j stage s' stage') i corrId := by
  obtain ⟨own, found, holds⟩ := tracked
  by_cases same : j = i
  · subst same
    obtain ⟨at_j, lock, work⟩ := next_eq_some.mp step
    cases found.symm.trans at_j
    exact ⟨stage', List.getElem?_set_self (List.getElem?_eq_some_iff.mp found).1,
      Holds.own holds (worked_of_work work)⟩
  · exact ⟨own, (List.getElem?_set_ne same).trans found, Holds.moved h found holds same chosen step⟩

end

theorem Tracked.carries (tracked : Tracked l i corrId) (stages : l'.client.stages = l.client.stages)
    (h : Carries l l' corrId) : Tracked l' i corrId := by
  obtain ⟨own, found, holds⟩ := tracked
  exact ⟨own, by rwa [stages], Holds.carries holds h⟩

theorem Tracked.act (h : Flow opts l) (tracked : Tracked l i corrId) (event : ClientTasks.Event M) :
    Tracked (l.act opts event) i corrId := by
  refine act_cases (motive := (Tracked · i corrId)) event tracked (fun r stage first => ?_)
    (fun j stage at_j => ?_) (fun _ _ _ _ _ chosen step => Tracked.moved h tracked chosen step)
    fun event local_ => Tracked.carries tracked ?_ (carries_net l local_)
  · obtain ⟨own, found, holds⟩ := tracked
    exact ⟨own, getElem?_of_extends (List.prefix_append _ _) found,
      Holds.carries holds (.same rfl rfl le_rfl)⟩
  · obtain ⟨own, found, holds⟩ := tracked
    by_cases same : j = i
    · subst same
      exact ⟨.returned .cancelled,
        List.getElem?_set_self (List.getElem?_eq_some_iff.mp found).1, trivial⟩
    · exact ⟨own, (List.getElem?_set_ne same).trans found,
        Holds.carries holds (.same rfl rfl le_rfl)⟩
  · cases event <;> rfl

theorem Tracked.enqueue (tracked : Tracked l i corrId) (l' : Link M) (client : l'.client = l.client)
    (served : l'.served = l.served) (due : pongsDue l' = pongsDue l) {frame : Inbound M}
    (plain : ∀ corrId, frame ≠ .pong corrId) (room early : Bool) :
    Tracked (l'.enqueue room frame early) i corrId := by
  have conn : (l'.enqueue room frame early).client = l.client :=
    (enqueue_client _ _ _ _).trans client
  have more := pongsDue_enqueue l' room early frame
  have silent : isPong (⟨frame, early⟩ : Enqueued M) = false := by
    cases frame with
    | pong corrId => exact absurd rfl (plain corrId)
    | _ => rfl
  rw [if_neg (by rw [silent]; simp)] at more
  refine Tracked.carries tracked (congrArg Tasks.stages conn)
    (.same (congrArg (fun c => c.state.conn) conn) ?_ (more.trans due.le))
  rw [Link.enqueue]
  split_ifs <;> exact served

theorem Tracked.step (h : Flow opts l) (tracked : Tracked l i corrId) (event : ClientLink.Event M) :
    Tracked (l.step opts event) i corrId := by
  have stepped := stepped opts l event
  generalize l.step opts event = l' at stepped ⊢
  cases stepped with
  | rests => exact tracked
  | acts event => exact Tracked.act h tracked event
  | creates room next | skips accepted room next =>
    exact Tracked.carries tracked rfl (carries_serve next rfl rfl (Nat.le_add_right _ _))
  | answers accepted room next =>
    have answered := pongsDue_enqueue { l with served := l.served + 1 } room false (.pong 0)
    have client := enqueue_client { l with served := l.served + 1 } room false (.pong 0)
    refine Tracked.carries tracked (congrArg Tasks.stages client)
      (carries_serve next client ?_ answered)
    rw [Link.enqueue]
    split_ifs <;> rfl
  | acks => exact Tracked.enqueue tracked { l with acking := none } rfl rfl rfl (by simp) _ _
  | elsewhere => exact Tracked.carries tracked rfl (.same rfl rfl le_rfl)
  | delivers => exact Tracked.enqueue tracked l rfl rfl rfl (by simp) _ _
  | emits isPlain =>
    refine Tracked.enqueue tracked l rfl rfl rfl ?_ _ _
    rintro corrId rfl
    cases isPlain
  | reads known reading => exact Tracked.carries tracked rfl (carries_read h known reading)

theorem tracked_run (h : Flow opts l) (tracked : Tracked l i corrId)
    (events : List (ClientLink.Event M)) : Tracked (l.run opts events) i corrId := by
  induction events generalizing l with
  | nil => exact tracked
  | cons event events ih => exact ih (h.step event) (Tracked.step h tracked event)

end ZetMQ.FlushTracking
