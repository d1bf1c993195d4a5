import ZetMQ.ClientNumbers

/-! Calls of a client that cannot go on with the connection locked. While one is there no
other task gets past the lock: not the calls, not `close`, not the loop that reconnects. A
`subscribe` without an answer is such a call; and so is every call that needs the maps, or an
answer, while the read task waits for room in the channel of a subscription. Only that the
call is dropped, or what it waits for, ends it. -/
namespace ZetMQ.ClientStalls
open KeyedTable ClientConnection LockedTasks ClientTasks ClientNumbers

variable {M : Type} {opts : Options} {c : Client M} {i : ℕ}

theorem numbered_step (h : Numbered opts c) (event : Event M) :
    Numbered opts (c.step opts event) := by
  cases event with
  | request r =>
    rw [Client.step, Client.request]
    cases first : c.first opts r with
    | none => exact h
    | some stage =>
      dsimp only
      split_ifs
      exacts [h, h.request first]
  | advance j choice =>
    rw [Client.step, Tasks.advance]
    cases step : c.next (program opts) j choice with
    | none => exact h
    | some moved => exact h.moved step
  | cancel j =>
    rw [Client.step, Client.cancel]
    cases found : c.stages[j]? with
    | none => exact h
    | some stage =>
      dsimp only
      split_ifs
      exacts [h, h.cancel found _]
  | net event => exact h.net event

theorem numbered_run (events : List (Event M)) :
    Numbered opts ((Client.start opts : Client M).run opts events) :=
  List.foldlRecOn events _ numbered_start fun _ h event _ => numbered_step h event

theorem worked_outside {s s' : ClientState M} {stage stage' : Stage} {choice : Choice}
    (worked : Worked opts s choice stage s' stage') (waits : stage.waits = false)
    (outside : stage.inside = false) :
    s'.conn = s.conn ∧ s'.queues = s.queues ∧ s'.dropped = s.dropped := by
  cases worked with
  | wanders | closes | takes | records => exact ⟨rfl, rfl, rfl⟩
  | shuts waiting =>
    rw [waits] at waiting
    cases waiting
  | publishes | subscribes | flushes | leaves => cases waits
  | _ => cases outside

theorem waits_outside {stage : Stage} (waits : stage.waits = true) : stage.inside = false := by
  cases stage <;> first | rfl | cases waits

theorem unclaimed_outside {stage : Stage} (outside : stage.inside = false) :
    stage.unclaimed = none := by
  cases stage <;> first | rfl | cases outside

/-- A condition of a task with the lock that it does not get out of, as long as only
`allowed` events happen beside the calls. -/
structure Trap (opts : Options) (allowed : Net M → Prop)
    (Stuck : ClientState M → Stage → Prop) : Prop where
  inside : ∀ {s stage}, Stuck s stage → stage.inside = true
  own : ∀ {s stage choice s' stage'}, Stuck s stage →
    work opts s stage choice = some (s', stage') → Stuck s' stage'
  others : ∀ {s s' : ClientState M} {stage}, Stuck s stage → s'.conn = s.conn →
    s'.queues = s.queues → s'.dropped = s.dropped → Stuck s' stage
  net : ∀ {s stage event}, Stuck s stage → allowed event → Stuck (s.net opts event) stage

/-- The event neither drops call `i` nor is one that would help it. -/
def Unhelpful (i : ℕ) (allowed : Net M → Prop) : Event M → Prop
  | .cancel j => j ≠ i
  | .net event => allowed event
  | _ => True

structure Held (Stuck : ClientState M → Stage → Prop) (i : ℕ) (before c : Client M) : Prop where
  stuck : ∃ stage, c.stages[i]? = some stage ∧ Stuck c.state stage
  waiting : ∀ (j : ℕ) (stage : Stage), before.stages[j]? = some stage → stage.waits = true →
    c.stages[j]? = some stage ∨ c.stages[j]? = some (.returned .cancelled)

variable {allowed : Net M → Prop} {Stuck : ClientState M → Stage → Prop} {before : Client M}

section
variable (h : Held Stuck i before c) (trap : Trap opts allowed Stuck)
  (exclusive : Exclusive (program (M := M) opts) c.stages)
include h trap exclusive

theorem Held.advance (j : ℕ) (choice : Choice) :
    Held Stuck i before (c.advance (program opts) j choice) := by
  obtain ⟨stage, found, stuck⟩ := h.stuck
  have inside := trap.inside stuck
  refine advance_cases (p := program opts) h fun other state other' at_j lock work => ?_
  rcases eq_or_ne j i with rfl | ne
  · obtain rfl := Option.some.inj (found.symm.trans at_j)
    refine ⟨⟨other', List.getElem?_set_self (List.getElem?_eq_some_iff.mp found).1,
      trap.own stuck work⟩, fun k waiting was waits => ?_⟩
    rcases eq_or_ne k j with rfl | different
    · rcases h.waiting k waiting was waits with same | dropped
      · cases Option.some.inj (found.symm.trans same)
        cases inside.symm.trans (waits_outside waits)
      · cases Option.some.inj (found.symm.trans dropped)
        cases inside
    · rw [List.getElem?_set_ne different.symm]
      exact h.waiting k waiting was waits
  · have outside : other.inside = false := exclusive.others found inside at_j ne
    have moving : other.waits = false := by
      by_contra waits
      have free := free_iff.mp (lock (by simpa [program] using waits)) i stage found
      cases inside.symm.trans free
    obtain ⟨conn, queues, dropped⟩ := worked_outside (worked_of_work work) moving outside
    refine ⟨⟨stage, (List.getElem?_set_ne ne).trans found, trap.others stuck conn queues dropped⟩,
      fun k waiting was waits => ?_⟩
    rcases eq_or_ne k j with rfl | different
    · -- a task that moved neither waits for the lock nor was dropped
      rcases h.waiting k waiting was waits with same | gone
      · cases Option.some.inj (at_j.symm.trans same)
        cases moving.symm.trans waits
      · cases Option.some.inj (at_j.symm.trans gone)
        cases choice <;> cases work
    · rw [List.getElem?_set_ne different.symm]
      exact h.waiting k waiting was waits

theorem Held.cancel {j : ℕ} (other : j ≠ i) : Held Stuck i before (c.cancel opts j) := by
  obtain ⟨stage, found, stuck⟩ := h.stuck
  rw [Client.cancel]
  cases at_j : c.stages[j]? with
  | none => exact h
  | some dropped =>
    dsimp only
    split_ifs
    · exact h
    · have outside : dropped.inside = false :=
        exclusive.others found (trap.inside stuck) at_j other
      refine ⟨⟨stage, (List.getElem?_set_ne other).trans found, trap.others stuck rfl rfl ?_⟩,
        fun k waiting was waits => ?_⟩
      · rw [unclaimed_outside outside]
        exact List.append_nil _
      · rcases eq_or_ne k j with rfl | different
        · exact .inr (List.getElem?_set_self (List.getElem?_eq_some_iff.mp at_j).1)
        · rw [List.getElem?_set_ne different.symm]
          exact h.waiting k waiting was waits

theorem Held.step {event : Event M} (unhelpful : Unhelpful i allowed event) :
    Held Stuck i before (c.step opts event) := by
  cases event with
  | request r =>
    rw [Client.step, Client.request]
    cases c.first opts r with
    | none => exact h
    | some first =>
      dsimp only
      split_ifs
      · exact h
      · obtain ⟨stage, found, stuck⟩ := h.stuck
        have kept {k : ℕ} {old : Stage} (there : c.stages[k]? = some old) :
            (c.stages ++ [first])[k]? = some old :=
          (List.getElem?_append_left (List.getElem?_eq_some_iff.mp there).1).trans there
        exact ⟨⟨stage, kept found, stuck⟩, fun j waiting was waits =>
          (h.waiting j waiting was waits).imp kept kept⟩
  | advance j choice => exact h.advance trap exclusive j choice
  | cancel j => exact h.cancel trap exclusive unhelpful
  | net event =>
    obtain ⟨stage, found, stuck⟩ := h.stuck
    exact ⟨⟨stage, found, trap.net stuck unhelpful⟩, h.waiting⟩

end

theorem Trap.run (trap : Trap opts allowed Stuck) (events later : List (Event M))
    {stage : Stage}
    (found : ((Client.start opts).run opts events).stages[i]? = some stage)
    (stuck : Stuck ((Client.start opts).run opts events).state stage)
    (unhelpful : ∀ event ∈ later, Unhelpful i allowed event) :
    let before := (Client.start opts : Client M).run opts events
    let c := before.run opts later
    Held Stuck i before c ∧
      ∀ (j : ℕ) (other : Stage), j ≠ i → c.stages[j]? = some other → other.inside = false := by
  intro before c
  have start : Held Stuck i before before := ⟨⟨stage, found, stuck⟩, fun _ _ was _ => .inl was⟩
  obtain ⟨held, numbered⟩ := List.foldlRecOn later _
    (motive := fun c : Client M => Held Stuck i before c ∧ Numbered opts c)
    ⟨start, numbered_run events⟩ fun _ h event member =>
      ⟨h.1.step trap h.2.exclusive (unhelpful event member), numbered_step h.2 event⟩
  obtain ⟨stage', found', stuck'⟩ := held.stuck
  exact ⟨held, fun j other ne at_j =>
    numbered.exclusive.others found' (trap.inside stuck') at_j ne⟩

def Unanswered (corrId channel : ℕ) (purpose : Purpose) (s : ClientState M) (stage : Stage) :
    Prop :=
  stage = .awaitingSuback corrId channel purpose ∧ s.conn.subacks.lookup corrId = none ∧
    ∀ k tx, s.conn.maps.pendingSubs.lookup k = some tx → tx = k

theorem net_subacks {s : ClientState M} {corrId : ℕ} {event : Net M}
    (own : ∀ k tx, s.conn.maps.pendingSubs.lookup k = some tx → tx = k)
    (unresolved : s.conn.subacks.lookup corrId = none)
    (other : ∀ subId, event ≠ .read (.suback corrId subId)) :
    (s.net opts event).conn.subacks.lookup corrId = none := by
  have stirred := stirred opts s event
  generalize s.net opts event = s' at stirred ⊢
  cases stirred with
  | reads frame =>
    have took := took s.conn frame
    change (s.conn.take frame).subacks.lookup corrId = _
    generalize s.conn.take frame = conn' at took ⊢
    cases took with
    | @acks k tx subId pending =>
      obtain rfl := own k tx pending
      refine (AList.lookup_insert_ne ?_).trans unresolved
      rintro rfl
      exact other subId rfl
    | _ => exact unresolved
  | forwards sends => cases sends <;> exact unresolved
  | _ => exact unresolved

theorem trap_unanswered (opts : Options) (corrId channel : ℕ) (purpose : Purpose) :
    Trap opts (fun event : Net M => ∀ subId, event ≠ .read (.suback corrId subId))
      (Unanswered corrId channel purpose) where
  inside := by
    rintro s stage ⟨rfl, -⟩
    rfl
  own := by
    rintro s stage choice s' stage' ⟨rfl, none, -⟩ step
    cases worked_of_work step with
    | wanders was => cases was
    | shuts waits => cases waits
    | acked _ subId _ _ found => cases none.symm.trans found
  others := by
    rintro s s' stage ⟨rfl, none, own⟩ conn - -
    rw [Unanswered, conn]
    exact ⟨rfl, none, own⟩
  net := by
    rintro s stage event ⟨rfl, none, own⟩ other
    refine ⟨rfl, net_subacks own none other, fun k tx found => ?_⟩
    exact ((continues_net s event).pending k tx found).elim (own k tx) id

/-- A `subscribe` whose `SUBACK` does not come keeps the connection locked until it is
dropped: whatever else happens, every other task stays outside, and those that wait for the
connection go on waiting. -/
theorem unanswered_subscribe_keeps_the_lock (opts : Options) (events later : List (Event M))
    (i corrId channel : ℕ) (purpose : Purpose)
    (found : ((Client.start opts).run opts events).stages[i]? =
      some (.awaitingSuback corrId channel purpose))
    (unanswered : ((Client.start opts).run opts events).state.conn.subacks.lookup corrId = none)
    (kept : ∀ event ∈ later, Unhelpful i
      (fun event => ∀ subId, event ≠ .read (.suback corrId subId)) event) :
    let before := (Client.start opts : Client M).run opts events
    let c := before.run opts later
    c.stages[i]? = some (.awaitingSuback corrId channel purpose) ∧
      (∀ (j : ℕ) (other : Stage), j ≠ i → c.stages[j]? = some other → other.inside = false) ∧
      ∀ (j : ℕ) (stage : Stage), before.stages[j]? = some stage → stage.waits = true →
        c.stages[j]? = some stage ∨ c.stages[j]? = some (.returned .cancelled) := by
  intro before c
  obtain ⟨⟨⟨stage, there, rfl, -⟩, waiting⟩, others⟩ :=
    (trap_unanswered opts corrId channel purpose).run events later found
      ⟨rfl, unanswered, (numbered_run events).own⟩ kept
  exact ⟨there, others, waiting⟩

private def go (i times : ℕ) : List (Event Unit) := List.replicate times (.advance i .go)

private def refusedSub : List (Event Unit) :=
  [.request (.call (.subscribe ['a'] none true))] ++ go 0 3 ++ [.request (.call .publish)]

private def afterRefusal : List (Event Unit) :=
  [.net (.read .other)] ++ go 0 1 ++ go 1 1 ++ [.net .endOfStream] ++ go 0 1 ++ go 1 1

theorem refused_subscribe_stops_publish :
    ((Client.start .small).run .small (refusedSub ++ afterRefusal)).stages[1]? =
      some (.locking .publish) := by
  obtain ⟨-, -, waiting⟩ := unanswered_subscribe_keeps_the_lock .small refusedSub afterRefusal 0 1 0
    (.fresh ['a'] none true) (by decide) (by decide)
    (by simp [afterRefusal, go, Unhelpful])
  rw [Client.run, List.foldl_append]
  refine (waiting 1 (.locking .publish) (by decide) rfl).resolve_right ?_
  decide

section
variable (channel subId : ℕ) (message : M)

def Needs (s : ClientState M) : Stage → Prop
  | .registering _ _ _ | .entering _ _ _ _ | .joining _ | .forgetting _ | .removing _ _ => True
  | .awaitingSuback corrId _ _ => s.conn.subacks.lookup corrId = none
  | .awaitingPong corrId => corrId ∉ s.conn.pongs
  | _ => False

structure Jammed (opts : Options) (s : ClientState M) (stage : Stage) : Prop where
  reader : s.conn.reader = .forwarding channel subId message
  live : channel ∉ s.dropped
  full : (s.queues channel).length = opts.subBuffer
  needs : Needs s stage

variable {channel subId message} {s s' : ClientState M} {stage stage' : Stage}

theorem Needs.inside (needs : Needs s stage) : stage.inside = true := by
  cases stage <;> first | rfl | cases needs

theorem Needs.of_conn (needs : Needs s stage) (subacks : s'.conn.subacks = s.conn.subacks)
    (pongs : s'.conn.pongs = s.conn.pongs) : Needs s' stage := by
  cases stage with
  | awaitingSuback corrId => exact (congrArg _ subacks).trans needs
  | awaitingPong corrId =>
    change corrId ∉ s'.conn.pongs
    rw [pongs]
    exact needs
  | _ => exact needs

theorem Jammed.own (h : Jammed channel subId message opts s stage) {choice : Choice}
    (step : work opts s stage choice = some (s', stage')) :
    Jammed channel subId message opts s' stage' := by
  have locked : s.conn.mapsFree = false := by rw [Connection.mapsFree, h.reader]
  have needs := h.needs
  cases worked_of_work step with
  | wanders was => cases stage <;> first | exact False.elim needs | cases was
  | shuts waits => cases stage <;> first | exact False.elim needs | cases waits
  | registers _ _ _ free | enters _ _ _ _ free | joins _ free | forgets _ free
  | removes _ _ free => cases locked.symm.trans free
  | acked _ _ _ _ found => cases Eq.symm needs |>.trans found
  | flushed corrId member => exact absurd member needs
  | expires corrId => exact ⟨h.reader, h.live, h.full, trivial⟩
  | _ => cases needs

theorem Jammed.net (h : Jammed channel subId message opts s stage) {event : Net M}
    (spared : event ≠ .receive channel ∧ event ≠ .drop channel) :
    Jammed channel subId message opts (s.net opts event) stage := by
  have busy {reader : Reader M} (other : s.conn.reader = reader)
      (apart : reader ≠ .forwarding channel subId message) : False :=
    apart (other.symm.trans h.reader)
  have stirred := stirred opts s event
  generalize s.net opts event = s' at stirred ⊢
  cases stirred with
  | rests => exact h
  | reads _ idle | closes idle | panics idle => exact (busy idle (by simp)).elim
  | declines answering | answers answering => exact (busy answering (by simp)).elim
  | forwards sends =>
    cases sends with
    | waits => exact h
    | fails _ _ _ reading gone =>
      cases h.reader.symm.trans reading
      exact absurd gone h.live
    | passes _ _ _ reading _ room =>
      cases h.reader.symm.trans reading
      exact absurd h.full room.ne
  | writes | breaks => exact ⟨h.reader, h.live, h.full, h.needs.of_conn rfl rfl⟩
  | receives other =>
    have apart : channel ≠ other := fun same => spared.1 (same ▸ rfl)
    refine ⟨h.reader, h.live, ?_, h.needs.of_conn rfl rfl⟩
    exact (congrArg List.length (Function.update_of_ne apart ..)).trans h.full
  | drops other =>
    have apart : channel ≠ other := fun same => spared.2 (same ▸ rfl)
    refine ⟨h.reader, ?_, h.full, h.needs.of_conn rfl rfl⟩
    simpa using ⟨h.live, apart⟩

theorem trap_jammed (opts : Options) (channel subId : ℕ) (message : M) :
    Trap opts (fun event : Net M => event ≠ .receive channel ∧ event ≠ .drop channel)
      (Jammed channel subId message opts) where
  inside stuck := stuck.needs.inside
  own stuck step := stuck.own step
  others stuck conn queues dropped :=
    ⟨conn ▸ stuck.reader, dropped ▸ stuck.live, queues ▸ stuck.full,
      stuck.needs.of_conn (congrArg _ conn) (congrArg _ conn)⟩
  net stuck idle := stuck.net idle

theorem Jammed.released (h : Jammed channel subId message opts s stage) :
    ((s.net opts (.receive channel)).net opts .forward).conn.reader = .idle := by
  have room : (s.queues channel).tail.length < opts.subBuffer := by
    have := opts.subRoom
    rw [List.length_tail, h.full]
    omega
  simp only [ClientState.net, ClientState.forward, h.reader, h.live, if_false,
    Function.update_self, room, if_true]
  rfl

end

/-- While the channel of a subscription is full and nobody receives from it, a call that has
the connection and needs the maps or an answer does not return, a flush not even when its
time is over; every other task stays outside, and those that wait for the connection go on
waiting. One receive lets the read task go on. -/
theorem full_channel_keeps_the_lock (opts : Options) (events later : List (Event M))
    (i channel subId : ℕ) (message : M) (stage : Stage)
    (found : ((Client.start opts).run opts events).stages[i]? = some stage)
    (jammed : Jammed channel subId message opts ((Client.start opts).run opts events).state stage)
    (kept : ∀ event ∈ later, Unhelpful i
      (fun event => event ≠ .receive channel ∧ event ≠ .drop channel) event) :
    let before := (Client.start opts : Client M).run opts events
    let c := before.run opts later
    (∃ stage', c.stages[i]? = some stage' ∧ Jammed channel subId message opts c.state stage') ∧
      (∀ (j : ℕ) (other : Stage), j ≠ i → c.stages[j]? = some other → other.inside = false) ∧
      (∀ (j : ℕ) (stage : Stage), before.stages[j]? = some stage → stage.waits = true →
        c.stages[j]? = some stage ∨ c.stages[j]? = some (.returned .cancelled)) ∧
      ((c.state.net opts (.receive channel)).net opts .forward).conn.reader = .idle := by
  intro before c
  obtain ⟨held, others⟩ := (trap_jammed opts channel subId message).run events later found jammed
    kept
  obtain ⟨stage', there, stuck⟩ := held.stuck
  exact ⟨⟨stage', there, stuck⟩, others, held.waiting, stuck.released⟩

private def twoMessages : List (Event Unit) :=
  [.request (.call (.subscribe ['a'] none false))] ++ go 0 3 ++ [.net (.read (.suback 1 7))] ++
    go 0 2 ++ [.request (.call .flush)] ++ go 1 3 ++
    [.net (.read (.msg 7 ())), .net .forward, .net (.read (.msg 7 ())),
      .request (.call .publish)]

private def timeIsOver : List (Event Unit) :=
  [.net .forward, .advance 1 .expire] ++ go 1 1 ++ go 2 1 ++ [.net (.read (.pong 2))] ++ go 1 1

private theorem two_messages_jam :
    Jammed 0 7 () .small ((Client.start .small).run .small twoMessages).state (.awaitingPong 2) :=
  ⟨by decide, by decide, by decide, show 2 ∉ _ by decide⟩

theorem flush_outlives_its_timeout :
    ((Client.start .small).run .small (twoMessages ++ timeIsOver)).stages[2]? =
        some (.locking .publish) ∧
      ∃ stage, ((Client.start .small).run .small (twoMessages ++ timeIsOver)).stages[1]? =
        some stage ∧ stage.inside = true := by
  obtain ⟨⟨stage, there, stuck⟩, -, waiting, -⟩ := full_channel_keeps_the_lock .small twoMessages
    timeIsOver 1 0 7 () (.awaitingPong 2) (by decide) two_messages_jam
    (by simp [timeIsOver, go, Unhelpful])
  rw [Client.run, List.foldl_append]
  refine ⟨(waiting 2 (.locking .publish) (by decide) rfl).resolve_right ?_, stage, there,
    stuck.needs.inside⟩
  decide

end ZetMQ.ClientStalls
