import ZetMQ.BookSteps

/-! The client's record over whole runs. Its books stay right exactly if the schedule keeps
away from a handful of steps: an id of a live handle that is recorded again or cleaned up, a
replay that is left before its end, and an `unsubscribe` that a replay overtakes. -/
namespace ZetMQ.ClientReplays
open Utf8Text KeyedTable ClientConnection ClientSubscriptions LockedTasks ClientTasks ClientNumbers
  ClientHandles Session SubscribedOnce ClientBooks BookSteps

variable {M : Type} {opts : Options} {s : Session M}

section
variable {i : ℕ} {stage stage' : Stage} {state : ClientState M} {choice : Choice}

def marks : Stage → Stage → Bool
  | .recording _ _ _ _, _ | .entering _ _ _ (.fresh _ _ false), _ | .taking _ _, _
  | .connecting _ _ _, .copying _ | .remapping _ _, _ => true
  | _, _ => false

def quits : Stage → Bool
  | .leaving _ _ | .sendingUnsub _ _ => true
  | _ => false

theorem marked_eq (plain : marks stage stage' = false) : s.marked i stage stage' = s.handles := by
  rw [marked.eq_def]
  split <;> first | rfl | cases plain

theorem outer_booked (outer : stage.outer = true) : StageBooked s stage ∧ quits stage = false := by
  cases stage with
  | returned outcome => cases outcome <;> first | exact ⟨trivial, rfl⟩ | cases outer
  | _ => first | exact ⟨trivial, rfl⟩ | cases outer

theorem idle_plain (idle : stage.idle = true) (outer : stage'.outer = true) :
    marks stage stage' = false ∧ stage.replays = false := by
  cases stage <;> first | exact ⟨rfl, rfl⟩ | cases idle
  cases stage' <;> first | exact ⟨rfl, rfl⟩ | cases outer

theorem waits_plain (waits : stage.waits = true) (attempt : Option (Option Call × ℕ × ℕ)) :
    marks stage (.shutting attempt) = false ∧ stage.replays = false := by
  cases stage <;> first | exact ⟨rfl, rfl⟩ | cases waits

theorem books_moved (h : Books s) (wired : Wired opts s)
    (step : s.client.next (program opts) i choice = some (stage, state, stage'))
    (clear : s.ClearStep i stage stage') :
    Books ⟨⟨state, s.client.stages.set i stage'⟩, s.marked i stage stage', s.latest⟩ := by
  obtain ⟨found, lock, work⟩ := next_eq_some.mp step
  have worked := worked_of_work work
  have fresh := not_taking worked
  have own := h.stages i stage found
  have wiredOwn := wired.stages i stage found
  have same (channel subId : ℕ) (once : Once s.conn channel subId) : Once s.conn channel subId :=
    once
  -- the steps that leave the record and the handles alone
  have moves (plain : marks stage stage' = false)
      (leaving : quits stage' = false ∨ ∃ subId channel,
        stage = .leaving subId channel ∧ stage' = .sendingUnsub subId channel)
      (calm : stage.replays = false ∨ stage'.replays = true ∨ s.Unchanged)
      (record : state.record = s.client.state.record)
      (once : ∀ channel subId, Once s.conn channel subId → Once state.conn channel subId)
      (connected : state.conn.connected = true → s.conn.connected = true)
      (channels : s.client.state.channels ≤ state.channels)
      (next : ∀ t : Session M, t.client.state = state → Keeps s t → StageBooked t stage') :
      Books ⟨⟨state, s.client.stages.set i stage'⟩, s.marked i stage stage', s.latest⟩ := by
    rw [marked_eq plain]
    refine Books.moves h found fresh (fun subId channel quit => ?_) record once connected channels
      (fun quiet => ?_) (next _ rfl (keeps_of_eq rfl once channels))
    · rcases leaving with none | ⟨subId', channel', rfl, rfl⟩
      · rcases quit with rfl | rfl <;> cases none
      · rcases quit with quit | quit <;> cases quit
        rfl
    · rcases calm with quietStage | replays | unchanged
      · exact quiet_set h found quietStage quiet
      · have inside := (List.getElem?_eq_some_iff.mp found).1
        cases replays.symm.trans (quiet_iff.mp quiet i _ (List.getElem?_set_self inside))
      · exact h.current_of_unchanged wired unchanged
  cases worked with
  | wanders was next =>
    obtain ⟨plain, calm⟩ := idle_plain was next
    exact moves plain (.inl (outer_booked (s := s) next).2) (.inl calm) rfl same id le_rfl
      fun _ _ _ => (outer_booked next).1
  | closes | publishes | flushes | joins | failsPing | flushed | expires | forgets | removes =>
    exact moves rfl (.inl rfl) (.inl rfl) rfl same id le_rfl fun _ _ _ => trivial
  | sendsPub | sendsPing | sendsUnsub =>
    exact moves rfl (.inl rfl) (.inl rfl) rfl (fun _ _ once => once.post rfl) id le_rfl
      fun _ _ _ => trivial
  | subscribes =>
    refine moves rfl (.inl rfl) (.inl rfl) rfl same id (Nat.le_succ _) fun t eq keeps => ?_
    refine ⟨keeps.none _ (Option.eq_none_iff_forall_ne_some.mpr fun g there => ?_), ?_⟩
    · exact absurd (h.known _ g there) (lt_irrefl _)
    · rw [eq]
      exact Nat.lt_succ_self _
  | takes id channel => exact Books.takes h found clear
  | leaves subId channel =>
    exact moves rfl (.inr ⟨subId, channel, rfl, rfl⟩) (.inl rfl) rfl same id le_rfl
      fun _ _ _ => trivial
  | shuts waits attempt =>
    obtain ⟨plain, calm⟩ := waits_plain waits attempt
    refine moves plain (.inl rfl) (.inl calm) rfl same (fun up => ?_) le_rfl fun _ _ _ => trivial
    cases up
  | drains attempt drained next =>
    rcases next with rfl | ⟨who, k, delay, -, rfl⟩ <;>
      exact moves rfl (.inl rfl) (.inl rfl) rfl same id le_rfl fun _ _ _ => trivial
  | accepted who attempt delay => exact Books.accepted h wired.numbered.exclusive found
  | @copies who order todo visits =>
    have job := visits ▸ h.job order
    cases todo <;>
      exact moves rfl (.inl rfl) (.inr (.inl rfl)) rfl same id le_rfl fun t _ keeps =>
        job.keep keeps.live keeps.once
  | remaps who remapped => exact Books.remaps h wired found
  | registers corrId channel purpose =>
    refine moves rfl (.inl rfl) ?_ rfl same id le_rfl fun t _ keeps => PurposeBooked.keep own keeps
    cases purpose <;> simp [Stage.replays]
  | sendsSub corrId channel purpose =>
    have unsent := (wiredOwn.1.2 channel (List.mem_cons_self ..)).2
    refine moves rfl (.inl rfl) ?_ rfl (fun channel' subId once => ?_) id le_rfl
      fun t _ keeps => PurposeBooked.keep own keeps
    · cases purpose <;> simp [Stage.replays]
    · refine once.post (if_neg ?_)
      rintro rfl
      obtain ⟨corrId', only, -⟩ := once_iff.mp once
      cases unsent.symm.trans only
  | failsSub corrId channel purpose =>
    cases purpose with
    | fresh => exact moves rfl (.inl rfl) (.inl rfl) rfl same id le_rfl fun _ _ _ => trivial
    | replay who stableId todo remapped =>
      have outer := giveUp_outer who
      refine moves rfl (.inl (outer_booked (s := s) outer).2) (.inr (.inr ?_)) rfl same id le_rfl
        fun _ _ _ => (outer_booked outer).1
      cases who <;> exact clear
  | acked corrId subId channel purpose =>
    refine moves rfl (.inl rfl) ?_ rfl same id le_rfl fun t _ keeps => PurposeBooked.keep own keeps
    cases purpose <;> simp [Stage.replays]
  | enters corrId subId channel purpose free entered =>
    subst entered
    cases purpose with
    | fresh subject queueGroup track =>
      cases track with
      | false =>
        exact Books.enters_untracked h wired.numbered.exclusive found rfl same rfl rfl
      | true =>
        exact moves rfl (.inl rfl) (.inl rfl) rfl same id le_rfl fun t _ keeps =>
          ⟨keeps.none _ own.1, own.2.trans_le keeps.channels⟩
    | replay who stableId todo remapped =>
      have job := Job.next own wiredOwn.1
      cases todo <;>
        exact moves rfl (.inl rfl) (.inr (.inl rfl)) rfl same id le_rfl fun t _ keeps =>
          job.keep keeps.live keeps.once
  | records subId channel subject queueGroup => exact Books.records h wired found clear

/-- What holds as long as the schedule has been clear. -/
structure Kept (opts : Options) (s : Session M) : Prop where
  wired : Wired opts s
  books : Books s

theorem Kept.booked (h : Kept opts s) : s.Booked where
  entry channel g live := (h.books.entered channel g live).imp fun _ entry => entry.1
  current quiet channel g live := (h.books.quiet quiet channel g live).1
  subscribed quiet up channel g live := (h.books.quiet quiet channel g live).2 up

theorem Kept.advance (h : Kept opts s) (clear : s.Clear opts (.advance i choice)) :
    Kept opts (s.step opts (.advance i choice)) := by
  rw [Session.step]
  cases step : s.client.next (program opts) i choice with
  | none => exact h
  | some moved =>
    obtain ⟨stage, state, stage'⟩ := moved
    exact ⟨h.wired.moved h.books.distinct step,
      books_moved h.books h.wired step (clear stage state stage' step)⟩

theorem Kept.still (h : Kept opts s) (numbered : Numbered opts ⟨state, s.client.stages⟩)
    (still : Still s.client.state state) (record : state.record = s.client.state.record) :
    Kept opts ⟨⟨state, s.client.stages⟩, s.handles, s.latest⟩ := by
  have once (channel subId : ℕ) (here : Once s.conn channel subId) : Once state.conn channel
    subId :=
    still.once here
  refine ⟨h.wired.goes numbered still fun j stage found =>
    (h.wired.stages j stage found).still still,
    h.books.goes (fun _ _ => Iff.rfl) (congrArg Client.subscriptions record)
      rfl once still.connected
      (fun channel g there => (h.books.known channel g there).trans_le still.channels)
      h.books.takers h.books.taken h.books.quiet fun j stage found =>
        (h.books.stages j stage found).keep (keeps_of_eq rfl once still.channels)⟩

theorem net_record (s : ClientState M) (event : Net M) : (s.net opts event).record = s.record := by
  have stirred := stirred opts s event
  generalize s.net opts event = s' at stirred ⊢
  cases stirred with
  | forwards sends => cases sends <;> rfl
  | _ => rfl

theorem Kept.request (h : Kept opts s) {r : Request} (first : s.client.first opts r = some stage) :
    Kept opts ⟨{ s.client with stages := s.client.stages ++ [stage] }, s.handles, s.latest⟩ := by
  have outside := first_outside first
  have quiet := replays_inside outside
  have held : StageBooked s stage := by
    cases r with
    | call call =>
      obtain rfl := Option.some.inj first
      split <;> trivial
    | unsubscribe i =>
      rw [Client.first] at first
      split at first <;> cases first
      rename_i found
      obtain ⟨g, there, key⟩ := h.books.stages i _ found
      exact ⟨g, there, key⟩
    | close =>
      rw [Client.first] at first
      split_ifs at first
      cases first
      trivial
  have stays : quits stage = false := by
    cases r with
    | call call =>
      obtain rfl := Option.some.inj first
      split <;> rfl
    | unsubscribe i =>
      rw [Client.first] at first
      split at first <;> cases first
      rfl
    | close =>
      rw [Client.first] at first
      split_ifs at first
      cases first
      rfl
  have keeps : Keeps s ⟨{ s.client with stages := s.client.stages ++ [stage] }, s.handles,
    s.latest⟩ :=
    keeps_of_eq rfl (fun _ _ once => once) le_rfl
  constructor
  · refine h.wired.goes (h.wired.numbered.request first) (.refl _) fun j other at_j => ?_
    rcases getElem?_concat_cases at_j with at_j | ⟨-, rfl⟩
    exacts [h.wired.stages j other at_j, stageWired_outside outside]
  · refine h.books.goes (fun _ _ => Iff.rfl) rfl rfl (fun _ _ once => once) id h.books.known
      (fun channel g j there taker => ?_)
        (fun channel g j subId there tracked taker settled leaving => ?_)
      (fun calm => h.books.quiet fun other member => calm other (List.mem_append_left _ member))
      fun j other at_j => ?_
    · obtain ⟨inside, never⟩ := h.books.takers channel g j there taker
      refine ⟨by simp; omega, fun id channel' at_j => ?_⟩
      rw [List.getElem?_append_left inside] at at_j
      exact never id channel' at_j
    · refine h.books.taken channel g j subId there tracked taker settled ?_
      obtain ⟨inside, -⟩ := h.books.takers channel g j there taker
      rwa [Leaving, List.getElem?_append_left inside] at leaving
    · rcases getElem?_concat_cases at_j with at_j | ⟨-, rfl⟩
      exacts [(h.books.stages j other at_j).keep keeps, held.keep keeps]

theorem Kept.cancelled (h : Kept opts s) (found : s.client.stages[i]? = some stage)
    (dropped : List ℕ) (clear : stage.replays = true → s.Unchanged) :
    Kept opts ⟨⟨{ s.client.state with dropped := dropped },
      s.client.stages.set i (.returned .cancelled)⟩, s.handles, s.latest⟩ := by
  have still : Still s.client.state { s.client.state with dropped := dropped } := .of_eq rfl rfl
  refine ⟨h.wired.goes (h.wired.numbered.cancel found dropped) still
      (forall_set found h.wired.stages (fun _ => trivial) fun _ ok => ok.still still),
    Books.moves h.books found (fun _ _ => Stage.noConfusion) (fun _ _ quit => ?_) rfl
      (fun _ _ once => once) id le_rfl (fun quiet => ?_) trivial⟩
  · rcases quit with quit | quit <;> cases quit
  · cases replays : stage.replays with
    | false => exact quiet_set h.books found replays quiet
    | true => exact h.books.current_of_unchanged h.wired (clear replays)

theorem Kept.cancel (h : Kept opts s) (clear : s.Clear opts (.cancel i)) :
    Kept opts (s.step opts (.cancel i)) := by
  change Kept opts ⟨s.client.cancel opts i, s.handles, s.latest⟩
  rw [Client.cancel]
  cases found : s.client.stages[i]? with
  | none => exact h
  | some stage =>
    simp only
    split_ifs with fixed
    · exact h
    · rw [Bool.or_eq_true, not_or, Bool.not_eq_true, Bool.not_eq_true] at fixed
      exact h.cancelled found _ fun replays => clear stage found replays fixed.2

theorem answered_eq {corrId subId channel : ℕ} (answer : s.answered corrId subId = some channel) :
    s.client.state.reading = true ∧ s.conn.subacks.lookup corrId = none ∧
      .sub corrId channel ∈ s.conn.sent := by
  rw [answered] at answer
  split_ifs at answer with able
  simp only [Bool.and_eq_true, Option.isNone_iff_eq_none] at able
  refine ⟨able.1.1, able.1.2, ?_⟩
  obtain ⟨frame, member, same⟩ := List.exists_of_findSome?_eq_some answer
  cases frame with
  | sub corrId' channel' =>
    rw [channelFor] at same
    split_ifs at same with here
    cases same
    exact here ▸ List.mem_of_mem_take member
  | _ => cases same

end

section
variable {corrId subId channel : ℕ}

/-- The connection after a `SUBACK`. -/
def acked (s : Session M) (corrId subId : ℕ) : Connection M := { s.conn with
  maps := { s.conn.maps with pendingSubs := s.conn.maps.pendingSubs.erase corrId }
  subacks := s.conn.subacks.insert corrId subId }

theorem net_suback (wired : Wired opts s) (answer : s.answered corrId subId = some channel) :
    s.client.state.net opts (.read (.suback corrId subId)) =
      s.client.state.setConn (acked s corrId subId) := by
  obtain ⟨reading, new, member⟩ := answered_eq answer
  rw [ClientState.net, if_pos reading, take_suback]
  have waiting : s.client.state.conn.maps.pendingSubs.lookup corrId = some corrId :=
    wired.waiting corrId channel member new
  rw [waiting]
  rfl

theorem once_answered (h : Wired opts s) (answer : s.answered corrId subId = some channel) :
    Once (acked s corrId subId) channel subId := by
  obtain ⟨-, -, member⟩ := answered_eq answer
  refine once_iff.mpr ⟨corrId, ?_, AList.lookup_insert _⟩
  obtain ⟨only, same⟩ := List.length_eq_one_iff.mp
    (le_antisymm (h.single channel) (List.length_pos_of_mem (mem_subs.mpr member)))
  have here := mem_subs.mpr member
  rw [same, List.mem_singleton] at here
  exact here ▸ same

theorem once_acked (answer : s.answered corrId subId = some channel) {channel' subId' : ℕ}
    (once : Once s.conn channel' subId') : Once (acked s corrId subId) channel' subId' :=
  once.insert (answered_eq answer).2.1 rfl rfl

theorem wired_answered (h : Wired opts s) (answer : s.answered corrId subId = some channel) :
    Wired opts ⟨⟨s.client.state.setConn (acked s corrId subId), s.client.stages⟩, s.handles,
      Function.update s.latest channel subId⟩ := by
  have numbered := net_suback h answer ▸ h.numbered.net (.read (.suback corrId subId))
  obtain ⟨-, new, member⟩ := answered_eq answer
  refine ⟨numbered, h.down, fun corrId' channel' member' new' => ?_, fun corrId' subId' known => ?_,
    h.single, h.below, fun channel' subId' once => ?_, fun j stage found => ?_⟩
  · change (s.conn.subacks.insert corrId subId).lookup corrId' = none at new'
    change (s.conn.maps.pendingSubs.erase corrId).lookup corrId' = some corrId'
    rw [lookup_insert_ite] at new'
    split_ifs at new' with same
    exact lookup_erase_eq_some.mpr ⟨same, h.waiting corrId' channel' member' new'⟩
  · rcases lookup_insert_eq_some.mp known with ⟨rfl, -⟩ | ⟨-, old⟩
    exacts [⟨channel, member⟩, h.answers corrId' subId' old]
  · change Function.update s.latest channel subId channel' = subId'
    by_cases same : channel' = channel
    · subst same
      rw [Function.update_self]
      exact Once.unique (once_answered h answer) once
    · rw [Function.update_of_ne same]
      obtain ⟨corrId', only, known⟩ := once_iff.mp once
      refine h.latest channel' subId' (once_iff.mpr ⟨corrId', only, ?_⟩)
      rcases lookup_insert_eq_some.mp known with ⟨rfl, -⟩ | ⟨-, old⟩
      · have there : corrId' ∈ subs s.conn channel' := only ▸ List.mem_singleton_self corrId'
        exact absurd (h.numbered.sub_once (mem_subs.mp there) member) same
      · exact old
  · have ok := h.stages j stage found
    cases stage with
    | sendingSub corrId' =>
      refine ⟨ok.1, lookup_erase_eq_some.mpr ⟨?_, ok.2⟩⟩
      rintro rfl
      exact (h.numbered.stages j _ found).2 _ member rfl
    | entering => exact ⟨once_acked answer ok.1, ok.2⟩
    | recording => exact once_acked answer ok
    | _ => exact ok

theorem Kept.answered (h : Kept opts s) (answer : s.answered corrId subId = some channel)
    (clear : s.Quiet → ∀ g, s.LiveAt channel g → s.recorded g = some subId) :
    Kept opts ⟨⟨s.client.state.setConn (acked s corrId subId), s.client.stages⟩, s.handles,
      Function.update s.latest channel subId⟩ := by
  have once := once_answered h.wired answer
  have grows {channel' subId' : ℕ} (here : Once s.conn channel' subId') :
      Once (acked s corrId subId) channel' subId' := once_acked answer here
  obtain ⟨-, new, member⟩ := answered_eq answer
  refine ⟨wired_answered h.wired answer, h.books.known, h.books.owned, fun channel' g live => ?_,
    fun channel' g live settled => ?_, h.books.takers,
    fun channel' g j subId' there tracked taker settled leaving =>
      grows (h.books.taken channel' g j subId' there tracked taker settled leaving),
    fun quiet channel' g live => ?_, fun j stage found => (h.books.stages j stage found).keep
      (keeps_of_eq rfl (fun _ _ => grows) le_rfl)⟩
  · obtain ⟨sid, entry, current⟩ := h.books.entered channel' g live
    refine ⟨sid, entry, ?_⟩
    change sid = Function.update s.latest channel subId channel' ∨
      Once (acked s corrId subId) channel' (Function.update s.latest channel subId channel')
    by_cases same : channel' = channel
    · subst same
      rw [Function.update_self]
      exact .inr once
    · rw [Function.update_of_ne same]
      exact current.imp id grows
  · -- a settled handle has its answer already
    obtain ⟨current, here⟩ := h.books.settled channel' g live settled
    change s.recorded g = some (Function.update s.latest channel subId channel') ∧
      Once (acked s corrId subId) channel' (Function.update s.latest channel subId channel')
    by_cases same : channel' = channel
    · subst same
      cases new.symm.trans (here.answered (mem_subs.mpr member))
    · rw [Function.update_of_ne same]
      exact ⟨current, grows here⟩
  · obtain ⟨current, here⟩ := h.books.quiet quiet channel' g live
    change s.recorded g = some (Function.update s.latest channel subId channel') ∧
      (_ → Once (acked s corrId subId) channel' (Function.update s.latest channel subId channel'))
    by_cases same : channel' = channel
    · subst same
      rw [Function.update_self]
      exact ⟨clear quiet g live, fun _ => once⟩
    · rw [Function.update_of_ne same]
      exact ⟨current, fun up => grows (here up)⟩

end

theorem Kept.step (h : Kept opts s) (event : Event M) (clear : s.Clear opts event) :
    Kept opts (s.step opts event) := by
  cases event with
  | request r =>
    change Kept opts ⟨s.client.request opts r, s.handles, s.latest⟩
    rw [Client.request]
    cases first : s.client.first opts r with
    | none => exact h
    | some stage =>
      simp only
      split_ifs
      exacts [h, h.request first]
  | advance i choice => exact h.advance clear
  | cancel i => exact h.cancel clear
  | net event =>
    have still (other : ∀ corrId subId, event ≠ .read (.suback corrId subId)) :
        Kept opts ⟨⟨s.client.state.net opts event, s.client.stages⟩, s.handles, s.latest⟩ :=
      h.still (h.wired.numbered.net event) (still_net _ other) (net_record _ event)
    cases event with
    | read frame =>
      cases frame with
      | suback corrId subId =>
        rw [Session.step]
        cases answer : s.answered corrId subId with
        | none => exact h
        | some channel =>
          have kept := h.answered answer fun quiet g => clear channel g answer quiet
          rw [← net_suback h.wired answer] at kept
          exact kept
      | _ => exact still fun _ _ => by simp
    | _ => exact still fun _ _ => by simp

theorem Kept.right (h : Kept opts s) {event : Event M} (clear : s.Clear opts event) :
    s.Right opts event := by
  cases event with
  | advance i choice =>
    intro subId channel state g step there tracked taker
    obtain ⟨found, -, -⟩ := next_eq_some.mp step
    cases settled : g.settled with
    | true => exact h.books.taken channel g i subId there tracked taker settled (.inr found)
    | false => exact clear _ _ _ step g there tracked taker settled
  | _ => trivial

end ZetMQ.ClientReplays
