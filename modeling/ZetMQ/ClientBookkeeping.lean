import ZetMQ.ClientReplays

/-! The bookkeeping of a client that reconnects: exactly when it is right along a run, and two
runs on which it is not. -/
namespace ZetMQ.ClientBookkeeping
open Utf8Text KeyedTable ClientConnection ClientSubscriptions LockedTasks ClientTasks ClientNumbers
  ClientHandles Session SubscribedOnce ClientBooks BookSteps ClientReplays

variable {M : Type} {opts : Options} {s : Session M}

section
variable {i : ℕ} {stage stage' : Stage} {state : ClientState M} {choice : Choice}

theorem quiet_after (exclusive : Exclusive (program (M := M) opts) s.client.stages)
    (found : s.client.stages[i]? = some stage) (inside : stage.inside = true)
    (over_ : stage'.replays = false) {handles : ℕ → Option Handle} :
    (⟨⟨state, s.client.stages.set i stage'⟩, handles, s.latest⟩ : Session M).Quiet := by
  refine quiet_iff.mpr fun j other at_j => ?_
  rcases getElem?_set_cases at_j with ⟨rfl, rfl⟩ | ⟨ne, at_j⟩
  exacts [over_, replays_inside (exclusive.others found inside at_j ne)]

theorem unchanged_of_booked {t : Session M} (booked : t.Booked) (wired : Wired opts s)
    (handles : t.handles = s.handles) (latest : t.latest = s.latest) (record : t.record = s.record)
    (conn : t.conn = s.conn) (quiet : t.Quiet) : s.Unchanged := by
  intro channel g live
  have there : t.LiveAt channel g := by rwa [LiveAt, handles]
  have current := booked.current quiet channel g there
  rw [recorded, record, latest] at current
  refine ⟨fun subId once => ?_, fun up => ⟨s.latest channel, ?_⟩⟩
  · exact current.trans (congrArg some (wired.latest channel subId once))
  · have once := booked.subscribed quiet (by rwa [conn]) channel g there
    rwa [conn, latest] at once

theorem clearStep_of_booked (h : Kept opts s)
    (step : s.client.next (program opts) i choice = some (stage, state, stage'))
    (right : s.Right opts (.advance i choice))
    (booked : (⟨⟨state, s.client.stages.set i stage'⟩, s.marked i stage stage', s.latest⟩ :
      Session M).Booked) : s.ClearStep i stage stage' := by
  obtain ⟨found, lock, work⟩ := next_eq_some.mp step
  have own := h.books.stages i stage found
  cases worked_of_work work with
  | wanders was next =>
    cases stage <;> first | trivial | cases was
    cases stage' <;> trivial
  | shuts => cases stage <;> trivial
  | takes id channel =>
    intro dead channel' g live same
    have ne : channel' ≠ channel := fun here => dead g (here ▸ live)
    obtain ⟨sid, entry⟩ := booked.entry channel' g ⟨(Function.update_of_ne ne _ _).trans live.1,
      live.2⟩
    have gone : (s.record.erase id).lookup g.id = none := by rw [same, AList.lookup_erase]
    cases gone.symm.trans entry
  | records subId channel subject queueGroup =>
    intro channel' g live same
    have ne : channel' ≠ channel := by
      rintro rfl
      cases live.1.symm.trans own.1
    obtain ⟨sid, entry⟩ := booked.entry channel' g ⟨(Function.update_of_ne ne _ _).trans live.1,
      live.2⟩
    have new : (s.record.insert subId ⟨subject, queueGroup, subId, channel⟩).lookup g.id =
        some ⟨subject, queueGroup, subId, channel⟩ := by rw [same, AList.lookup_insert]
    cases new.symm.trans entry
    exact ne rfl
  | failsSub corrId channel purpose =>
    cases purpose with
    | fresh => trivial
    | replay who stableId todo remapped =>
      have outer : (Stage.giveUp who).replays = false := by cases who <;> rfl
      have unchanged : s.Unchanged := unchanged_of_booked booked h.wired
        rfl rfl rfl rfl (quiet_after h.wired.numbered.exclusive found rfl outer)
      cases who <;> exact unchanged
  | sendsSub corrId channel purpose => cases purpose <;> trivial
  | sendsUnsub subId channel =>
    exact fun g there tracked taker _ => right subId channel _ g step there tracked taker
  | _ => trivial

end

theorem clear_of_booked (h : Kept opts s) {event : Event M} (right : s.Right opts event)
    (booked : (s.step opts event).Booked) : s.Clear opts event := by
  cases event with
  | request => trivial
  | advance i choice =>
    intro stage state stage' step
    rw [Session.step, step] at booked
    exact clearStep_of_booked h step right booked
  | cancel i =>
    intro stage found replays call
    change Session.Booked ⟨s.client.cancel opts i, s.handles, s.latest⟩ at booked
    have returned : Client.isReturned stage = false := by
      cases stage <;> first | rfl | cases replays
    have inside : stage.inside = true := by
      by_contra outside
      cases replays.symm.trans (replays_inside (by simpa using outside))
    rw [Client.cancel, found] at booked
    simp only [returned, call, Bool.or_self, Bool.false_eq_true, if_false] at booked
    exact unchanged_of_booked booked h.wired rfl rfl rfl rfl
      (quiet_after h.wired.numbered.exclusive found inside rfl)
  | net event =>
    cases event with
    | read frame =>
      cases frame with
      | suback corrId subId =>
        intro channel g answer quiet live
        rw [Session.step, answer] at booked
        have current := booked.current quiet channel g live
        change (((s.client.state.net opts
          (.read (.suback corrId subId))).record.subscriptions).lookup
          g.id).map _ = some (Function.update s.latest channel subId channel) at current
        rwa [net_record, Function.update_self] at current
      | _ => trivial
    | _ => trivial

theorem always_iff (events : List (Event M)) (h : Kept opts s) :
    AlwaysBooked opts s events ↔ AlwaysClear opts s events := by
  induction events generalizing s with
  | nil => exact iff_of_true h.booked trivial
  | cons event events ih =>
    rw [AlwaysBooked, AlwaysClear]
    constructor
    · rintro ⟨-, right, later⟩
      have booked : (s.step opts event).Booked := by
        cases events with
        | nil => exact later
        | cons next events => exact later.1
      have clear := clear_of_booked h right booked
      exact ⟨clear, (ih (h.step event clear)).mp later⟩
    · rintro ⟨clear, later⟩
      exact ⟨h.booked, h.right clear, (ih (h.step event clear)).mpr later⟩

theorem kept_start : Kept opts (Session.start opts : Session M) := by
  have nothing (channel subId : ℕ) : ¬ Once (Session.start opts : Session M).conn channel
    subId := by
    intro once
    obtain ⟨corrId, only, -⟩ := once_iff.mp once
    cases only
  have empty (corrId : ℕ) : (Session.start opts : Session M).conn.subacks.lookup corrId = none :=
    AList.lookup_empty corrId
  have blank (id : ℕ) : (Session.start opts : Session M).record.lookup id = none :=
    AList.lookup_empty id
  constructor
  · refine ⟨numbered_start, fun down => ?_, fun _ _ member => (List.not_mem_nil member).elim,
      fun corrId subId known => ?_, fun _ => Nat.zero_le 1,
      fun _ _ member => (List.not_mem_nil member).elim,
      fun channel subId once => absurd once (nothing channel subId), fun i stage found => ?_⟩
    · cases down
    · cases (empty corrId).symm.trans known
    · rw [stage_start found]
      trivial
  · constructor
    case known =>
      intro channel g there
      cases there
    case owned =>
      intro id active there
      cases (blank id).symm.trans there
    case entered | settled =>
      intro channel g live
      cases live.1
    case takers =>
      intro channel g i there
      cases there
    case taken =>
      intro channel g i subId there
      cases there
    case quiet =>
      intro quiet channel g live
      cases live.1
    case stages =>
      intro i stage found
      rw [stage_start found]
      trivial

/-- Along every run of a client its books are right exactly if the schedule is clear: no id of
a live handle is recorded again or cleaned up by another call; a replay that stops or is
dropped was assigned the ids that the record had, and on a connection that stands it was
through; and an `unsubscribe` that was replayOvertakes by a new connection or its replay has taken
the very id that the replay was assigned. -/
theorem bookkeeping_iff (opts : Options) (events : List (Event M)) :
    AlwaysBooked opts (Session.start opts) events ↔ AlwaysClear opts (Session.start opts) events :=
  always_iff events kept_start

private def tight : Options := ⟨1, 1, true, 1, 0, false, Nat.one_pos, Nat.one_pos⟩

private def steps (i n : ℕ) : List (Event Unit) := List.replicate n (.advance i .go)

private def subscribes (i : ℕ) (subject : String) (corrId subId : ℕ) : List (Event Unit) :=
  [.request (.call (.subscribe subject.toList none true))] ++ steps i 4 ++
    [.net .write, .net (.read (.suback corrId subId))] ++ steps i 3

private def unsubscribes (i j : ℕ) : List (Event Unit) :=
  [.request (.unsubscribe i)] ++ steps j 4 ++ [.net .write]

private def reconnects : List (Event Unit) :=
  [.net .endOfStream] ++ steps 0 5 ++ [.advance 0 .accepted, .advance 0 (.visit (.stored _ _))]

private def replays (corrId subId : ℕ) : List (Event Unit) :=
  steps 0 2 ++ [.net .write, .net (.read (.suback corrId subId))] ++ steps 0 3

private def sessionAfter (events : List (Event Unit)) : Session Unit :=
  events.foldl (Session.step tight) (.start tight)

private def idReused : Session Unit := sessionAfter <|
  subscribes 1 "a" 1 1 ++ subscribes 2 "b" 2 2 ++ unsubscribes 1 3 ++ reconnects ++ replays 1 1 ++
    subscribes 4 "c" 2 2

private def replayOvertakes : Session Unit := sessionAfter <|
  subscribes 1 "a" 1 1 ++ subscribes 2 "b" 2 2 ++ unsubscribes 1 3 ++ reconnects ++
    [.request (.unsubscribe 2), .advance 4 .go] ++ replays 1 1 ++ steps 4 3

set_option maxRecDepth 40000 in
/-- The third subscription takes the place of the second in the record, or the `UNSUB` of the
second goes out with the id it had on the old connection. -/
theorem reused_id_replaces_subscription :
    (idReused.handles 1 = some ⟨2, "b".toList, none, true, none, true⟩ ∧
      idReused.record.lookup 2 = some ⟨"c".toList, none, 2, 2⟩ ∧ Once idReused.conn 1 1) ∧
    (replayOvertakes.conn.sent = [.sub 1 1, .unsub 2] ∧ Once replayOvertakes.conn 1 1) := by
  decide

end ZetMQ.ClientBookkeeping
