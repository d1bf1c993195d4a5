import ZetMQ.Listener

/-! The accept loop over time: what the shutdown signal leads to, and what keeps the loop
from admitting anybody. -/
namespace ZetMQ.ListenerRuns
open Delivery Broker SubscriptionLedger BrokerRefinement Permissions SessionLoop ServerSessions
open ServerHoldings Listener

section
variable {env : DeliveryPolicy} {config : ListenerConfig} {s : TcpServer}

theorem step_admits (env : DeliveryPolicy) (s : TcpServer) (event : ListenerEvent) :
    (s.step env config event).server.sessions.length = s.server.sessions.length ∨
      (∃ active, s.phase = .loaded active ∧ active < config.maxConnections) ∨
      ∃ conn ok, s.phase = .handshake conn ∧ event = .handshake ok := by
  cases event with
  | enroll =>
    simp only [TcpServer.step]
    split
    · rename_i active phase
      rcases lt_or_ge active config.maxConnections with room | full
      · exact .inr (.inl ⟨active, phase, room⟩)
      · rw [TcpServer.enroll, if_pos full]
        exact .inl rfl
    · exact .inl rfl
  | handshake ok =>
    simp only [TcpServer.step]
    split
    · rename_i conn phase
      exact .inr (.inr ⟨conn, ok, phase, rfl⟩)
    · exact .inl rfl
  | session i event own =>
    simp only [TcpServer.step]
    split
    · rw [Server.step]
      split
      · exact .inl rfl
      · exact .inl (List.length_set ..)
    · exact .inl rfl
  | poll elapsed =>
    simp only [TcpServer.step, TcpServer.poll]
    split_ifs <;> exact .inl rfl
  | finish i =>
    simp only [TcpServer.step, TcpServer.finish]
    split_ifs <;> exact .inl rfl
  | accepted | acceptFailed | shutdown | panic i =>
    simp only [TcpServer.step]
    split_ifs <;> exact .inl rfl

theorem step_handshake (env : DeliveryPolicy) {conn : ConnectionId} {event : ListenerEvent}
    (phase : s.phase = .handshake conn) (open_ : ∀ ok, event ≠ .handshake ok) :
    (s.step env config event).phase = .handshake conn := by
  cases event with
  | handshake ok => exact absurd rfl (open_ ok)
  | finish i =>
    simp only [TcpServer.step, TcpServer.finish]
    split_ifs <;> exact phase
  | session i event own | panic i =>
    simp only [TcpServer.step]
    split_ifs <;> exact phase
  | accepted | acceptFailed | enroll | shutdown | poll elapsed =>
    simp only [TcpServer.step, phase, reduceCtorEq, if_false]

def Stopping (s : TcpServer) : Prop := s.phase = .draining ∨ s.phase = .returned true

theorem Stopping.step (h : Stopping s) (event : ListenerEvent) :
    Stopping (s.step env config event) ∧
      (s.step env config event).server.sessions.length = s.server.sessions.length := by
  refine ⟨?_, ?_⟩
  · cases event with
    | finish i =>
      simp only [TcpServer.step, TcpServer.finish]
      split_ifs <;> exact h
    | poll elapsed =>
      simp only [TcpServer.step, TcpServer.poll]
      split_ifs
      exacts [.inr rfl, .inr rfl, h, h]
    | session i event own | panic i =>
      simp only [TcpServer.step]
      split_ifs <;> exact h
    | accepted | acceptFailed | enroll | handshake ok | shutdown =>
      rcases h with phase | phase <;>
        simp only [TcpServer.step, phase, reduceCtorEq, if_false] <;> simp [Stopping, phase]
  · rcases step_admits env s event with same | ⟨active, phase, -⟩ | ⟨conn, ok, phase, -⟩
    · exact same
    · rcases h with other | other <;> cases phase.symm.trans other
    · rcases h with other | other <;> cases phase.symm.trans other

theorem slots_eq_zero {tasks : List Task} : slots tasks = 0 ↔ ∀ task ∈ tasks, task = .ended := by
  rw [slots, List.countP_eq_zero]
  refine forall₂_congr fun task _ => ?_
  cases task <;> simp [Task.counts]

theorem poll_returns (h : Counted config s) (draining : s.phase = .draining) (elapsed : ℕ) :
    (s.step env config (.poll elapsed)).phase = .returned true ↔
      (∀ task ∈ s.tasks, task = .ended) ∨ config.drainTimeoutSecs * 10 ^ 9 ≤ elapsed := by
  have counted : s.active = slots s.tasks := by
    have counted := h.counted
    rw [draining] at counted
    exact counted
  rw [TcpServer.step, if_pos draining, TcpServer.poll, ← slots_eq_zero, ← counted]
  split_ifs with empty late
  · exact iff_of_true rfl (.inl empty)
  · exact iff_of_true rfl (.inr late)
  · refine iff_of_false ?_ (not_or.mpr ⟨empty, late⟩)
    rw [draining]
    decide

theorem nothing_left (h : Counted config s) (all : ∀ task ∈ s.tasks, task = .ended) :
    (∀ seat ∈ s.server.sessions, seat.position = .finished) ∧
      (∀ id, s.server.broker.registry.getRef id = none) ∧
      s.server.broker.metrics.activeSubscriptions = 0 := by
  obtain ⟨l, held⟩ := h.held
  have none : l.live = [] := by
    have closed : openConns s = [] :=
      List.eq_nil_of_length_eq_zero ((openConns_length h).trans (slots_eq_zero.mpr all))
    refine List.eq_nil_iff_forall_not_mem.mpr fun entry live => ?_
    have inside := mem_openConns h held live
    rw [closed] at inside
    cases inside
  refine ⟨fun seat member => ?_, fun id => ?_, ?_⟩
  · obtain ⟨i, inside, rfl⟩ := List.getElem_of_mem member
    have there : s.tasks[i]? = some .ended := by
      have short := h.aligned ▸ inside
      rw [List.getElem?_eq_getElem short, all _ (List.getElem_mem short)]
    obtain ⟨seat, found, done⟩ := h.ended i there
    rw [List.getElem?_eq_getElem inside] at found
    exact Option.some.inj found ▸ done
  · refine Option.eq_none_iff_forall_ne_some.mpr fun sub found => ?_
    have listed := (held.refines.registry.of_lookup found).2
    rw [none] at listed
    cases listed
  · rw [held.refines.active, none]
    rfl

end

/-- Once the loop has received the shutdown signal nobody is admitted any more, whatever
happens; it returns before its timeout exactly if every task has counted itself off, and
then all sessions are finished and no subscription is left. -/
theorem shutdown_waits_for_every_task (env : DeliveryPolicy) (config : ListenerConfig)
    (events later : List ListenerEvent)
    (draining : (TcpServer.run env config .new events).phase = .draining) :
    let before := TcpServer.run env config .new events
    let s := before.run env config later
    s.server.sessions.length = before.server.sessions.length ∧
      (s.phase = .draining ∨ s.phase = .returned true) ∧
      (s.phase = .draining → ∀ elapsed,
        (s.step env config (.poll elapsed)).phase = .returned true ↔
          (∀ task ∈ s.tasks, task = .ended) ∨ config.drainTimeoutSecs * 10 ^ 9 ≤ elapsed) ∧
      ((∀ task ∈ s.tasks, task = .ended) →
        (∀ seat ∈ s.server.sessions, seat.position = .finished) ∧
          (∀ id, s.server.broker.registry.getRef id = none) ∧
          s.server.broker.metrics.activeSubscriptions = 0) := by
  intro before s
  have counted : Counted config s := by
    have whole := run_counted env config (events ++ later)
    rwa [TcpServer.run, List.foldl_append] at whole
  obtain ⟨stopping, length⟩ := List.foldlRecOn later _
    (motive := fun s => Stopping s ∧ s.server.sessions.length = before.server.sessions.length)
    ⟨.inl draining, rfl⟩
    fun s h event _ => ⟨(h.1.step event).1, (h.1.step event).2.trans h.2⟩
  exact ⟨length, stopping, poll_returns counted, nothing_left counted⟩

private def onePlace (tls : Bool) : ListenerConfig :=
  ⟨⟨2097152, 30, 60, 1000, ⟨"none".toList, none, []⟩⟩, 1, 5, tls⟩

private def allTaken : DeliveryPolicy := fun _ _ _ => .delivered

private def oneAdmitted : List ListenerEvent := [.accepted, .enroll]

private def sessionLeaves : List ListenerEvent :=
  [.session 0 (.shutdown []) (fun _ same => by cases same),
    .session 0 .close (fun _ same => by cases same), .finish 0]

theorem one_session_drains :
    let before := TcpServer.run allTaken (onePlace false) .new (oneAdmitted ++ [.shutdown])
    let s := before.run allTaken (onePlace false) sessionLeaves
    s.server.sessions.length = 1 ∧
      (s.step allTaken (onePlace false) (.poll 0)).phase = .returned true ∧
      (∀ id, s.server.broker.registry.getRef id = none) ∧
      s.server.broker.metrics.activeSubscriptions = 0 := by
  intro before s
  obtain ⟨length, -, polled, drained⟩ := shutdown_waits_for_every_task allTaken (onePlace false)
    (oneAdmitted ++ [.shutdown]) sessionLeaves (by decide)
  have all : ∀ task ∈ s.tasks, task = .ended := by
    rw [show s.tasks = [.ended] from by decide]
    simp
  exact ⟨length.trans (by decide), (polled (by decide) 0).mpr (.inl all), (drained all).2⟩

def Idle (s : TcpServer) (i : ℕ) : Prop :=
  (∃ task, s.tasks[i]? = some task ∧ task.counts = true) ∧
    ∃ seat, s.server.sessions[i]? = some seat ∧ seat.session.state = .new ∧ seat.position = .select

/-- Nothing comes from the clients `quiet` and from the one in the handshake, and the shutdown
signal has not reached their sessions: only the heartbeat ticks there, and a task may die. -/
def Silent (quiet : List ℕ) : ListenerEvent → Prop
  | .session i event _ => i ∈ quiet → ∃ elapsed, event = .tick elapsed
  | .handshake _ => False
  | _ => True

section
variable {env : DeliveryPolicy} {config : ListenerConfig} {s : TcpServer} {quiet : List ℕ} {i : ℕ}

theorem tick_unconnected {h : Host} (state : h.session.state = .new) (config : ServerConfig)
    (elapsed : ℕ) : h.step env config (.tick elapsed) = h := by
  simp only [Host.step, Host.tick, state]
  simp

theorem Idle.spawn (h : Idle s i) (conn : ConnectionId) : Idle (s.spawn conn) i := by
  obtain ⟨⟨task, there, counts⟩, seat, found, rest⟩ := h
  refine ⟨⟨task, ?_, counts⟩, seat, ?_, rest⟩
  · rw [TcpServer.spawn, List.getElem?_append_left (List.getElem?_eq_some_iff.mp there).1, there]
  · rw [TcpServer.spawn, List.getElem?_append_left (List.getElem?_eq_some_iff.mp found).1, found]

theorem Idle.step (h : Idle s i) (inside : i ∈ quiet) {event : ListenerEvent}
    (silent : Silent quiet event) : Idle (s.step env config event) i := by
  cases event with
  | handshake ok => exact silent.elim
  | enroll =>
    simp only [TcpServer.step]
    split
    · rw [TcpServer.enroll]
      split_ifs
      · exact h
      · exact h
      · exact Idle.spawn h _
    · exact h
  | session j event own =>
    simp only [TcpServer.step, Server.step]
    split_ifs
    · obtain ⟨tasks, seat, found, state, position⟩ := h
      split
      · exact ⟨tasks, seat, found, state, position⟩
      · rename_i other there
        refine ⟨tasks, seat, ?_, state, position⟩
        rcases eq_or_ne j i with rfl | different
        · obtain ⟨elapsed, rfl⟩ := silent inside
          obtain rfl := Option.some.inj (found.symm.trans there)
          rw [tick_unconnected (h := s.server.host seat) state]
          exact List.getElem?_set_self (List.getElem?_eq_some_iff.mp found).1
        · exact (List.getElem?_set_ne different).trans found
    · exact h
  | finish j =>
    simp only [TcpServer.step, TcpServer.finish]
    split_ifs with running done
    · obtain ⟨⟨task, there, counts⟩, seat, found, state, position⟩ := h
      have different : j ≠ i := by
        rintro rfl
        rw [found, Option.map_some, position] at done
        cases done
      exact ⟨⟨task, (List.getElem?_set_ne different).trans there, counts⟩, seat, found, state,
        position⟩
    · exact h
    · exact h
  | panic j =>
    simp only [TcpServer.step]
    split_ifs with running
    · obtain ⟨⟨task, there, counts⟩, seat⟩ := h
      refine ⟨?_, seat⟩
      rcases eq_or_ne j i with rfl | different
      · exact ⟨.panicked, List.getElem?_set_self (List.getElem?_eq_some_iff.mp running).1, rfl⟩
      · exact ⟨task, (List.getElem?_set_ne different).trans there, counts⟩
    · exact h
  | poll elapsed =>
    simp only [TcpServer.step, TcpServer.poll]
    split_ifs <;> exact h
  | accepted | acceptFailed | shutdown =>
    simp only [TcpServer.step]
    split_ifs <;> exact h

theorem length_le_slots {tasks : List Task} (distinct : quiet.Nodup)
    (counts : ∀ i ∈ quiet, ∃ task, tasks[i]? = some task ∧ task.counts = true) :
    quiet.length ≤ slots tasks := by
  induction quiet generalizing tasks with
  | nil => exact Nat.zero_le _
  | cons i quiet ih =>
    obtain ⟨⟨task, there, counted⟩, others⟩ := List.forall_mem_cons.mp counts
    obtain ⟨new, distinct⟩ := List.nodup_cons.mp distinct
    -- without the task `i` the others still count
    have rest : quiet.length ≤ slots (tasks.set i .ended) := by
      refine ih distinct fun j inside => ?_
      obtain ⟨other, found, counts⟩ := others j inside
      refine ⟨other, (List.getElem?_set_ne ?_).trans found, counts⟩
      rintro rfl
      exact new inside
    have fewer := slots_set there counted .ended
    rw [show Task.ended.counts = false from rfl, if_neg (by decide)] at fewer
    rw [List.length_cons]
    omega

def Blocked (config : ListenerConfig) (quiet : List ℕ) (s : TcpServer) : Prop :=
  (∃ conn, s.phase = .handshake conn) ∨
    config.maxConnections ≤ quiet.length ∧ ∀ i ∈ quiet, Idle s i

theorem Blocked.step (h : Blocked config quiet s) (counted : Counted config s)
    (distinct : quiet.Nodup) {event : ListenerEvent} (silent : Silent quiet event) :
    Blocked config quiet (s.step env config event) ∧
      (s.step env config event).server.sessions.length = s.server.sessions.length := by
  have noOutcome (ok : Bool) : event ≠ .handshake ok := by
    rintro rfl
    exact silent
  rcases h with ⟨conn, phase⟩ | ⟨full, idle⟩
  · refine ⟨.inl ⟨conn, step_handshake env phase noOutcome⟩, ?_⟩
    rcases step_admits env s event with same | ⟨active, other, -⟩ | ⟨-, ok, -, outcome⟩
    · exact same
    · cases phase.symm.trans other
    · exact absurd outcome (noOutcome ok)
  · refine ⟨.inr ⟨full, fun i inside => (idle i inside).step inside silent⟩, ?_⟩
    rcases step_admits env s event with same | ⟨active, phase, room⟩ | ⟨-, ok, -, outcome⟩
    · exact same
    · have taken := length_le_slots distinct fun i inside => (idle i inside).1
      have loaded := counted.loaded active phase
      have total := counted.counted
      omega
    · exact absurd outcome (noOutcome ok)

end

private def aDay : List ListenerEvent :=
  [.accepted, .enroll, .session 0 (.tick (86400 * 10 ^ 9)) (by simp), .shutdown]

private theorem aDay_silent : ∀ event ∈ aDay, Silent [0] event := by
  simp only [aDay, List.forall_mem_cons]
  exact ⟨trivial, trivial, fun _ => ⟨_, rfl⟩, trivial, fun _ none => by cases none⟩

end ZetMQ.ListenerRuns
