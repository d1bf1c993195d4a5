import ZetMQ.ConnectionCount

/-! A server with any number of sessions over one broker. The count of active
connections is right in all states of a run exactly if every session is counted once
before it ends: no `CONNECT` is accepted on a session that is connected already, and
no session ends that never was. -/
namespace ZetMQ.ServerSessions
open Utf8Text Frames KeyedTable Delivery Registry Broker Permissions SessionLoop AuthGate
open ConnectionCount

/-- One accepted connection: its session and where its read loop stands. -/
structure Seat where
  session : Session
  position : Position

structure Server where
  broker : BrokerCore
  connCounter : ℕ
  sessions : List Seat

inductive ServerEvent where
  | accept
  | session (i : ℕ) (event : Event) (own : ∀ op, event ≠ .elsewhere op)

namespace Server

def start : Server := ⟨.new, 1, []⟩

def host (server : Server) (seat : Seat) : Host := ⟨server.broker, seat.session, seat.position⟩

@[simp] theorem host_broker (server : Server) (seat : Seat) :
    (server.host seat).broker = server.broker := rfl

variable (env : DeliveryPolicy) (config : ServerConfig)

def step (server : Server) : ServerEvent → Server
  | .accept =>
    { server with
      connCounter := server.connCounter + 1
      sessions := server.sessions ++ [⟨.start server.connCounter, .select⟩] }
  | .session i event _ =>
    match server.sessions[i]? with
    | none => server
    | some seat =>
      let h := (server.host seat).step env config event
      { server with
        broker := h.broker
        sessions := server.sessions.set i ⟨h.session, h.position⟩ }

def run (server : Server) (events : List ServerEvent) : Server :=
  events.foldl (step env config) server

end Server

def Seat.connected (seat : Seat) : Bool := seat.session.state ≠ .new ∧ seat.position ≠ .finished

def Balanced (server : Server) : Prop :=
  connections server.broker = server.sessions.countP Seat.connected

def Wraps (server : Server) : ServerEvent → Prop
  | .accept => False
  | .session i event _ =>
    ∃ seat, server.sessions[i]? = some seat ∧ Ends (server.host seat) event ∧
      connections server.broker = 0

def Paired (config : ServerConfig) (server : Server) : ServerEvent → Prop
  | .accept => True
  | .session i event _ => ∀ seat, server.sessions[i]? = some seat →
    (Accepts config (server.host seat) event → seat.session.state = .new) ∧
      (Ends (server.host seat) event → seat.session.state ≠ .new)

variable {server : Server}

section
variable (env : DeliveryPolicy) (config : ServerConfig)

def AlwaysBalanced : Server → List ServerEvent → Prop
  | server, [] => Balanced server
  | server, event :: events =>
    Balanced server ∧ ¬Wraps server event ∧ AlwaysBalanced (server.step env config event) events

def AlwaysPaired : Server → List ServerEvent → Prop
  | _, [] => True
  | server, event :: events =>
    Paired config server event ∧ AlwaysPaired (server.step env config event) events

def Tallied (server : Server) : Prop :=
  tally server.broker = server.sessions.countP Seat.connected

theorem Tallied.balanced (tallied : Tallied server) : Balanced server := by
  rw [Balanced, connections, tallied, readCounter_natCast]

theorem tallied_of_balanced (above : 0 ≤ tally server.broker) (balanced : Balanced server) :
    Tallied server := by
  rw [Balanced, connections, readCounter, if_neg above.not_gt] at balanced
  rw [Tallied, ← balanced]
  exact (Int.toNat_of_nonneg above).symm

section
variable (tallied : Tallied server)
include tallied

theorem session_tallied {i : ℕ} {seat : Seat} (found : server.sessions[i]? = some seat)
    (event : Event) (own : ∀ op, event ≠ .elsewhere op) :
    Tallied (server.step env config (.session i event own)) ↔
      (Accepts config (server.host seat) event → seat.session.state = .new) ∧
        (Ends (server.host seat) event → seat.session.state ≠ .new) := by
  obtain ⟨inside, at_i⟩ := List.getElem?_eq_some_iff.mp found
  have positive : seat.connected = true → 0 < server.sessions.countP Seat.connected :=
    fun yes => List.countP_pos_iff.mpr ⟨seat, List.mem_of_getElem? found, yes⟩
  have counts : (server.step env config (.session i event own)).sessions.countP Seat.connected =
      server.sessions.countP Seat.connected - (if seat.connected then 1 else 0) +
        if connected ((server.host seat).step env config event) then 1 else 0 := by
    rw [Server.step, found]
    simp only [List.countP_set inside, at_i]
    rfl
  have after : Tallied (server.step env config (.session i event own)) ↔
      tally ((server.host seat).step env config event).broker =
        tally server.broker - (if seat.connected then 1 else 0) +
          if connected ((server.host seat).step env config event) then 1 else 0 := by
    rw [Tallied, counts, tallied, Server.step, found]
    by_cases was : seat.connected = true
    · have some := positive was
      simp only [was, if_true]
      split_ifs <;> omega
    · simp only [was, Bool.false_eq_true, if_false]
      split_ifs <;> omega
  have before (running : seat.position ≠ .finished) :
      seat.connected = decide (seat.session.state ≠ .new) := by
    simp [Seat.connected, running]
  rw [after]
  cases step_count env config (server.host seat) event own with
  | inl up =>
    -- one more is counted: right only if the session was not counted before
    obtain ⟨accepts, running, counted, now⟩ := up
    have noEnd : ¬Ends (server.host seat) event := by
      obtain ⟨order, auth, ctx, isTurn, -⟩ := accepts
      rintro ⟨isClose, -⟩
      cases isTurn.symm.trans isClose
    rw [counted, now, before running, show (server.host seat).broker = server.broker from rfl]
    by_cases fresh : seat.session.state = .new
    · simp [fresh, noEnd]
    · simp [fresh, accepts]
  | inr rest =>
    cases rest with
    | inl down =>
      -- one less is counted: right only if the session was
      obtain ⟨ends, running, counted, now⟩ := down
      have noAccept : ¬Accepts config (server.host seat) event := by
        rintro ⟨order, auth, ctx, isTurn, -⟩
        cases isTurn.symm.trans ends.1
      rw [counted, now, before running, show (server.host seat).broker = server.broker from rfl]
      by_cases fresh : seat.session.state = .new
      · simp [fresh, ends]
      · simp [fresh, noAccept]
    | inr quiet =>
      obtain ⟨noAccept, noEnd, counted, now⟩ := quiet
      have before : connected (server.host seat) = seat.connected := rfl
      rw [counted, now, before, show (server.host seat).broker = server.broker from rfl]
      simp [noEnd, noAccept]

theorem tally_step_nonneg (event : ServerEvent) (unwrapped : ¬Wraps server event) :
    0 ≤ tally (server.step env config event).broker := by
  have above : 0 ≤ tally server.broker := by
    rw [tallied]
    exact Int.natCast_nonneg _
  cases event with
  | accept => exact above
  | session i event own =>
    cases found : server.sessions[i]? with
    | none => simpa [Server.step, found] using above
    | some seat =>
      rw [Server.step, found]
      change 0 ≤ tally ((server.host seat).step env config event).broker
      rcases step_count env config (server.host seat) event own with
        ⟨-, -, counted, -⟩ | ⟨ends, -, counted, -⟩ | ⟨-, -, counted, -⟩
      · rw [counted]
        exact Int.le_add_one above
      · have some : connections server.broker ≠ 0 := fun zero =>
          unwrapped ⟨seat, found, ends, zero⟩
        rw [connections, readCounter, if_neg above.not_gt] at some
        rw [counted]
        change 0 ≤ tally server.broker - 1
        omega
      · rw [counted]
        exact above

theorem step_balanced (event : ServerEvent) :
    ¬Wraps server event ∧ Balanced (server.step env config event) ↔
      Paired config server event := by
  have kept : Tallied (server.step env config event) ↔ Paired config server event := by
    cases event with
    | accept =>
      have outside : Seat.connected ⟨.start server.connCounter, .select⟩ = false := rfl
      simpa [Paired, Tallied, Server.step, outside] using tallied
    | session i event own =>
      cases found : server.sessions[i]? with
      | none => simpa [Paired, Server.step, found] using tallied
      | some seat =>
        rw [session_tallied env config tallied found event own]
        simp [Paired, found]
  rw [← kept]
  constructor
  · rintro ⟨unwrapped, balanced⟩
    exact tallied_of_balanced (tally_step_nonneg env config tallied event unwrapped) balanced
  · intro after
    refine ⟨fun wraps => ?_, after.balanced⟩
    cases event with
    | accept => exact wraps
    | session i event own =>
      obtain ⟨seat, found, ends, zero⟩ := wraps
      have paired := (kept.mp after) seat found
      have open_ : seat.position = .cleanup := ends.2
      have was : seat.connected = true := by simp [Seat.connected, paired.2 ends, open_]
      have one : 0 < server.sessions.countP Seat.connected :=
        List.countP_pos_iff.mpr ⟨seat, List.mem_of_getElem? found, was⟩
      rw [tallied.balanced] at zero
      omega

theorem always_balanced_iff (events : List ServerEvent) :
    AlwaysBalanced env config server events ↔ AlwaysPaired env config server events := by
  induction events generalizing server with
  | nil => exact iff_of_true tallied.balanced trivial
  | cons event events ih =>
    have step := step_balanced env config tallied event
    simp only [AlwaysBalanced, AlwaysPaired, tallied.balanced, true_and]
    constructor
    · rintro ⟨unwrapped, later⟩
      have next : Balanced (server.step env config event) := by
        cases events with
        | nil => exact later
        | cons _ _ => exact later.1
      have above := tally_step_nonneg env config tallied event unwrapped
      exact ⟨step.mp ⟨unwrapped, next⟩, (ih (tallied_of_balanced above next)).mp later⟩
    · rintro ⟨paired, later⟩
      obtain ⟨unwrapped, next⟩ := step.mpr paired
      have above := tally_step_nonneg env config tallied event unwrapped
      exact ⟨unwrapped, (ih (tallied_of_balanced above next)).mpr later⟩

end

end

/-- In all states of a run of the server the count of active connections is the
number of open sessions with a completed `CONNECT`, and never wraps, exactly if
`CONNECT`s and ends of sessions come in pairs. -/
theorem active_connections_iff (env : DeliveryPolicy) (config : ServerConfig)
    (events : List ServerEvent) :
    AlwaysBalanced env config .start events ↔ AlwaysPaired env config .start events :=
  always_balanced_iff env config (show Tallied .start from rfl) events

private def connectTwice : List ServerEvent :=
  [.accept, .session 0 (.received ((connectFrame "secret".toList).encode ++
      (connectFrame "secret".toList).encode)) (by simp),
    .session 0 (.turn (.stored _ _)) (by simp), .session 0 (.turn (.stored _ _)) (by simp)]

private def leaveAtOnce : List ServerEvent :=
  [.accept, .session 0 (.received []) (by simp), .session 0 .close (by simp)]

private def after (events : List ServerEvent) : Server :=
  Server.start.run (fun _ _ _ => .delivered) secretToken events

set_option maxRecDepth 8000 in
/-- A session that sends `CONNECT` twice counts as two, and one that leaves without a
`CONNECT` takes one from zero. -/
theorem connections_miscounted :
    (connections (after connectTwice).broker = 2 ∧
      (after connectTwice).sessions.countP Seat.connected = 1) ∧
    connections (after leaveAtOnce).broker = 2 ^ 64 - 1 ∧
      (after leaveAtOnce).sessions.countP Seat.connected = 0 := by
  decide

end ZetMQ.ServerSessions
