import ZetMQ.ServerHoldings

/-! The accept loop of the server. Each admitted connection is served by a task of its own,
and the number of these tasks is kept in a shared counter that the loop compares with the
limit. The loop and the tasks run side by side: a task may end between the reading of the
counter and the admission. -/
namespace ZetMQ.Listener
open KeyedTable Delivery Broker SubscriptionLedger BrokerRefinement Permissions SessionLoop
open ServerSessions ServerHoldings

def fetchDec (n : ℕ) : ℕ := if n = 0 then 2 ^ 64 - 1 else n - 1

theorem fetchDec_succ (n : ℕ) : fetchDec (n + 1) = n := by simp [fetchDec]

structure ListenerConfig where
  session : ServerConfig
  maxConnections : ℕ
  drainTimeoutSecs : ℕ
  tls : Bool

/-- Where `run` stands: in `select!`, past the reading of the counter for a new stream, in
the TLS handshake of that stream, in the loop that waits for the tasks, or returned. -/
inductive Phase where
  | accepting
  | loaded (active : ℕ)
  | handshake (conn : ConnectionId)
  | draining
  | returned (ok : Bool)
deriving DecidableEq

inductive Task where
  | running
  | ended
  | panicked
deriving DecidableEq

structure TcpServer where
  server : Server
  active : ℕ
  phase : Phase
  tasks : List Task

inductive ListenerEvent where
  | accepted
  | acceptFailed
  | enroll
  | handshake (ok : Bool)
  | shutdown
  | poll (elapsedNanos : ℕ)
  | session (i : ℕ) (event : Event) (own : ∀ op, event ≠ .elsewhere op)
  | finish (i : ℕ)
  | panic (i : ℕ)

namespace TcpServer

def new : TcpServer := ⟨.start, 0, .accepting, []⟩

def spawn (s : TcpServer) (conn : ConnectionId) : TcpServer :=
  { s with
    server := { s.server with sessions := s.server.sessions ++ [⟨.start conn, .select⟩] }
    tasks := s.tasks ++ [.running]
    phase := .accepting }

def enroll (config : ListenerConfig) (s : TcpServer) (active : ℕ) : TcpServer :=
  if config.maxConnections ≤ active then { s with phase := .accepting }
  else
    let conn := s.server.connCounter
    let s := { s with
      server := { s.server with connCounter := conn + 1 }
      active := s.active + 1 }
    if config.tls then { s with phase := .handshake conn } else s.spawn conn

def handshake (s : TcpServer) (conn : ConnectionId) (ok : Bool) : TcpServer :=
  if ok then s.spawn conn else { s with active := fetchDec s.active, phase := .accepting }

def poll (config : ListenerConfig) (s : TcpServer) (elapsedNanos : ℕ) : TcpServer :=
  if s.active = 0 then { s with phase := .returned true }
  else if config.drainTimeoutSecs * 10 ^ 9 ≤ elapsedNanos then { s with phase := .returned true }
  else s

def finish (s : TcpServer) (i : ℕ) : TcpServer :=
  if (s.server.sessions[i]?).map (·.position) = some .finished then
    { s with active := fetchDec s.active, tasks := s.tasks.set i .ended }
  else s

variable (env : DeliveryPolicy) (config : ListenerConfig)

/-- Each event happens only where the loop or the task stands. An error of `accept` leaves
the loop at once, and a task that panics does not come to count itself off. -/
def step (s : TcpServer) : ListenerEvent → TcpServer
  | .accepted => if s.phase = .accepting then { s with phase := .loaded s.active } else s
  | .acceptFailed => if s.phase = .accepting then { s with phase := .returned false } else s
  | .enroll =>
    match s.phase with
    | .loaded active => s.enroll config active
    | _ => s
  | .handshake ok =>
    match s.phase with
    | .handshake conn => s.handshake conn ok
    | _ => s
  | .shutdown => if s.phase = .accepting then { s with phase := .draining } else s
  | .poll elapsedNanos => if s.phase = .draining then s.poll config elapsedNanos else s
  | .session i event own =>
    if s.tasks[i]? = some .running then
      { s with server := s.server.step env config.session (.session i event own) }
    else s
  | .finish i => if s.tasks[i]? = some .running then s.finish i else s
  | .panic i =>
    if s.tasks[i]? = some .running then { s with tasks := s.tasks.set i .panicked } else s

def run (s : TcpServer) (events : List ListenerEvent) : TcpServer :=
  events.foldl (step env config) s

end TcpServer

def Phase.waiting : Phase → ℕ
  | .handshake _ => 1
  | _ => 0

def Task.counts : Task → Bool
  | .ended => false
  | _ => true

def slots (tasks : List Task) : ℕ := tasks.countP Task.counts

structure Counted (config : ListenerConfig) (s : TcpServer) : Prop where
  held : ∃ l, Holding config.session s.server l
  aligned : s.tasks.length = s.server.sessions.length
  counted : s.active = slots s.tasks + s.phase.waiting
  limited : s.active ≤ config.maxConnections
  loaded : ∀ active, s.phase = .loaded active → s.active ≤ active
  fresh : ∀ conn, s.phase = .handshake conn → conn < s.server.connCounter ∧
    ∀ (i : ℕ) seat, s.server.sessions[i]? = some seat → seat.session.connId ≠ conn
  ended : ∀ (i : ℕ), s.tasks[i]? = some .ended →
    ∃ seat, s.server.sessions[i]? = some seat ∧ seat.position = .finished

theorem counted_new (config : ListenerConfig) : Counted config .new where
  held := ⟨.empty, holding_start _⟩
  aligned := rfl
  counted := rfl
  limited := Nat.zero_le _
  loaded active at_new := by cases at_new
  fresh conn at_new := by cases at_new
  ended i at_i := by cases at_i

section
variable {config : ListenerConfig} {s : TcpServer}

section
variable (h : Counted config s)
include h

theorem Counted.goto {phase : Phase} (before : s.phase.waiting = 0) (after : phase.waiting = 0)
    (loaded : ∀ active, phase = .loaded active → s.active ≤ active) :
    Counted config { s with phase := phase } where
  held := h.held
  aligned := h.aligned
  counted := by
    rw [after, ← before]
    exact h.counted
  limited := h.limited
  loaded := loaded
  fresh conn at_phase := by
    dsimp only at at_phase
    rw [at_phase] at after
    cases after
  ended := h.ended

theorem Counted.spawn {conn : ConnectionId} (phase : s.phase = .handshake conn) :
    Counted config (s.spawn conn) := by
  obtain ⟨l, held⟩ := h.held
  obtain ⟨taken, fresh⟩ := h.fresh conn phase
  refine ⟨⟨l, held.enroll taken fresh⟩, ?_, ?_, h.limited, fun _ other => (by cases other),
    fun _ other => (by cases other), fun i at_i => ?_⟩
  · simp [TcpServer.spawn, h.aligned]
  · have counted := h.counted
    rw [phase] at counted
    simpa [TcpServer.spawn, slots, Task.counts, Phase.waiting] using counted
  · rcases getElem?_concat_cases at_i with old | ⟨-, new⟩
    · obtain ⟨seat, found, done⟩ := h.ended i old
      refine ⟨seat, ?_, done⟩
      rw [TcpServer.spawn, List.getElem?_append_left (List.getElem?_eq_some_iff.mp found).1, found]
    · cases new

theorem Counted.enroll {active : ℕ} (phase : s.phase = .loaded active) :
    Counted config (s.enroll config active) := by
  rw [TcpServer.enroll]
  split_ifs with full tls
  · exact h.goto (by rw [phase]; rfl) rfl fun _ other => by cases other
  all_goals
    have admitted : Counted config
        { s with
          server := { s.server with connCounter := s.server.connCounter + 1 }
          active := s.active + 1
          phase := .handshake s.server.connCounter } := by
      obtain ⟨l, held⟩ := h.held
      have counted := h.counted
      rw [phase] at counted
      have room := h.loaded active phase
      refine ⟨⟨l, held.skip (Nat.le_succ _)⟩, h.aligned, congrArg (· + 1) counted, by
        dsimp only; omega, fun _ other => (by cases other), ?_, h.ended⟩
      rintro conn ⟨⟩
      exact ⟨Nat.lt_succ_self _, fun i seat found => (held.numbered i seat found).ne⟩
  · exact admitted
  · exact admitted.spawn rfl

theorem Counted.handshake {conn : ConnectionId} (phase : s.phase = .handshake conn) (ok : Bool) :
    Counted config (s.handshake conn ok) := by
  rw [TcpServer.handshake]
  split
  · exact h.spawn phase
  · have counted := h.counted
    rw [phase, Phase.waiting] at counted
    have less : fetchDec s.active = slots s.tasks := by rw [counted, fetchDec_succ]
    refine ⟨h.held, h.aligned, less, ?_, fun _ other => (by cases other),
      fun _ other => (by cases other), h.ended⟩
    have limited := h.limited
    dsimp only
    omega

end

theorem slots_set {tasks : List Task} {i : ℕ} {old : Task} (found : tasks[i]? = some old)
    (counts : old.counts = true) (task : Task) :
    slots (tasks.set i task) + 1 = slots tasks + if task.counts then 1 else 0 := by
  obtain ⟨inside, at_i⟩ := List.getElem?_eq_some_iff.mp found
  have positive : 0 < tasks.countP Task.counts :=
    List.countP_pos_iff.mpr ⟨old, List.mem_of_getElem? found, counts⟩
  rw [slots, slots, List.countP_set inside, at_i, counts, if_pos rfl]
  omega

section
variable (h : Counted config s)
include h

theorem Counted.finish {i : ℕ} (running : s.tasks[i]? = some .running) :
    Counted config (s.finish i) := by
  rw [TcpServer.finish]
  split_ifs with done
  · have counted : s.active = slots (s.tasks.set i .ended) + s.phase.waiting + 1 := by
      have fewer := slots_set running rfl .ended
      rw [show Task.ended.counts = false from rfl, if_neg (by decide)] at fewer
      have counted := h.counted
      omega
    have less : fetchDec s.active = slots (s.tasks.set i .ended) + s.phase.waiting := by
      rw [counted, fetchDec_succ]
    have down : fetchDec s.active ≤ s.active := by omega
    refine ⟨h.held, by simpa using h.aligned, less, down.trans h.limited,
      fun active phase => down.trans (h.loaded active phase), h.fresh, fun j at_j => ?_⟩
    rcases getElem?_set_cases at_j with ⟨rfl, -⟩ | ⟨-, old⟩
    · obtain ⟨seat, found, position⟩ := Option.map_eq_some_iff.mp done
      exact ⟨seat, found, position⟩
    · exact h.ended j old
  · exact h

theorem Counted.panic {i : ℕ} (running : s.tasks[i]? = some .running) :
    Counted config { s with tasks := s.tasks.set i .panicked } := by
  have same := slots_set running rfl .panicked
  rw [show Task.panicked.counts = true from rfl, if_pos rfl] at same
  have counted := h.counted
  refine ⟨h.held, by simpa using h.aligned, ?_, h.limited, h.loaded, h.fresh, fun j at_j => ?_⟩
  · dsimp only
    omega
  · rcases getElem?_set_cases at_j with ⟨-, new⟩ | ⟨-, old⟩
    · cases new
    · exact h.ended j old

theorem Counted.session (env : DeliveryPolicy) {i : ℕ} (running : s.tasks[i]? = some .running)
    (event : Event) (own : ∀ op, event ≠ .elsewhere op) :
    Counted config
      { s with server := s.server.step env config.session (.session i event own) } := by
  obtain ⟨l, held⟩ := h.held
  have held' := step_holding env config.session held (.session i event own)
  rw [Server.step] at held' ⊢
  split
  · exact h
  · rename_i seat found
    rw [found] at held'
    refine ⟨held', by simpa using h.aligned, h.counted, h.limited, h.loaded, fun conn phase => ?_,
      fun j at_j => ?_⟩
    · obtain ⟨taken, fresh⟩ := h.fresh conn phase
      refine ⟨taken, fun j seat' found' => ?_⟩
      rcases getElem?_set_cases found' with ⟨-, rfl⟩ | ⟨-, old⟩
      · exact (step_kind env config.session (s.server.host seat) event own).connId ▸
          fresh i seat found
      · exact fresh j seat' old
    · have different : i ≠ j := by
        rintro rfl
        cases running.symm.trans at_j
      obtain ⟨seat', found', done⟩ := h.ended j at_j
      exact ⟨seat', (List.getElem?_set_ne different).trans found', done⟩

theorem Counted.step (env : DeliveryPolicy) (event : ListenerEvent) :
    Counted config (s.step env config event) := by
  cases event with
  | accepted =>
    rw [TcpServer.step]
    split_ifs with phase
    · refine h.goto (by rw [phase]; rfl) rfl ?_
      rintro active ⟨⟩
      exact Nat.le_refl _
    · exact h
  | acceptFailed =>
    rw [TcpServer.step]
    split_ifs with phase
    · exact h.goto (by rw [phase]; rfl) rfl fun _ other => by cases other
    · exact h
  | shutdown =>
    rw [TcpServer.step]
    split_ifs with phase
    · exact h.goto (by rw [phase]; rfl) rfl fun _ other => by cases other
    · exact h
  | enroll =>
    rw [TcpServer.step]
    split
    · rename_i active phase
      exact h.enroll phase
    · exact h
  | handshake ok =>
    rw [TcpServer.step]
    split
    · rename_i conn phase
      exact h.handshake phase ok
    · exact h
  | poll elapsed =>
    rw [TcpServer.step]
    split_ifs with phase
    · have returned : Counted config { s with phase := .returned true } :=
        h.goto (by rw [phase]; rfl) rfl fun _ other => by cases other
      rw [TcpServer.poll]
      split_ifs
      exacts [returned, returned, h]
    · exact h
  | session i event own =>
    rw [TcpServer.step]
    split_ifs with running
    · exact h.session env running event own
    · exact h
  | finish i =>
    rw [TcpServer.step]
    split_ifs with running
    · exact h.finish running
    · exact h
  | panic i =>
    rw [TcpServer.step]
    split_ifs with running
    · exact h.panic running
    · exact h

end

end

theorem run_counted (env : DeliveryPolicy) (config : ListenerConfig)
    (events : List ListenerEvent) : Counted config (TcpServer.run env config .new events) :=
  List.foldlRecOn events _ (counted_new config) fun _ h event _ => h.step env event

theorem length_le_of_keys {α β : Type*} [DecidableEq β] (key : α → β) {k : ℕ} (keys : List β)
    (items : List α) (inside : ∀ item ∈ items, key item ∈ keys)
    (few : ∀ b, (items.filter (key · = b)).length ≤ k) : items.length ≤ keys.length * k := by
  induction keys generalizing items with
  | nil =>
    rw [List.eq_nil_iff_forall_not_mem.mpr fun item member => List.not_mem_nil (inside item member)]
    exact Nat.zero_le _
  | cons b keys ih =>
    have rest := ih (items.filter fun item => !decide (key item = b)) (fun item member => ?_)
      fun c => (((List.filter_sublist ..).filter _).length_le).trans (few c)
    · have parts := @List.length_eq_length_filter_add _ items fun item => decide (key item = b)
      have here := few b
      rw [List.length_cons, Nat.succ_mul]
      omega
    · obtain ⟨present, other⟩ := List.mem_filter.mp member
      exact (List.mem_cons.mp (inside item present)).resolve_left (by simpa using other)

def openConns (s : TcpServer) : List ConnectionId :=
  ((s.server.sessions.zip s.tasks).filter (·.2.counts)).map (·.1.session.connId)

section
variable {config : ListenerConfig} {s : TcpServer}

theorem openConns_length (h : Counted config s) : (openConns s).length = slots s.tasks := by
  rw [openConns, List.length_map, ← List.countP_eq_length_filter, slots]
  conv_rhs => rw [← @List.map_snd_zip _ _ s.server.sessions _ h.aligned.le]
  rw [List.countP_map]
  rfl

theorem mem_openConns (h : Counted config s) {l : Ledger} (held : Holding config.session s.server l)
    {entry : LiveSub} (live : entry ∈ l.live) : entry.conn ∈ openConns s := by
  obtain ⟨-, i, seat, found, conn, runs⟩ := held.owned entry live
  obtain ⟨inside, at_i⟩ := List.getElem?_eq_some_iff.mp found
  obtain ⟨task, there⟩ : ∃ task, s.tasks[i]? = some task :=
    ⟨_, List.getElem?_eq_getElem (h.aligned ▸ inside)⟩
  have counts : task.counts = true := by
    cases task with
    | ended =>
      obtain ⟨seat', found', done⟩ := h.ended i there
      rw [found] at found'
      exact absurd (Option.some.inj found' ▸ done) runs
    | running => rfl
    | panicked => rfl
  refine List.mem_map.mpr ⟨(seat, task), List.mem_filter.mpr ⟨?_, counts⟩, conn⟩
  exact List.mem_of_getElem? (List.getElem?_zip_eq_some.mpr ⟨found, there⟩)

end

/-- In every state of a server: the counter is right, it never passes the limit, and
there are never more live subscriptions than the two limits allow together. -/
theorem connections_and_subscriptions_limited (env : DeliveryPolicy) (config : ListenerConfig)
    (events : List ListenerEvent) :
    let s := TcpServer.run env config .new events
    s.active = slots s.tasks + s.phase.waiting ∧ s.active ≤ config.maxConnections ∧
      (values s.server.broker.registry.subscriptions).length ≤
        config.maxConnections * config.session.maxSubscriptionsPerConnection := by
  intro s
  have h : Counted config s := run_counted env config events
  obtain ⟨l, held⟩ := h.held
  refine ⟨h.counted, h.limited, ?_⟩
  rw [← List.length_map RegistryRefinement.toLive, held.refines.registry.subs]
  have bound := length_le_of_keys (·.conn) (openConns s) l.live
    (fun entry live => mem_openConns h held live) held.limited
  rw [openConns_length h] at bound
  have counted := h.counted
  have limited := h.limited
  exact bound.trans (Nat.mul_le_mul_right _ (by omega))

end ZetMQ.Listener
