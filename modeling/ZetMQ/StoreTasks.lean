import ZetMQ.ServerHoldings
import ZetMQ.StreamReplies
import ZetMQ.TaskPool

/-! The stream store behind the sessions. A session does not wait for the store: each of
its requests is spawned as a task that does its work under the lock of the store, whenever
it gets to run, and later offers its reply to the outbound channel, which refuses it when
it is full or closed. -/
namespace ZetMQ.StoreTasks
open Utf8Text Frames KeyedTable Delivery SubscriptionLedger Commands Permissions SessionLoop
open ServerSessions TurnEffects ServerHoldings Streams StreamStore AgeLimit StreamReplies TaskPool

structure StoreTask where
  conn : ConnectionId
  op : StoreOp
deriving DecidableEq

/-- A `NACK` is only logged. -/
def spawns : StoreOp → Bool
  | .nack _ _ => false
  | _ => true

def answers : StoreOp → Bool
  | .createStream _ _ _ _ => true
  | .deleteStream _ => true
  | _ => false

/-- What a task does to the store, and the reply it makes for its connection. -/
def perform (manager : ConsumerManager) (task : StoreTask) :
    List (ConnectionId × Frame) × ConsumerManager :=
  match task.op with
  | .createStream name maxMsgs maxBytes maxAgeSecs =>
    let (frame, store) := createStreamReply manager.store ⟨name, maxMsgs, maxBytes, maxAgeSecs⟩
    ([(task.conn, frame)], { manager with store := store })
  | .deleteStream name =>
    ([(task.conn, Frame.new .streamInfo 0)],
      { manager with store := manager.store.deleteStream name })
  | .ack stream consumer sequence => ([], (manager.ack stream consumer sequence).2)
  | .nack _ _ => ([], manager)

structure StoreServer where
  server : Server
  pool : Pool StoreTask ConsumerManager (ConnectionId × Frame)

/-- A step of the server, of a task under the lock, or of one that offers its reply. -/
inductive StoreServerEvent where
  | serve (event : ServerEvent)
  | work (k : ℕ)
  | offer (k : ℕ) (taken : Bool)

def spawned (before after : Seat) : List StoreTask :=
  ((after.session.storeOps.drop before.session.storeOps.length).filter spawns).map
    (⟨before.session.connId, ·⟩)

def issued (server server' : Server) : ServerEvent → List StoreTask
  | .accept => []
  | .session i _ _ =>
    match server.sessions[i]?, server'.sessions[i]? with
    | some before, some after => spawned before after
    | _, _ => []

namespace StoreServer

def start : StoreServer := ⟨.start, .start .new⟩

variable (env : DeliveryPolicy) (config : ServerConfig)

def step (s : StoreServer) : StoreServerEvent → StoreServer
  | .serve event =>
    let server := s.server.step env config event
    ⟨server, s.pool.spawn (issued s.server server event)⟩
  | .work k => { s with pool := s.pool.work perform k }
  | .offer k taken => { s with pool := s.pool.offer k taken }

def run (s : StoreServer) (events : List StoreServerEvent) : StoreServer :=
  events.foldl (step env config) s

end StoreServer

def tasksOf (s : Session) : List StoreTask := (s.storeOps.filter spawns).map (⟨s.connId, ·⟩)

theorem stepKind_ops {config : ServerConfig} {h h' : Host} (kind : StepKind config h h') :
    ∃ new, h'.session.storeOps = h.session.storeOps ++ new := by
  cases kind with
  | still _ kept => exact ⟨[], by rw [kept.ops, List.append_nil]⟩
  | close _ kept => exact ⟨[], by rw [kept.ops, List.append_nil]⟩
  | turn effect =>
    cases effect.change with
    | traffic _ ops => exact ⟨[], by rw [ops, List.append_nil]⟩
    | subscribed _ _ _ _ ops => exact ⟨[], by rw [ops, List.append_nil]⟩
    | unsubscribed _ _ ops => exact ⟨[], by rw [ops, List.append_nil]⟩
    | stored op _ ops => exact ⟨[op], ops⟩

structure Tracked (config : ServerConfig) (s : StoreServer) (all : List StoreTask) : Prop where
  held : ∃ l, Holding config s.server l
  known : ∀ task ∈ all, task.conn < s.server.connCounter
  own : ∀ (i : ℕ) seat, s.server.sessions[i]? = some seat →
    all.filter (·.conn = seat.session.connId) = tasksOf seat.session
  sound : Sound perform .new all s.pool

theorem tracked_start (config : ServerConfig) : Tracked config .start [] where
  held := ⟨.empty, holding_start config⟩
  known task member := by cases member
  own i seat found := by cases found
  sound := sound_start

section
variable {config : ServerConfig} {s : StoreServer} {all : List StoreTask}

theorem Tracked.accept (h : Tracked config s all) (env : DeliveryPolicy) :
    Tracked config (s.step env config (.serve .accept)) all := by
  obtain ⟨l, held⟩ := h.held
  refine ⟨step_holding env config held .accept,
    fun task member => Nat.lt_succ_of_lt (h.known task member), fun i seat found => ?_, ?_⟩
  · rcases getElem?_concat_cases found with old | ⟨-, rfl⟩
    · exact h.own i seat old
    · -- no task has been spawned for the new number
      exact List.filter_eq_nil_iff.mpr fun task member same =>
        (h.known task member).ne (of_decide_eq_true same)
  · have nothing := h.sound.spawn []
    rwa [List.append_nil] at nothing

theorem mem_spawned {before after : Seat} {task : StoreTask}
    (member : task ∈ spawned before after) :
    task.conn = before.session.connId := by
  obtain ⟨op, -, rfl⟩ := List.mem_map.mp member
  rfl

theorem tasksOf_after {before after : Seat}
    (connId : after.session.connId = before.session.connId)
    (grown : ∃ new, after.session.storeOps = before.session.storeOps ++ new) :
    tasksOf after.session = tasksOf before.session ++ spawned before after := by
  obtain ⟨new, grown⟩ := grown
  rw [tasksOf, tasksOf, spawned, connId, grown, List.drop_left, List.filter_append, List.map_append]

theorem filter_spawned (before after : Seat) (conn : ConnectionId) :
    (spawned before after).filter (·.conn = conn) =
      if before.session.connId = conn then spawned before after else [] := by
  split_ifs with same
  · exact List.filter_eq_self.mpr fun task member => by simpa [mem_spawned member] using same
  · exact List.filter_eq_nil_iff.mpr fun task member => by simpa [mem_spawned member] using same

theorem Tracked.session (h : Tracked config s all) (env : DeliveryPolicy) (i : ℕ) (event : Event)
    (own : ∀ op, event ≠ .elsewhere op) :
    ∃ all', Tracked config (s.step env config (.serve (.session i event own))) all' := by
  obtain ⟨l, held⟩ := h.held
  have held' := step_holding env config held (.session i event own)
  rw [StoreServer.step]
  cases found : s.server.sessions[i]? with
  | none =>
    have still : s.server.step env config (.session i event own) = s.server := by
      rw [Server.step, found]
    have nothing : issued s.server s.server (.session i event own) = [] := by
      rw [issued, found]
    rw [still, nothing]
    exact ⟨all ++ [], h.held, by simpa using h.known, by simpa using h.own, h.sound.spawn []⟩
  | some seat =>
    have kind := step_kind env config (s.server.host seat) event own
    generalize moves : (s.server.host seat).step env config event = host at kind
    have stepped : s.server.step env config (.session i event own) =
        moved s.server i host.broker ⟨host.session, host.position⟩ := by
      rw [Server.step, found, ← moves]
      rfl
    have after : (moved s.server i host.broker ⟨host.session, host.position⟩).sessions[i]? =
        some ⟨host.session, host.position⟩ :=
      List.getElem?_set_self (List.getElem?_eq_some_iff.mp found).1
    have new : issued s.server (moved s.server i host.broker ⟨host.session, host.position⟩)
        (.session i event own) = spawned seat ⟨host.session, host.position⟩ := by
      rw [issued, found, after]
    rw [stepped] at held' ⊢
    rw [new]
    refine ⟨all ++ spawned seat ⟨host.session, host.position⟩, held', fun task member => ?_,
      fun j seat' found' => ?_, h.sound.spawn _⟩
    · rcases List.mem_append.mp member with old | new
      · exact h.known task old
      · rw [mem_spawned new]
        exact held.numbered i seat found
    · rw [List.filter_append, filter_spawned]
      rcases getElem?_set_cases found' with ⟨-, rfl⟩ | ⟨different, old⟩
      · have connId : host.session.connId = seat.session.connId := kind.connId
        dsimp only
        rw [connId, if_pos rfl, h.own i seat found]
        exact (tasksOf_after kind.connId (stepKind_ops kind)).symm
      · rw [if_neg fun same => different (held.distinct i j seat seat' found old same).symm,
          List.append_nil]
        exact h.own j seat' old

theorem Tracked.step (h : Tracked config s all) (env : DeliveryPolicy) (event : StoreServerEvent) :
    ∃ all', Tracked config (s.step env config event) all' := by
  cases event with
  | serve event =>
    cases event with
    | accept => exact ⟨all, h.accept env⟩
    | session i event own => exact h.session env i event own
  | work k => exact ⟨all, h.held, h.known, h.own, h.sound.work k⟩
  | offer k taken => exact ⟨all, h.held, h.known, h.own, h.sound.offer k taken⟩

end

theorem run_tracked (env : DeliveryPolicy) (config : ServerConfig)
    (events : List StoreServerEvent) :
    ∃ all, Tracked config (StoreServer.run env config .start events) all :=
  List.foldlRecOn events _ (motive := fun s => ∃ all, Tracked config s all)
    ⟨[], tracked_start config⟩ fun _ h event _ => h.elim fun _ tracked => tracked.step env event

theorem perform_replies (manager : ConsumerManager) (task : StoreTask) (conn : ConnectionId) :
    ((perform manager task).1.filter (·.1 = conn)).length =
      [task].countP fun task => task.conn = conn ∧ answers task.op := by
  obtain ⟨owner, op⟩ := task
  cases op <;> by_cases same : owner = conn <;> simp [perform, answers, same]

theorem serial_replies (manager : ConsumerManager) (tasks : List StoreTask) (conn : ConnectionId) :
    ((serial perform manager tasks).1.filter (·.1 = conn)).length =
      tasks.countP fun task => task.conn = conn ∧ answers task.op := by
  induction tasks generalizing manager with
  | nil => rfl
  | cons task tasks ih =>
    rw [serial, List.filter_append, List.length_append, ih, perform_replies,
      ← List.countP_append, List.singleton_append]

private def storeServer : ServerConfig := ⟨2097152, 30, 60, 1000, ⟨"none".toList, none, []⟩⟩

private def createAndDelete : Bytes :=
  (Frame.new .connect 1).encode ++
    ((Frame.new .createStream 2).withPayload
      (CreateStreamCommand.encodePayload ⟨['s'], 0, 0, 0⟩)).encode ++
    ((Frame.new .deleteStream 3).withPayload (DeleteStreamCommand.encodePayload ⟨['s']⟩)).encode

private def bothPending : List StoreServerEvent :=
  [.serve .accept, .serve (.session 0 (.received createAndDelete) (by simp))] ++
    List.replicate 3 (.serve (.session 0 (.turn (.stored _ _)) turn_own))

private def delivers : DeliveryPolicy := fun _ _ _ => .delivered

private def oneRefused : List StoreServerEvent := bothPending ++ [.work 0, .offer 0 false]

private def refusedServer : StoreServer := StoreServer.run delivers storeServer .start oneRefused

set_option maxRecDepth 20000 in
private theorem creator_seated : refusedServer.server.sessions[0]?.isSome = true := by decide

structure Unused (manager : ConsumerManager) : Prop where
  consumers : manager.consumers = ∅
  streams : ∀ name stream, manager.store.streams.lookup name = some stream →
    stream = Stream.new name stream.config

theorem createStreamReply_store (store : MemoryStore) (cmd : CreateStreamCommand) :
    (createStreamReply store cmd).2 = (store.createStream cmd.name (configOf cmd)).2 := by
  rw [createStreamReply]
  split <;> rename_i made <;> rw [made]

theorem Unused.perform {manager : ConsumerManager} (h : Unused manager) (task : StoreTask) :
    Unused (perform manager task).2 := by
  obtain ⟨conn, op⟩ := task
  cases op with
  | createStream name maxMsgs maxBytes maxAgeSecs =>
    refine ⟨h.consumers, fun other stream found => ?_⟩
    change (createStreamReply manager.store _).2.streams.lookup other = _ at found
    rw [createStreamReply_store, MemoryStore.createStream] at found
    split at found
    · exact h.streams other stream found
    · rcases lookup_insert_eq_some.mp found with ⟨rfl, rfl⟩ | ⟨-, old⟩
      · rfl
      · exact h.streams other stream old
  | deleteStream name =>
    refine ⟨h.consumers, fun other stream found => ?_⟩
    exact h.streams other stream (lookup_erase_eq_some.mp found).2
  | ack stream consumer sequence =>
    change Unused (manager.ack stream consumer sequence).2
    rw [ConsumerManager.ack, h.consumers]
    exact h
  | nack stream sequence => exact h

/-- Whatever clients publish and whatever the order of the tasks: no consumer is registered,
every stream is as it was created, and every `ACK` is refused. -/
theorem store_stays_empty (env : DeliveryPolicy) (config : ServerConfig)
    (events : List StoreServerEvent) :
    let manager := (StoreServer.run env config .start events).pool.state
    manager.consumers = ∅ ∧
    (∀ name stream, manager.store.streams.lookup name = some stream →
      stream = Stream.new name stream.config) ∧
    ∀ stream consumer sequence, manager.ack stream consumer sequence = (false, manager) := by
  intro manager
  obtain ⟨all, tracked⟩ := run_tracked env config events
  have unused : Unused manager := by
    have kept := serial_induction perform (P := Unused) (fun _ task unused => unused.perform task)
      (⟨rfl, fun name stream found => by cases found⟩ : Unused .new)
      (StoreServer.run env config .start events).pool.done
    rwa [tracked.sound.state] at kept
  refine ⟨unused.consumers, unused.streams, fun stream consumer sequence => ?_⟩
  rw [ConsumerManager.ack, unused.consumers]
  rfl

private def createdServer : StoreServer :=
  StoreServer.run delivers storeServer .start (bothPending ++ [.work 0])

set_option maxRecDepth 20000 in
private theorem stream_created :
    (createdServer.pool.state.store.streams.lookup ['s']).isSome = true := by decide

theorem created_stream_stays_empty :
    ∃ stream, createdServer.pool.state.store.streams.lookup ['s'] = some stream ∧
      stream = Stream.new ['s'] stream.config := by
  obtain ⟨-, fresh, -⟩ := store_stays_empty delivers storeServer (bothPending ++ [.work 0])
  rw [← createdServer] at fresh
  obtain ⟨stream, found⟩ := Option.isSome_iff_exists.mp stream_created
  exact ⟨stream, found, fresh _ stream found⟩

end ZetMQ.StoreTasks
