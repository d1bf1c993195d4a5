import ZetMQ.ServerSessions
import ZetMQ.TurnEffects

/-! What the sessions of a server hold between them. Every live subscription belongs to
one session that has not ended and delivers into the channel of that session; no
connection has more of them than the limit. -/
namespace ZetMQ.ServerHoldings
open Utf8Text KeyedTable SubjectGrammar WildcardTrie Delivery Registry Broker SubscriptionLedger
open DeliveryFrame BrokerRefinement RunRefinement Permissions SessionLoop SessionSteps
open ServerSessions TurnEffects

/-- What an event of its own does to a session: a turn, the cleanup, or something that
leaves the broker and the books alone. -/
inductive StepKind (config : ServerConfig) (h h' : Host) : Prop
  | turn (effect : TurnEffect config h h') (runs : h'.position ≠ .finished)
  | close (broker : h'.broker = h.flushPublished.broker.removeConnection h.session.connId)
      (kept : Kept h.session h'.session) (ended : h'.position = .finished)
  | still (broker : h'.broker = h.broker) (kept : Kept h.session h'.session)
      (position : h'.position = .finished ↔ h.position = .finished)

theorem StepKind.connId {config : ServerConfig} {h h' : Host} (kind : StepKind config h h') :
    h'.session.connId = h.session.connId := by
  cases kind with
  | turn effect => exact effect.connId
  | close _ kept => exact kept.connId
  | still _ kept => exact kept.connId

theorem step_kind (env : DeliveryPolicy) (config : ServerConfig) (h : Host) (event : Event)
    (own : ∀ op, event ≠ .elsewhere op) : StepKind config h (h.step env config event) := by
  have nothing : StepKind config h h := .still rfl ⟨rfl, rfl⟩ Iff.rfl
  have moved {h' : Host} (here : h.position = .select) (broker : h'.broker = h.broker)
      (kept : Kept h.session h'.session) (there : h'.position ≠ .finished) :
      StepKind config h h' :=
    .still broker kept (by simp [here, there])
  cases event with
  | received bytes =>
    simp only [Host.step]
    split_ifs with here
    · exact nothing
    · exact moved (not_not.mp here) rfl ⟨rfl, rfl⟩ (by simp)
    · exact moved (not_not.mp here) rfl ⟨rfl, rfl⟩ (by simp)
  | readFailed =>
    simp only [Host.step]
    split_ifs with here
    · exact moved here rfl ⟨rfl, rfl⟩ (by simp)
    · exact nothing
  | tick elapsed =>
    simp only [Host.step, Host.tick]
    split_ifs with here
    · exact nothing
    · exact moved here rfl ⟨rfl, rfl⟩ (by simp)
    · exact moved here rfl ⟨rfl, rfl⟩ (by simp)
    · exact moved here rfl ⟨rfl, rfl⟩ (by simp)
    · exact nothing
  | shutdown late =>
    simp only [Host.step, Host.shutdown]
    split_ifs with here
    · exact moved here rfl ⟨rfl, rfl⟩ (by simp)
    · exact moved here rfl ⟨rfl, rfl⟩ (by simp)
    · exact nothing
  | turn order =>
    simp only [Host.step]
    split_ifs with here
    · refine .turn (iterate_effect env config order h) ?_
      rcases (FrameLoopEnds.iterate_turned env config order h).position with same | left
      · simp [same, here]
      · simp [left]
    · exact nothing
  | close =>
    simp only [Host.step]
    split_ifs with here
    · have kept := flushPublished_kept h
      refine .close ?_ ⟨kept.connId, kept.ops⟩ rfl
      change h.flushPublished.broker.removeConnection h.flushPublished.session.connId = _
      rw [kept.connId]
    · exact nothing
  | elsewhere op => exact absurd rfl (own op)

def heldBy (l : Ledger) (conn : ConnectionId) : List LiveSub := l.live.filter (·.conn = conn)

structure Holding (config : ServerConfig) (server : Server) (l : Ledger) : Prop where
  refines : Refines server.broker l
  numbered : ∀ (i : ℕ) seat, server.sessions[i]? = some seat →
    seat.session.connId < server.connCounter
  distinct : ∀ (i j : ℕ) seat seat', server.sessions[i]? = some seat →
    server.sessions[j]? = some seat' → seat.session.connId = seat'.session.connId → i = j
  owned : ∀ entry ∈ l.live, entry.handle = channelOf entry.conn ∧
    ∃ (i : ℕ) (seat : Seat), server.sessions[i]? = some seat ∧
      seat.session.connId = entry.conn ∧ seat.position ≠ .finished
  limited : ∀ conn, (heldBy l conn).length ≤ config.maxSubscriptionsPerConnection

theorem holding_start (config : ServerConfig) : Holding config .start .empty where
  refines := refines_new
  numbered i seat found := by simp [Server.start] at found
  distinct i j seat seat' found := by simp [Server.start] at found
  owned entry member := by simp [Ledger.empty] at member
  limited conn := Nat.zero_le _

theorem mem_subscribe {l : Ledger} {conn : ConnectionId} {pattern : SubjectPattern}
    {group : Option QueueGroupName} {handle : DeliveryHandle} {entry : LiveSub} :
    entry ∈ (l.subscribe conn pattern group handle).live ↔
      entry ∈ l.live ∨ entry = ⟨l.nextId, conn, pattern, group, handle⟩ := by
  rw [Ledger.subscribe, List.mem_append, List.mem_singleton]

/-- The server after a session has moved. -/
def moved (server : Server) (i : ℕ) (b : BrokerCore) (seat : Seat) : Server :=
  { server with broker := b, sessions := server.sessions.set i seat }

section Holding
variable {config : ServerConfig} {server : Server} {l l' : Ledger} {i : ℕ} {seat new : Seat}

section
variable (h : Holding config server l)
include h

theorem Holding.update (at_i : server.sessions[i]? = some seat) {b : BrokerCore}
    (connId : new.session.connId = seat.session.connId) (refines : Refines b l')
    (owned : ∀ entry ∈ l'.live, entry ∈ l.live ∨
      entry.conn = seat.session.connId ∧ entry.handle = channelOf entry.conn)
    (open_ : ∀ entry ∈ l'.live, entry.conn = seat.session.connId → new.position ≠ .finished)
    (limited : ∀ conn, (heldBy l' conn).length ≤ config.maxSubscriptionsPerConnection) :
    Holding config (moved server i b new) l' where
  refines := refines
  numbered j seat' found := by
    rcases getElem?_set_cases found with ⟨-, rfl⟩ | ⟨-, old⟩
    · rw [connId]
      exact h.numbered i seat at_i
    · exact h.numbered j seat' old
  distinct j k seat₁ seat₂ found₁ found₂ same := by
    rcases getElem?_set_cases found₁ with ⟨rfl, rfl⟩ | ⟨-, old₁⟩ <;>
      rcases getElem?_set_cases found₂ with ⟨rfl, rfl⟩ | ⟨-, old₂⟩
    · rfl
    · exact h.distinct _ _ _ _ at_i old₂ (connId.symm.trans same)
    · exact h.distinct _ _ _ _ old₁ at_i (same.trans connId)
    · exact h.distinct _ _ _ _ old₁ old₂ same
  owned entry member := by
    have inside : i < server.sessions.length := (List.getElem?_eq_some_iff.mp at_i).1
    by_cases mine : entry.conn = seat.session.connId
    · refine ⟨?_, i, new, List.getElem?_set_self inside, connId.trans mine.symm,
        open_ entry member mine⟩
      rcases owned entry member with old | ⟨-, handle⟩
      · exact (h.owned entry old).1
      · exact handle
    · rcases owned entry member with old | ⟨own, -⟩
      · obtain ⟨handle, j, seat', found, conn, runs⟩ := h.owned entry old
        refine ⟨handle, j, seat', ?_, conn, runs⟩
        rw [moved, List.getElem?_set_ne (fun same => ?_), found]
        rw [← same, at_i] at found
        exact mine (Option.some.inj found ▸ conn.symm)
      · exact absurd own mine
  limited := limited

theorem limited_keep (test : LiveSub → Bool) (conn : ConnectionId) :
    (heldBy (l.keep test) conn).length ≤ config.maxSubscriptionsPerConnection :=
  (((List.filter_sublist ..).filter _).length_le).trans (h.limited conn)

theorem limited_subscribe {conn : ConnectionId}
    (room : (heldBy l conn).length < config.maxSubscriptionsPerConnection)
    (pattern : SubjectPattern) (group : Option QueueGroupName) (handle : DeliveryHandle)
    (other : ConnectionId) :
    (heldBy (l.subscribe conn pattern group handle) other).length ≤
      config.maxSubscriptionsPerConnection := by
  rw [heldBy, Ledger.subscribe, List.filter_append, List.length_append]
  by_cases same : conn = other
  · subst same
    rw [List.filter_singleton]
    simp only [decide_true, cond_true, List.length_singleton]
    exact room
  · rw [List.filter_singleton]
    simpa [same, heldBy] using h.limited other

theorem Holding.frame (at_i : server.sessions[i]? = some seat) {b : BrokerCore}
    (connId : new.session.connId = seat.session.connId) (same : SameSubscriptions server.broker b)
    (open_ : seat.position ≠ .finished → new.position ≠ .finished) :
    Holding config (moved server i b new) l := by
  refine h.update at_i connId (h.refines.frame same) (fun _ => .inl) (fun entry member mine => ?_)
    h.limited
  obtain ⟨-, j, seat', found, conn, runs⟩ := h.owned entry member
  obtain rfl := h.distinct _ _ _ _ found at_i (conn.trans mine)
  rw [at_i] at found
  exact open_ (Option.some.inj found ▸ runs)

theorem Holding.step_session (at_i : server.sessions[i]? = some seat) {h' : Host}
    (kind : StepKind config (server.host seat) h') :
    ∃ l', Holding config (moved server i h'.broker ⟨h'.session, h'.position⟩) l' := by
  cases kind with
  | still broker kept position =>
    exact ⟨l, h.frame at_i kept.connId (broker ▸ .refl _) (not_imp_not.mpr position.mp)⟩
  | close broker kept ended =>
    refine ⟨l.removeConnection seat.session.connId, ?_⟩
    have refines : Refines h'.broker (l.removeConnection seat.session.connId) := by
      rw [broker]
      exact refines_removeConnection
        (h.refines.frame (flushPublished_quiet (server.host seat)).same) _
    refine h.update at_i kept.connId refines
      (fun entry member => .inl (List.mem_of_mem_filter member))
      (fun entry member mine => ?_) (limited_keep h _)
    have gone := (List.mem_filter.mp member).2
    exact absurd mine (by simpa using gone)
  | turn effect runs =>
    have alive {ledger : Ledger} : ∀ entry ∈ ledger.live, entry.conn = seat.session.connId →
        h'.position ≠ .finished := fun _ _ _ => runs
    cases effect.change with
    | traffic same => exact ⟨l, h.frame at_i effect.connId same fun _ => runs⟩
    | stored op broker =>
      exact ⟨l, h.frame at_i effect.connId (broker ▸ .refl _) fun _ => runs⟩
    | unsubscribed id broker =>
      refine ⟨l.unsubscribe id, h.update at_i effect.connId ?_
        (fun entry member => .inl (List.mem_of_mem_filter member)) alive (limited_keep h _)⟩
      rw [broker]
      exact h.refines.unsubscribe _ id
    | subscribed pattern group room broker =>
      rw [show (server.host seat).broker.subscriptionCountForConnection
        (server.host seat).session.connId = _ from h.refines.count _] at room
      refine ⟨l.subscribe seat.session.connId pattern group (channelOf seat.session.connId),
        h.update at_i effect.connId ?_ (fun entry member => ?_) alive
        (limited_subscribe h room pattern group _)⟩
      · rw [broker]
        exact h.refines.subscribe ..
      · rcases mem_subscribe.mp member with old | rfl
        · exact .inl old
        · exact .inr ⟨rfl, rfl⟩

theorem Holding.skip {n : ℕ} (later : server.connCounter ≤ n) :
    Holding config { server with connCounter := n } l :=
  { h with numbered := fun i seat found => (h.numbered i seat found).trans_le later }

theorem Holding.enroll {conn : ConnectionId} (taken : conn < server.connCounter)
    (fresh : ∀ (i : ℕ) seat, server.sessions[i]? = some seat → seat.session.connId ≠ conn) :
    Holding config { server with sessions := server.sessions ++ [⟨.start conn, .select⟩] } l := by
  refine ⟨h.refines, fun j seat' found => ?_, fun j k seat₁ seat₂ found₁ found₂ same => ?_,
    fun entry member => ?_, h.limited⟩
  · rcases getElem?_concat_cases found with old | ⟨-, rfl⟩
    · exact h.numbered j seat' old
    · exact taken
  · rcases getElem?_concat_cases found₁ with old₁ | ⟨at₁, rfl⟩ <;>
      rcases getElem?_concat_cases found₂ with old₂ | ⟨at₂, rfl⟩
    · exact h.distinct _ _ _ _ old₁ old₂ same
    · exact absurd same (fresh _ _ old₁)
    · exact absurd same.symm (fresh _ _ old₂)
    · exact at₁.trans at₂.symm
  · obtain ⟨handle, j, seat', found, rest⟩ := h.owned entry member
    refine ⟨handle, j, seat', ?_, rest⟩
    rw [List.getElem?_append_left (List.getElem?_eq_some_iff.mp found).1, found]

end

end Holding

section
variable (env : DeliveryPolicy) (config : ServerConfig)

theorem step_holding {server : Server} {l : Ledger} (h : Holding config server l)
    (event : ServerEvent) : ∃ l', Holding config (server.step env config event) l' := by
  cases event with
  | accept =>
    refine ⟨l, (h.skip (Nat.le_succ _)).enroll (Nat.lt_succ_self _) fun i seat found => ?_⟩
    exact (h.numbered i seat found).ne
  | session i event own =>
    rw [Server.step]
    split
    · exact ⟨l, h⟩
    · rename_i seat found
      exact h.step_session found (step_kind env config _ event own)

end

theorem turn_own (op : BrokerOp) : Event.turn (.stored _ _) ≠ .elsewhere op := by simp

end ZetMQ.ServerHoldings
