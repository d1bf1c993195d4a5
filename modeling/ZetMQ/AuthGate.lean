import ZetMQ.SessionLoop

/-! Nothing takes effect before authentication. Until a `CONNECT` with configured
credentials is processed, a session keeps its first state, sends nothing but `PONG`
and `ERROR`, and touches nothing of the broker but the count of protocol errors. -/
namespace ZetMQ.AuthGate
open Utf8Text ByteBuffer Frames KeyedTable SubjectGrammar Delivery Broker SubscriptionLedger
open Commands Permissions PubFastPath SessionLoop

/-- The credentials of the `CONNECT` frame that the next turn processes, if it does. -/
def presented (config : ServerConfig) (h : Host) : Option AuthInfo :=
  if h.position ≠ .frames ∨
      (h.session.state = .connected ∧ nextFrameIsPub h.session.readBuf = true) then none
  else match (Frame.decodeFrom h.session.readBuf config.maxFrameSize).1 with
    | .ok (some frame) =>
      match BrokerCommand.fromFrame frame with
      | .ok (.connect c) => some c.auth
      | _ => none
    | _ => none

theorem presented_connect {config : ServerConfig} {h : Host} {frame : Frame} {rest : Bytes}
    {c : ConnectCommand} (framing : h.position = .frames)
    (generic : ¬(h.session.state = .connected ∧ nextFrameIsPub h.session.readBuf = true))
    (decoded : Frame.decodeFrom h.session.readBuf config.maxFrameSize = (.ok (some frame), rest))
    (command : BrokerCommand.fromFrame frame = .ok (.connect c)) :
    presented config h = some c.auth := by
  rw [presented, if_neg (not_or.mpr ⟨not_not.mpr framing, generic⟩), decoded]
  simp only [command]

def Guarded (config : ServerConfig) : Prop :=
  config.auth.authType = "token".toList ∧ config.auth.token ≠ none ∨
    config.auth.authType = "userpass".toList

def Admitted (config : ServerConfig) (auth : AuthInfo) : Prop :=
  (config.auth.authType = "token".toList ∧
    ∃ token, config.auth.token = some token ∧ auth = .token token) ∨
  config.auth.authType = "userpass".toList ∧
    ∃ user ∈ config.auth.users, auth = .userPass user.username user.password

theorem admitted_of_validateAuth {config : ServerConfig} (guarded : Guarded config)
    {auth : AuthInfo} {ctx : AuthContext} (valid : validateAuth auth config = .ok ctx) :
    Admitted config auth := by
  unfold validateAuth at valid
  rcases guarded with ⟨kind, configured⟩ | kind
  · have enabled : config.auth.isEnabled = true := by
      rw [AuthConfig.isEnabled, kind]
      decide
    rw [enabled, kind] at valid
    cases auth with
    | token token =>
      obtain ⟨expected, isToken⟩ := Option.ne_none_iff_exists'.mp configured
      simp only [Bool.not_true, Bool.false_eq_true, if_false, if_true, isToken,
        Option.getD_some] at valid
      split_ifs at valid with same
      exact .inl ⟨kind, expected, isToken, same ▸ rfl⟩
    | none => simp at valid
    | userPass username password => simp at valid
  · have enabled : config.auth.isEnabled = true := by
      rw [AuthConfig.isEnabled, kind]
      decide
    have notToken : "userpass".toList ≠ "token".toList := by decide
    rw [enabled, kind] at valid
    simp only [Bool.not_true, Bool.false_eq_true, if_false, notToken, if_true] at valid
    cases auth with
    | userPass username password =>
      dsimp only at valid
      split at valid
      · rename_i user found
        have same := List.find?_some found
        rw [Bool.and_eq_true, decide_eq_true_eq, decide_eq_true_eq] at same
        exact .inr ⟨kind, user, List.mem_of_find?_eq_some found, by rw [same.1, same.2]⟩
      · cases valid
    | none => cases valid
    | token token => cases valid

structure Outside (s : Session) : Prop where
  state : s.state = .new
  rights : s.authCtx = .unrestricted
  unpublished : s.localPublished = 0
  storeOps : s.storeOps = []
  outbound : ∀ frame ∈ s.outbound, frame.header.frameType = FrameType.pong.asU8 ∨
    frame.header.frameType = FrameType.error.asU8

def OnlyErrors (b b' : BrokerCore) : Prop :=
  b' = { b with metrics := { b.metrics with protocolErrors := b'.metrics.protocolErrors } }

theorem outside_start (conn : ConnectionId) : Outside (.start conn) :=
  ⟨rfl, rfl, rfl, rfl, fun _ none => by cases none⟩

theorem Outside.send {h : Host} (outside : Outside h.session) {frame : Frame}
    (kind : frame.header.frameType = FrameType.pong.asU8 ∨
      frame.header.frameType = FrameType.error.asU8) : Outside (h.send frame).session :=
  ⟨outside.state, outside.rights, outside.unpublished, outside.storeOps, fun other member =>
    (List.mem_append.mp member).elim (outside.outbound other) fun new =>
      List.mem_singleton.mp new ▸ kind⟩

theorem Outside.sendError {h : Host} (outside : Outside h.session) (correlationId : ℕ)
    (text : Str) : Outside (h.send (errorFrame correlationId text)).session :=
  outside.send (.inr rfl)

theorem Outside.setBuf {h : Host} (outside : Outside h.session) (readBuf : Bytes) :
    Outside (h.setBuf readBuf).session :=
  ⟨outside.state, outside.rights, outside.unpublished, outside.storeOps, outside.outbound⟩

theorem Outside.flushPublished {h : Host} (outside : Outside h.session) :
    h.flushPublished = h := by
  rw [Host.flushPublished, if_neg]
  rw [outside.unpublished]
  exact Nat.lt_irrefl 0

section
variable {h : Host} (outside : Outside h.session) (env : DeliveryPolicy) {config : ServerConfig}
include outside

theorem handleCommand_outside {cmd : BrokerCommand}
    (refused : ∀ c ctx, cmd = .connect c → validateAuth c.auth config ≠ .ok ctx)
    (correlationId : ℕ) :
    Outside (h.handleCommand env config cmd correlationId).session ∧
      (h.handleCommand env config cmd correlationId).broker = h.broker := by
  have ignored : h.session.state ≠ .connected := by
    rw [outside.state]
    decide
  cases cmd with
  | connect c =>
    rw [Host.handleCommand, Host.handleConnect]
    split
    · rename_i ctx valid
      exact absurd valid (refused c ctx rfl)
    · exact ⟨outside.sendError correlationId _, rfl⟩
  | ping => exact ⟨outside.send (.inl rfl), rfl⟩
  | _ =>
    simp only [Host.handleCommand, if_pos ignored]
    exact ⟨outside, trivial⟩

theorem iterate_outside (framing : h.position = .frames)
    (refused : ∀ auth ctx, presented config h = some auth → validateAuth auth config ≠ .ok ctx)
    (order : PendingOrder) :
    Outside (h.iterate env config order).session ∧
      OnlyErrors h.broker (h.iterate env config order).broker := by
  have generic : ¬(h.session.state = .connected ∧ nextFrameIsPub h.session.readBuf = true) := by
    rw [outside.state]
    rintro ⟨no, -⟩
    cases no
  rw [Host.iterate, if_neg generic]
  obtain ⟨result, rest, decoded⟩ : ∃ result rest,
    Frame.decodeFrom h.session.readBuf config.maxFrameSize = (result, rest) := ⟨_, _, rfl⟩
  rw [decoded]
  have moved := outside.setBuf rest
  match result with
  | .ok (some frame) =>
    dsimp only
    unfold Host.handleFrame
    cases command : BrokerCommand.fromFrame frame with
    | ok cmd =>
      have unknown : ∀ c ctx, cmd = .connect c → validateAuth c.auth config ≠ .ok ctx := by
        rintro c ctx rfl
        exact refused c.auth ctx (presented_connect framing generic decoded command)
      have handled := handleCommand_outside (h := h.setBuf rest) moved env unknown
        frame.header.correlationId
      exact ⟨handled.1, by rw [OnlyErrors, handled.2]; rfl⟩
    | error e => exact ⟨Outside.sendError (h := (h.setBuf rest).incProtocolErrors) moved 0 _, rfl⟩
  | .ok none =>
    dsimp only
    rw [moved.flushPublished]
    exact ⟨moved, rfl⟩
  | .error e =>
    dsimp only
    rw [moved.flushPublished]
    exact ⟨Outside.sendError (h := (h.setBuf rest).incProtocolErrors.setBuf [])
      (outside.setBuf []) 0 _, rfl⟩

end

def ofReadLoop : Event → Bool
  | .close => false
  | .elsewhere _ => false
  | _ => true

def Unauthenticated (env : DeliveryPolicy) (config : ServerConfig) : Host → List Event → Prop
  | _, [] => True
  | h, event :: rest =>
    (∀ order auth, event = .turn order → presented config h = some auth →
      ¬Admitted config auth) ∧
      Unauthenticated env config (h.step env config event) rest

theorem step_outside (env : DeliveryPolicy) {config : ServerConfig} (guarded : Guarded config)
    {h : Host} (outside : Outside h.session) (event : Event)
    (refused : ∀ order auth, event = .turn order → presented config h = some auth →
      ¬Admitted config auth) :
    Outside (h.step env config event).session ∧
      (ofReadLoop event = true → OnlyErrors h.broker (h.step env config event).broker) := by
  have unknown : h.session.state ≠ .connected := by
    rw [outside.state]
    decide
  cases event with
  | received bytes =>
    simp only [Host.step]
    split_ifs
    · exact ⟨outside, fun _ => rfl⟩
    · exact ⟨outside, fun _ => rfl⟩
    · exact ⟨outside.setBuf _, fun _ => rfl⟩
  | readFailed =>
    simp only [Host.step]
    split_ifs <;> exact ⟨outside, fun _ => rfl⟩
  | tick elapsed =>
    simp only [Host.step, Host.tick, if_pos unknown]
    split_ifs <;> exact ⟨outside, fun _ => rfl⟩
  | shutdown late =>
    simp only [Host.step, Host.shutdown, if_neg unknown]
    split_ifs <;> exact ⟨outside, fun _ => rfl⟩
  | turn order =>
    simp only [Host.step]
    split_ifs with framing
    · obtain ⟨still, same⟩ := iterate_outside outside env framing
        (fun auth ctx given valid =>
          refused order auth rfl given (admitted_of_validateAuth guarded valid)) order
      exact ⟨still, fun _ => same⟩
    · exact ⟨outside, fun _ => rfl⟩
  | close =>
    simp only [Host.step, Host.close, outside.flushPublished]
    split_ifs <;> exact ⟨outside, fun no => by cases no⟩
  | elsewhere op => exact ⟨outside, fun no => by cases no⟩

theorem run_outside {env : DeliveryPolicy} {config : ServerConfig} (guarded : Guarded config)
    (events : List Event) {h : Host} (outside : Outside h.session) {rest : List Event}
    (unauthenticated : Unauthenticated env config h (events ++ rest)) :
    Outside (h.run env config events).session ∧
      Unauthenticated env config (h.run env config events) rest := by
  induction events generalizing h with
  | nil => exact ⟨outside, unauthenticated⟩
  | cons event events ih =>
    exact ih (step_outside env guarded outside event unauthenticated.1).1 unauthenticated.2

/-- State and permissions of a session. -/
def standing (h : Host) : SessionState × AuthContext := (h.session.state, h.session.authCtx)

theorem flushPublished_standing (h : Host) : standing h.flushPublished = standing h := by
  unfold Host.flushPublished
  split <;> rfl

theorem addPublished_standing (h : Host) (published : ℕ) :
    standing (h.addPublished published) = standing h := by
  unfold Host.addPublished
  dsimp only
  split
  · exact flushPublished_standing _
  · rfl

theorem fastPath_standing (env : DeliveryPolicy) (config : ServerConfig) (order : PendingOrder)
    (h : Host) : standing (h.fastPath env config order) = standing h := by
  unfold Host.fastPath
  dsimp only
  split
  · exact addPublished_standing _ _
  · rfl
  · rfl

theorem dispatch_standing (env : DeliveryPolicy) (h : Host) (cmd : BrokerCommand)
    (correlationId : ℕ) : standing (h.dispatch env cmd correlationId) = standing h := by
  cases cmd with
  | publish p =>
    simp only [Host.dispatch, Host.dispatchPublish]
    split <;> rfl
  | subscribe s =>
    simp only [Host.dispatch, Host.dispatchSubscribe]
    split <;> rfl
  | _ => rfl

theorem handleCommand_standing (env : DeliveryPolicy) {config : ServerConfig} (h : Host)
    {cmd : BrokerCommand}
    (refused : ∀ c ctx, cmd = .connect c → validateAuth c.auth config ≠ .ok ctx)
    (correlationId : ℕ) :
    standing (h.handleCommand env config cmd correlationId) = standing h := by
  cases cmd with
  | connect c =>
    rw [Host.handleCommand, Host.handleConnect]
    split
    · rename_i ctx valid
      exact absurd valid (refused c ctx rfl)
    · rfl
  | ping => rfl
  | subscribe s =>
    simp only [Host.handleCommand]
    split
    · rfl
    · split
      · rfl
      · exact dispatch_standing env h _ correlationId
  | publish p =>
    simp only [Host.handleCommand]
    split
    · rfl
    · split
      · rfl
      · exact dispatch_standing env _ _ correlationId
  | _ =>
    simp only [Host.handleCommand]
    split
    · rfl
    · exact dispatch_standing env h _ correlationId

theorem turn_standing (env : DeliveryPolicy) {config : ServerConfig} (h : Host)
    (refused : ∀ auth ctx, presented config h = some auth → validateAuth auth config ≠ .ok ctx)
    (order : PendingOrder) : standing (h.step env config (.turn order)) = standing h := by
  rw [Host.step]
  split
  · rename_i framing
    rw [Host.iterate]
    split
    · exact fastPath_standing env config order h
    · rename_i generic
      split
      · rename_i frame rest decoded
        unfold Host.handleFrame
        split
        · rename_i cmd command
          refine handleCommand_standing env (h.setBuf rest) ?_ _
          rintro c ctx rfl
          exact refused c.auth ctx (presented_connect framing generic decoded command)
        · rfl
      · exact flushPublished_standing _
      · exact flushPublished_standing (h.setBuf _)
  · rfl

/-- At any moment of a run that has not taken a `CONNECT` with configured
credentials, the read loop changes nothing of the broker but its count of protocol
errors, and the session is as it started but for `PONG` and `ERROR` frames sent; and
no `CONNECT` that fails, at any time, changes state or permissions. -/
theorem nothing_before_authentication (env : DeliveryPolicy) {config : ServerConfig}
    (guarded : Guarded config) (b : BrokerCore) (conn : ConnectionId) (events : List Event)
    (event : Event)
    (unauthenticated :
      Unauthenticated env config ⟨b, .start conn, .select⟩ (events ++ [event])) :
    let h := Host.run env config ⟨b, .start conn, .select⟩ events
    let h' := h.step env config event
    (ofReadLoop event = true → OnlyErrors h.broker h'.broker) ∧ Outside h'.session ∧
      ∀ (host : Host) (order : PendingOrder),
        (∀ auth ctx, presented config host = some auth → validateAuth auth config ≠ .ok ctx) →
        standing (host.step env config (.turn order)) = standing host := by
  intro h h'
  obtain ⟨outside, next⟩ := run_outside guarded events
    (h := ⟨b, .start conn, .select⟩) (outside_start conn) unauthenticated
  obtain ⟨still, same⟩ := step_outside env guarded outside event next.1
  exact ⟨same, still, fun host order refused => turn_standing env host refused order⟩

def secretToken : ServerConfig :=
  ⟨2097152, 30, 60, 1000, ⟨"token".toList, some "secret".toList, []⟩⟩

def connectFrame (token : Str) : Frame :=
  (Frame.new .connect 1).withPayload (1 :: toBe 2 (encode token).length ++ encode token)

set_option maxRecDepth 4000 in
theorem wrong_token_stays_out :
    let h := Host.run (fun _ _ _ => .delivered) secretToken ⟨.new, .start 1, .select⟩
      [.received (connectFrame "guess".toList).encode]
    presented secretToken h = some (.token "guess".toList) ∧
      Outside (h.step (fun _ _ _ => .delivered) secretToken (.turn (.stored _ _))).session := by
  intro h
  have given : presented secretToken h = some (.token "guess".toList) := by decide
  refine ⟨given, (nothing_before_authentication (fun _ _ _ => .delivered) (.inl (by decide)) .new 1
    [.received (connectFrame "guess".toList).encode] (.turn (.stored _ _)) ⟨?_, ?_, trivial⟩).2.1⟩
  · intro order auth isTurn
    cases isTurn
  · intro order auth _ shown
    obtain rfl := Option.some.inj (given.symm.trans shown)
    rintro (⟨-, token, configured, same⟩ | ⟨kind, -⟩)
    · obtain rfl := Option.some.inj configured
      exact absurd same (by decide)
    · exact absurd kind (by decide)

end ZetMQ.AuthGate
