import ZetMQ.SessionTurns

/-! The loop over the frames of a read buffer comes to an end. Every turn that stays in
it takes at least a frame header off the buffer, whether a frame was handled, a batch was
taken or the buffer was cleared after an error; what other sessions do in between leaves
the buffer alone. -/
namespace ZetMQ.FrameLoopEnds
open Utf8Text ByteBuffer Frames FrameCodec KeyedTable SubjectGrammar Delivery Broker Commands
open Permissions PubFastPath SessionLoop SessionSteps SubscriptionLedger PubFrames SessionTurns

/-- The buffer is as it was, and the loop goes on or was left by a `break`. -/
structure Kept (h h' : Host) : Prop where
  readBuf : h'.session.readBuf = h.session.readBuf
  position : h'.position = h.position ∨ h'.position = .select

variable {h h' : Host} {buf : Bytes} {maxFrameSize limit : ℕ} {loop : PubLoop} {b : BrokerCore}
  (env : DeliveryPolicy) (config : ServerConfig)

theorem Kept.same (readBuf : h'.session.readBuf = h.session.readBuf)
    (position : h'.position = h.position) : Kept h h' := ⟨readBuf, .inl position⟩

theorem dispatchSubscribe_kept (h : Host) (s : SubscribeCommand) (correlationId : ℕ) :
    Kept h (h.dispatchSubscribe s correlationId) := by
  unfold Host.dispatchSubscribe
  split
  · exact .same rfl rfl
  · exact .same rfl rfl

theorem dispatchPublish_kept (h : Host) (p : PublishCommand) :
    Kept h (h.dispatchPublish env p) := by
  unfold Host.dispatchPublish
  split
  · exact .same rfl rfl
  · exact .same rfl rfl

theorem dispatch_kept (h : Host) (cmd : BrokerCommand) (correlationId : ℕ) :
    Kept h (h.dispatch env cmd correlationId) := by
  cases cmd with
  | publish p => exact dispatchPublish_kept env h p
  | subscribe s => exact dispatchSubscribe_kept h s correlationId
  | _ => exact .same rfl rfl

theorem handleConnect_kept (h : Host) (auth : AuthInfo) (correlationId : ℕ) :
    Kept h (h.handleConnect config auth correlationId) := by
  unfold Host.handleConnect
  split
  · exact .same rfl rfl
  · exact ⟨rfl, .inr rfl⟩

theorem handleCommand_kept (h : Host) (cmd : BrokerCommand) (correlationId : ℕ) :
    Kept h (h.handleCommand env config cmd correlationId) := by
  unfold Host.handleCommand
  split
  · exact handleConnect_kept config h _ correlationId
  · exact .same rfl rfl
  · split_ifs
    · exact .same rfl rfl
    · split
      · split
        · exact .same rfl rfl
        · exact dispatch_kept env h _ correlationId
      · dsimp only
        split
        · exact .same rfl rfl
        · obtain ⟨readBuf, position⟩ := dispatch_kept env
            { h with broker := (h.publishRefused _).1 } (.publish _) correlationId
          exact ⟨readBuf, position⟩
      · exact dispatch_kept env h _ correlationId

theorem handleFrame_kept (h : Host) (frame : Frame) : Kept h (h.handleFrame env config frame) := by
  unfold Host.handleFrame
  split
  · exact handleCommand_kept env config h _ _
  · exact .same rfl rfl

/-- What the turns of a batch loop do to the buffer: one that lets the loop go on takes a
frame off it, one that stops the loop changes nothing. -/
structure Shrinks (body : PubLoop → Turn × PubLoop) : Prop where
  next : ∀ {loop loop' : PubLoop}, body loop = (.next, loop') →
    loop'.readBuf.length + frameHeaderSize ≤ loop.readBuf.length ∧
      loop'.processed = loop.processed + 1
  stop : ∀ {loop loop' : PubLoop}, body loop = (.stop, loop') → loop' = loop

theorem length_drop_announced (peeked : Peeked buf maxFrameSize) :
    (buf.drop (Frame.announced buf)).length + frameHeaderSize ≤ buf.length := by
  have whole := peeked.whole
  have header : frameHeaderSize ≤ Frame.announced buf := by
    rw [Frame.announced]
    omega
  rw [List.length_drop]
  omega

theorem skipFrame_shrinks (maxFrameSize : ℕ) : Shrinks (skipFrame maxFrameSize) := by
  constructor <;> intro loop loop' turned <;> unfold skipFrame at turned <;>
    split at turned <;> cases turned
  · rename_i total peek
    obtain ⟨peeked, rfl⟩ := peekPubFrameTotal_some.mp peek
    exact ⟨length_drop_announced peeked, rfl⟩
  · rfl

theorem checkFrame_shrinks (ctx : AuthContext) (maxFrameSize : ℕ) :
    Shrinks (checkFrame ctx maxFrameSize) := by
  constructor <;> intro loop loop' turned <;> unfold checkFrame at turned
  · split at turned
    · cases turned
    · cases turned
    · rename_i layout peek
      obtain ⟨peeked, rfl⟩ := peekPubFrameLayout_some.mp peek
      dsimp only at turned
      split at turned <;> cases turned
      exact ⟨length_drop_announced peeked, rfl⟩
  · split at turned
    · cases turned
    · cases turned
      rfl
    · dsimp only at turned
      split at turned <;> cases turned

theorem decodePublishCommandFromBuf_rest (readBuf : Bytes) (layout : PubFrameLayout) :
    (decodePublishCommandFromBuf readBuf layout).2 = readBuf.drop layout.total := by
  unfold decodePublishCommandFromBuf
  dsimp only
  split
  · rfl
  · split <;> rfl

theorem collectFrame_shrinks (ctx : AuthContext) (maxFrameSize : ℕ) :
    Shrinks (collectFrame ctx maxFrameSize) := by
  constructor <;> intro loop loop' turned <;> unfold collectFrame at turned
  · split at turned
    · cases turned
    · cases turned
    · rename_i layout peek
      obtain ⟨peeked, rfl⟩ := peekPubFrameLayout_some.mp peek
      have left := decodePublishCommandFromBuf_rest loop.readBuf
        (layoutOf loop.readBuf (Frame.announced loop.readBuf))
      split at turned <;> rename_i decoded <;> rw [decoded] at left <;> cases turned
      dsimp only at left ⊢
      rw [left]
      exact ⟨length_drop_announced peeked, rfl⟩
  · split at turned
    · cases turned
    · cases turned
      rfl
    · split at turned <;> cases turned

section Batch
variable {body : PubLoop → Turn × PubLoop} (shrinks : Shrinks body)
include shrinks

theorem pubLoop_length {loop' : PubLoop} (ended : pubLoop body limit loop = (none, loop')) :
    loop'.readBuf.length + frameHeaderSize * loop'.processed ≤
      loop.readBuf.length + frameHeaderSize * loop.processed := by
  induction limit generalizing loop with
  | zero =>
    cases ended
    exact le_rfl
  | succ limit ih =>
    rw [pubLoop] at ended
    split_ifs at ended with isPub
    · cases turned : body loop with
      | mk turn left =>
        rw [turned] at ended
        cases turn with
        | next =>
          obtain ⟨shorter, counted⟩ := shrinks.next turned
          have later := ih ended
          rw [counted, Nat.mul_succ] at later
          omega
        | stop =>
          cases ended
          rw [shrinks.stop turned]
        | fail e => cases ended
    · cases ended
      exact le_rfl

theorem pubLoop_settles (enough : loop.readBuf.length < frameHeaderSize * limit) (more : ℕ) :
    pubLoop body (limit + more) loop = pubLoop body limit loop := by
  induction limit generalizing loop with
  | zero => exact absurd enough (Nat.not_lt_zero _)
  | succ limit ih =>
    rw [Nat.add_right_comm, pubLoop, pubLoop]
    split_ifs with isPub
    · cases turned : body loop with
      | mk turn loop' =>
        cases turn with
        | next =>
          obtain ⟨shorter, -⟩ := shrinks.next turned
          exact ih (by rw [Nat.mul_succ] at enough; omega)
        | stop => rfl
        | fail e => rfl
    · rfl

end Batch

theorem start_length {body : PubLoop → Turn × PubLoop} (shrinks : Shrinks body)
    (ended : pubLoop body limit (.start buf b) = (none, loop)) (some : 0 < loop.processed) :
    loop.readBuf.length + frameHeaderSize ≤ buf.length := by
  have taken : loop.readBuf.length + frameHeaderSize * loop.processed ≤ buf.length :=
    pubLoop_length shrinks ended
  have one : frameHeaderSize ≤ frameHeaderSize * loop.processed := Nat.le_mul_of_pos_right _ some
  omega

theorem drain_shrinks {ctx : AuthContext} {published : ℕ}
    (drained : drainPublishBatchWithoutSubscribers ctx maxFrameSize (.start buf b) =
      (.ok (true, published), loop)) : loop.readBuf.length + frameHeaderSize ≤ buf.length := by
  unfold drainPublishBatchWithoutSubscribers at drained
  split_ifs at drained with unrestricted
  · split at drained <;> rename_i ended
    · cases drained
    · simp only [Prod.mk.injEq, Except.ok.injEq, decide_eq_true_eq] at drained
      obtain ⟨⟨some, -⟩, rfl⟩ := drained
      exact start_length (skipFrame_shrinks maxFrameSize) ended some
  · split at drained <;> rename_i ended
    · cases drained
    · simp only [Prod.mk.injEq, Except.ok.injEq, decide_eq_true_eq] at drained
      obtain ⟨⟨some, -⟩, rfl⟩ := drained
      exact start_length (checkFrame_shrinks ctx maxFrameSize) ended some

theorem batch_shrinks {env : DeliveryPolicy} {order : PendingOrder} {ctx : AuthContext}
    {published : ℕ}
    (dispatched : dispatchPublishBatchFromReadBuf env order ctx maxFrameSize (.start buf b) =
      (.ok (true, published), loop)) : loop.readBuf.length + frameHeaderSize ≤ buf.length := by
  unfold dispatchPublishBatchFromReadBuf at dispatched
  split_ifs at dispatched with deserted
  · exact drain_shrinks dispatched
  · split at dispatched <;> rename_i ended
    · cases dispatched
    · simp only [Prod.mk.injEq, Except.ok.injEq, decide_eq_true_eq] at dispatched
      obtain ⟨⟨some, -⟩, rfl⟩ := dispatched
      -- publishing the batch leaves the buffer as the loop left it
      have taken := start_length (collectFrame_shrinks ctx maxFrameSize) ended some
      exact taken

structure Turned (h h' : Host) : Prop where
  shrinks : h'.position = .frames → h'.session.readBuf.length + frameHeaderSize ≤
    h.session.readBuf.length
  position : h'.position = h.position ∨ h'.position = .select

theorem Turned.left (left : h'.position = .select) : Turned h h' := by
  refine ⟨fun stays => ?_, .inr left⟩
  rw [left] at stays
  cases stays

theorem decodeFailed_turned (long : frameHeaderSize ≤ h.session.readBuf.length)
    (position : h'.position = h.position) (e : ProtocolError) : Turned h (h'.decodeFailed e) :=
  ⟨fun _ => (Nat.zero_add _).trans_le long, .inl position⟩

theorem fastPath_turned (order : PendingOrder) (isPub : nextFrameIsPub h.session.readBuf = true) :
    Turned h (h.fastPath env config order) := by
  have long : frameHeaderSize ≤ h.session.readBuf.length := by
    rw [nextFrameIsPub, Bool.and_eq_true, decide_eq_true_eq] at isPub
    exact isPub.1
  unfold Host.fastPath
  cases dispatched : dispatchPublishBatchFromReadBuf env order h.session.authCtx
    config.maxFrameSize (.start h.session.readBuf h.broker) with
  | mk result loop =>
    cases result with
    | error e => exact decodeFailed_turned long (show (h.absorb loop).position = _ from rfl) e
    | ok done =>
      obtain ⟨some, published⟩ := done
      cases some with
      | false => exact .left rfl
      | true =>
        have still := addPublished_still (h.absorb loop) published
        refine ⟨fun _ => ?_, .inl still.position⟩
        dsimp only
        rw [still.readBuf]
        exact batch_shrinks dispatched

theorem iterate_turned (order : PendingOrder) (h : Host) :
    Turned h (h.iterate env config order) := by
  unfold Host.iterate
  split_ifs with fast
  · exact fastPath_turned env config order fast.2
  · cases decoded : Frame.decodeFrom h.session.readBuf config.maxFrameSize with
    | mk result rest =>
      cases result with
      | error e =>
        have long : frameHeaderSize ≤ h.session.readBuf.length := by
          by_contra short
          rw [Frame.decodeFrom, if_pos (Nat.lt_of_not_le short)] at decoded
          cases decoded
        exact decodeFailed_turned long (flushPublished_still (h.setBuf rest)).position e
      | ok found =>
        cases found with
        | none => exact .left rfl
        | some frame =>
          have kept := handleFrame_kept env config (h.setBuf rest) frame
          obtain ⟨nothing, -⟩ | ⟨⟨long, -, whole⟩, -, rfl⟩ := decodeFrom_cases decoded
          · cases nothing
          · refine ⟨fun _ => ?_, kept.position⟩
            dsimp only
            rw [kept.readBuf, Host.setBuf, List.length_drop, Frame.announced]
            rw [Frame.announced] at whole
            omega

def isTurn : Event → Bool
  | .turn _ => true
  | _ => false

theorem step_framing (framing : h.position = .frames) {event : Event}
    (other : isTurn event = false) :
    (h.step env config event).position = .frames ∧
      (h.step env config event).session.readBuf = h.session.readBuf := by
  have busy : h.position ≠ .select := by
    rw [framing]
    decide
  cases event with
  | turn order => cases other
  | received bytes => rw [Host.step, if_pos busy]; exact ⟨framing, rfl⟩
  | readFailed => rw [Host.step, if_neg busy]; exact ⟨framing, rfl⟩
  | tick elapsed => rw [Host.step, if_neg busy]; exact ⟨framing, rfl⟩
  | shutdown late => rw [Host.step, if_neg busy]; exact ⟨framing, rfl⟩
  | close => rw [Host.step, if_neg (by rw [framing]; decide)]; exact ⟨framing, rfl⟩
  | elsewhere op => exact ⟨framing, rfl⟩

theorem run_leaves (framing : h.position = .frames) {events : List Event}
    (enough : h.session.readBuf.length < frameHeaderSize * events.countP isTurn) :
    ∃ before, before <+: events ∧ (h.run env config before).position = .select := by
  induction events generalizing h with
  | nil => exact absurd enough (Nat.not_lt_zero _)
  | cons event events ih =>
    have onward (later : ∃ before, before <+: events ∧
        ((h.step env config event).run env config before).position = .select) :
        ∃ before, before <+: event :: events ∧ (h.run env config before).position = .select := by
      obtain ⟨before, start, left⟩ := later
      exact ⟨event :: before, (List.prefix_cons_inj event).mpr start, left⟩
    cases turn : isTurn event with
    | false =>
      obtain ⟨still, same⟩ := step_framing env config framing turn
      rw [List.countP_cons_of_neg (by rw [turn]; decide)] at enough
      exact onward (ih still (same ▸ enough))
    | true =>
      rw [List.countP_cons_of_pos turn, Nat.mul_succ] at enough
      cases event with
      | turn order =>
        have turned := iterate_turned env config order h
        have stepped : h.step env config (.turn order) = h.iterate env config order :=
          if_pos framing
        rcases turned.position with same | off
        · have on := same.trans framing
          have shorter := turned.shrinks on
          exact onward (ih (stepped ▸ on) (by rw [stepped]; omega))
        · exact ⟨[.turn order], by simp, (congrArg Host.position stepped).trans off⟩
      | _ => cases turn

/-- The loop over the frames ends on every input: each turn that stays in it shrinks the
buffer by a header or more, so that among enough turns one leaves it, whatever other
sessions do in between; and the same holds for the batch loops inside a turn. -/
theorem frame_loop_ends (env : DeliveryPolicy) (config : ServerConfig) (h : Host) :
    (∀ order, (h.iterate env config order).position = .frames →
      (h.iterate env config order).session.readBuf.length + frameHeaderSize ≤
        h.session.readBuf.length) ∧
    (h.position = .frames → ∀ events : List Event,
      h.session.readBuf.length < frameHeaderSize * events.countP isTurn →
        ∃ before, before <+: events ∧ (h.run env config before).position = .select) ∧
    ∀ (ctx : AuthContext) (maxFrameSize : ℕ),
      ∀ body ∈ [skipFrame maxFrameSize, checkFrame ctx maxFrameSize, collectFrame ctx maxFrameSize],
        (∀ loop loop', body loop = (.next, loop') →
          loop'.readBuf.length + frameHeaderSize ≤ loop.readBuf.length) ∧
        ∀ loop limit more, loop.readBuf.length < frameHeaderSize * limit →
          pubLoop body (limit + more) loop = pubLoop body limit loop := by
  refine ⟨fun order => (iterate_turned env config order h).shrinks, ?_, ?_⟩
  · intro framing events enough
    exact run_leaves env config framing enough
  · intro ctx maxFrameSize body member
    have shrinks : Shrinks body := by
      simp only [List.mem_cons, List.not_mem_nil, or_false] at member
      rcases member with rfl | rfl | rfl
      · exact skipFrame_shrinks maxFrameSize
      · exact checkFrame_shrinks ctx maxFrameSize
      · exact collectFrame_shrinks ctx maxFrameSize
    exact ⟨fun loop loop' turned => (shrinks.next turned).1,
      fun loop limit more enough => pubLoop_settles shrinks enough more⟩

private def zeroes : Host :=
  ⟨.new, { Session.start 1 with readBuf := List.replicate 30 0 }, .frames⟩

private def noFrames : ServerConfig := ⟨10, 30, 60, 1000, ⟨"none".toList, none, []⟩⟩

theorem zeroes_end :
    (zeroes.iterate QueueGroups.acceptAll noFrames (.stored _ _)).session.readBuf.length +
        frameHeaderSize ≤
      zeroes.session.readBuf.length ∧
    (∃ before, before <+: [.turn (.stored _ _), .turn (.stored _ _)] ∧
      (zeroes.run QueueGroups.acceptAll noFrames before).position = .select) ∧
    (∃ loop, skipFrame 64 (.start (Frame.new .pub 7).encode .new) = (.next, loop) ∧
      loop.readBuf.length + frameHeaderSize ≤ (Frame.new .pub 7).encode.length) ∧
    pubLoop (skipFrame 64) (2 + 9) (.start (Frame.new .pub 7).encode .new) =
      pubLoop (skipFrame 64) 2 (.start (Frame.new .pub 7).encode .new) := by
  have ends := frame_loop_ends QueueGroups.acceptAll noFrames zeroes
  have skips := ends.2.2 .unrestricted 64 (skipFrame 64) (List.mem_cons_self ..)
  exact ⟨ends.1 _ (by decide), ends.2.1 rfl _ (by decide),
    ⟨_, rfl, skips.1 (.start (Frame.new .pub 7).encode .new) _ rfl⟩, skips.2 _ 2 9 (by decide)⟩

end ZetMQ.FrameLoopEnds
