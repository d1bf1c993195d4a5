import ZetMQ.PubDispatch

/-! The turns of a session's frame loop over publishes in its read buffer. Full batches
are dispatched; behind them may stand a part of a frame, which the loop waits for, or a
frame that the fast path fails on, which takes the batch it is in with it. -/
namespace ZetMQ.SessionTurns
open Utf8Text ByteBuffer Frames Delivery Broker SubscriptionLedger BrokerRefinement Commands
open Permissions PubFastPath SessionLoop SessionSteps FullDelivery PubFrames PubVerdicts PubBatches
open PubDispatch

def accounted (h : Host) : ℕ := h.broker.metrics.messagesPublished + h.session.localPublished

structure Still (h h' : Host) : Prop where
  position : h'.position = h.position
  readBuf : h'.session.readBuf = h.session.readBuf
  state : h'.session.state = h.session.state
  rights : h'.session.authCtx = h.session.authCtx

theorem flushPublished_still (h : Host) : Still h h.flushPublished := by
  unfold Host.flushPublished
  split <;> exact ⟨rfl, rfl, rfl, rfl⟩

theorem flushPublished_count (h : Host) :
    h.flushPublished.broker.metrics.messagesPublished = accounted h ∧
      h.flushPublished.session.localPublished = 0 := by
  unfold Host.flushPublished accounted
  split
  · exact ⟨rfl, rfl⟩
  · rename_i nothing
    have zero := Nat.eq_zero_of_not_pos nothing
    exact ⟨by rw [zero, Nat.add_zero], zero⟩

theorem flushPublished_accounted (h : Host) : accounted h.flushPublished = accounted h := by
  rw [accounted, (flushPublished_count h).1, (flushPublished_count h).2, Nat.add_zero]

theorem addPublished_still (h : Host) (published : ℕ) : Still h (h.addPublished published) := by
  unfold Host.addPublished
  dsimp only
  split
  · obtain ⟨position, readBuf, state, rights⟩ := flushPublished_still { h with
      session := { h.session with localPublished := h.session.localPublished + published } }
    exact ⟨position, readBuf, state, rights⟩
  · exact ⟨rfl, rfl, rfl, rfl⟩

theorem addPublished_accounted (h : Host) (published : ℕ) :
    accounted (h.addPublished published) = accounted h + published := by
  unfold Host.addPublished
  dsimp only
  split
  · rw [flushPublished_accounted]
    exact (Nat.add_assoc ..).symm
  · exact (Nat.add_assoc ..).symm

/-- From one moment of a session to another: items are shared out, and publishes are
counted or will be at the next flush. -/
structure Gained (env : DeliveryPolicy) (l : Ledger) (items : List PublishItem) (count : ℕ)
    (h h' : Host) : Prop where
  shared : Shared env l items h.broker h'.broker
  count : accounted h' = accounted h + count
  state : h'.session.state = h.session.state
  rights : h'.session.authCtx = h.session.authCtx

theorem Gained.trans {env : DeliveryPolicy} {l : Ledger} {items more : List PublishItem}
    {n m : ℕ} {h h' h'' : Host} (first : Gained env l items n h h')
    (second : Gained env l more m h' h'') : Gained env l (items ++ more) (n + m) h h'' where
  shared := first.shared.trans second.shared
  count := by rw [second.count, first.count, Nat.add_assoc]
  state := second.state.trans first.state
  rights := second.rights.trans first.rights

theorem flushPublished_groups (h : Host) :
    h.flushPublished.broker.queueGroups = h.broker.queueGroups := by
  unfold Host.flushPublished
  split <;> rfl

theorem addPublished_groups (h : Host) (published : ℕ) :
    (h.addPublished published).broker.queueGroups = h.broker.queueGroups := by
  unfold Host.addPublished
  dsimp only
  split
  · exact flushPublished_groups _
  · rfl

/-- What the run of a session needs from its host. -/
structure Serving (l : Ledger) (h : Host) : Prop where
  refines : Refines h.broker l
  connected : h.session.state = .connected

theorem Gained.serving {env : DeliveryPolicy} {l : Ledger} {items : List PublishItem} {n : ℕ}
    {h h' : Host} (gained : Gained env l items n h h') (old : Serving l h) : Serving l h' :=
  ⟨gained.shared.refines, gained.state.trans old.connected⟩

theorem run_turns_idle {env : DeliveryPolicy} {config : ServerConfig} {h : Host}
    (orders : List PendingOrder) (waiting : h.position = .select) :
    h.run env config (orders.map .turn) = h := by
  induction orders with
  | nil => rfl
  | cons order orders ih =>
    have idle : h.step env config (.turn order) = h :=
      if_neg fun framing => Position.noConfusion (waiting.symm.trans framing)
    rw [List.map_cons, Host.run, List.foldl_cons, idle]
    exact ih

abbrev Taken (env : DeliveryPolicy) (l : Ledger) (config : ServerConfig) (frames : List Bytes)
    (h h' : Host) : Prop :=
  Gained env l (frames.filterMap (itemIn config.maxFrameSize))
    (frames.countP (mayPublish h.session.authCtx)) h h'

theorem Taken.append {env : DeliveryPolicy} {l : Ledger} {config : ServerConfig}
    {first second : List Bytes} {h h' h'' : Host} (taken : Taken env l config first h h')
    (later : Taken env l config second h' h'') : Taken env l config (first ++ second) h h'' := by
  have both := Gained.trans taken later
  rwa [taken.rights, ← List.filterMap_append, ← List.countP_append] at both

structure Incomplete (maxFrameSize : ℕ) (part : Bytes) : Prop where
  pub : nextFrameIsPub part = true → peekPubFrameTotal part maxFrameSize = .ok none
  short : ¬nextFrameIsPub part = true → part.length < frameHeaderSize

theorem incomplete_nil (maxFrameSize : ℕ) : Incomplete maxFrameSize [] :=
  ⟨fun isPub => absurd isPub (by decide), fun _ => by decide⟩

section
variable (env : DeliveryPolicy) {l : Ledger} (config : ServerConfig) {h : Host}
  (serving : Serving l h) (order : PendingOrder) (framing : h.position = .frames)
include serving framing

theorem turn_fastPath (isPub : nextFrameIsPub h.session.readBuf = true) :
    h.step env config (.turn order) = h.fastPath env config order := by
  rw [Host.step, if_pos framing, Host.iterate, if_pos ⟨serving.connected, isPub⟩]

theorem turn_waits {part : Bytes} (incomplete : Incomplete config.maxFrameSize part)
    (buf : h.session.readBuf = part) :
    let h' := h.step env config (.turn order)
    h'.position = .select ∧ h'.session.readBuf = part ∧ Gained env l [] 0 h h' := by
  intro h'
  by_cases isPub : nextFrameIsPub part = true
  · obtain ⟨published, loop, dispatched, bounded, left, shared, count⟩ := @dispatch_takes
      h.broker l serving.refines config.maxFrameSize h.session.authCtx [] nofun env order part
      (.inr incomplete.pub)
    rw [List.take_nil] at dispatched bounded shared count
    rw [List.drop_nil] at left
    have nothing : published = 0 := Nat.le_zero.mp bounded
    have turned : h' = (h.absorb loop).breakFrames := by
      rw [show h' = h.fastPath env config order from
          turn_fastPath env config serving order framing (buf ▸ isPub),
        Host.fastPath, buf, show part = [].flatten ++ part from rfl, dispatched]
      rfl
    rw [nothing, Nat.add_zero] at count
    rw [turned]
    exact ⟨rfl, left, shared, congrArg (· + h.session.localPublished) count, rfl, rfl⟩
  · have turned : h' = (h.setBuf part).flushPublished.breakFrames := by
      rw [show h' = h.iterate env config order from if_pos framing, Host.iterate, buf,
        if_neg fun both => isPub both.2, Frame.decodeFrom, if_pos (incomplete.short isPub)]
    have still := flushPublished_still (h.setBuf part)
    rw [turned]
    exact ⟨rfl, still.readBuf, .of_quiet serving.refines (flushPublished_quiet (h.setBuf part))
      (flushPublished_groups (h.setBuf part)), flushPublished_accounted (h.setBuf part),
      still.state, still.rights⟩

variable {frames : List Bytes}
  (takes : ∀ frame ∈ frames, Takes l.live config.maxFrameSize h.session.authCtx frame)
include takes

theorem turn_takes (some : frames ≠ []) {tail : Bytes}
    (ready : batchLimit l.live ≤ frames.length ∨
      (nextFrameIsPub tail = true → peekPubFrameTotal tail config.maxFrameSize = .ok none))
    (buf : h.session.readBuf = frames.flatten ++ tail) :
    let h' := h.step env config (.turn order)
    let taken := frames.take (batchLimit l.live)
    h'.position = .frames ∧
      h'.session.readBuf = (frames.drop (batchLimit l.live)).flatten ++ tail ∧
      Taken env l config taken h h' := by
  intro h' taken
  obtain ⟨published, loop, dispatched, -, left, shared, count⟩ := dispatch_takes serving.refines
    takes env order ready
  have isPub : nextFrameIsPub h.session.readBuf = true := by
    obtain ⟨first, later, rfl⟩ := List.exists_cons_of_ne_nil some
    rw [buf, List.flatten_cons, List.append_assoc]
    exact (takes first (List.mem_cons_self ..)).whole.isPub _
  have positive : 0 < taken.length := by
    have limit : 0 < batchLimit l.live := batchLimit_pos l.live
    have length := List.length_pos_of_ne_nil some
    rw [List.length_take]
    omega
  have turned : h' = (h.absorb loop).addPublished published := by
    rw [show h' = h.fastPath env config order from
        turn_fastPath env config serving order framing isPub,
      Host.fastPath, buf, dispatched, decide_eq_true positive]
  have still := addPublished_still (h.absorb loop) published
  have counted : Shared env l [] loop.broker h'.broker := by
    rw [turned]
    exact .of_quiet shared.refines (addPublished_quiet (h.absorb loop) published)
      (addPublished_groups (h.absorb loop) published)
  refine ⟨?_, ?_, ?_⟩
  · rw [turned]
    exact still.position.trans framing
  · rw [turned]
    exact still.readBuf.trans left
  · refine ⟨?_, ?_, ?_, ?_⟩
    · rw [← List.append_nil (taken.filterMap _)]
      exact shared.trans counted
    · rw [turned, addPublished_accounted]
      simp only [accounted, Host.absorb, taken]
      omega
    · rw [turned]
      exact still.state
    · rw [turned]
      exact still.rights

theorem turn_fails {bad : Bytes} (short : frames.length < batchLimit l.live)
    (fails : Fails l.live config.maxFrameSize h.session.authCtx bad)
    (buf : h.session.readBuf = frames.flatten ++ bad) :
    let h' := h.step env config (.turn order)
    h'.position = .frames ∧ h'.session.readBuf = [] ∧ Gained env l [] 0 h h' := by
  intro h'
  obtain ⟨e, loop, dispatched, asked⟩ := dispatch_fails serving.refines takes env order short fails
  have isPub : nextFrameIsPub h.session.readBuf = true := by
    rw [buf]
    cases frames with
    | nil => exact fails.isPub
    | cons first later =>
      rw [List.flatten_cons, List.append_assoc]
      exact (takes first (List.mem_cons_self ..)).whole.isPub _
  have turned : h' = (h.absorb loop).decodeFailed e := by
    rw [show h' = h.fastPath env config order from
        turn_fastPath env config serving order framing isPub,
      Host.fastPath, buf, dispatched]
  rw [turned]
  refine ⟨framing, rfl, .of_quiet serving.refines
    (asked.quiet.trans (decodeFailed_quiet (h.absorb loop) e)) asked.queueGroups, ?_, rfl, rfl⟩
  have metrics := congrArg CoreMetrics.messagesPublished asked.metrics
  exact congrArg (· + h.session.localPublished) metrics

end

theorem run_cons (env : DeliveryPolicy) (config : ServerConfig) (h : Host) (order : PendingOrder)
    (orders : List PendingOrder) :
    h.run env config ((order :: orders).map .turn) =
      (h.step env config (.turn order)).run env config (orders.map .turn) := rfl

theorem take_full_batches {frames : List Bytes} {limit : ℕ} (full : limit ≤ frames.length) :
    frames.take limit ++ (frames.drop limit).take
        ((frames.drop limit).length - (frames.drop limit).length % limit) =
      frames.take (frames.length - frames.length % limit) := by
  have same := Nat.mod_eq_sub_mod full
  have small := Nat.mod_le (frames.length - limit) limit
  rw [List.length_drop, ← List.take_add, same]
  congr 1
  omega

section
variable (env : DeliveryPolicy) {l : Ledger} {config : ServerConfig}

theorem turns_all (orders : List PendingOrder) {h : Host} (serving : Serving l h)
    (framing : h.position = .frames) {frames : List Bytes}
    (takes : ∀ frame ∈ frames, Takes l.live config.maxFrameSize h.session.authCtx frame)
    (enough : frames.length < orders.length) {part : Bytes}
    (incomplete : Incomplete config.maxFrameSize part)
    (buf : h.session.readBuf = frames.flatten ++ part) :
    let h' := h.run env config (orders.map .turn)
    h'.position = .select ∧ h'.session.readBuf = part ∧ Taken env l config frames h h' := by
  induction orders generalizing frames h with
  | nil => exact absurd enough (Nat.not_lt_zero _)
  | cons order orders ih =>
    rw [run_cons]
    by_cases empty : frames = []
    · rw [empty] at buf ⊢
      obtain ⟨position, left, gained⟩ := turn_waits env config serving order framing incomplete buf
      rw [run_turns_idle orders position]
      exact ⟨position, left, gained⟩
    · have limit := batchLimit_pos l.live
      have some := List.length_pos_of_ne_nil empty
      obtain ⟨position, left, gained⟩ := turn_takes env config serving order framing takes empty
        (.inr incomplete.pub) buf
      obtain ⟨done, rested, later⟩ := @ih _ (gained.serving serving) position
        (frames.drop (batchLimit l.live))
        (fun frame member => gained.rights ▸ takes frame (List.mem_of_mem_drop member))
        (by rw [List.length_drop]; rw [List.length_cons] at enough; omega) left
      have both := gained.append later
      rw [List.take_append_drop] at both
      exact ⟨done, rested, both⟩

theorem turns_lost (orders : List PendingOrder) {h : Host} (serving : Serving l h)
    (framing : h.position = .frames) {frames : List Bytes}
    (takes : ∀ frame ∈ frames, Takes l.live config.maxFrameSize h.session.authCtx frame)
    {bad : Bytes} (fails : Fails l.live config.maxFrameSize h.session.authCtx bad)
    (enough : frames.length + 1 < orders.length) (buf : h.session.readBuf = frames.flatten ++ bad) :
    let h' := h.run env config (orders.map .turn)
    let kept := frames.take (frames.length - frames.length % batchLimit l.live)
    h'.position = .select ∧ h'.session.readBuf = [] ∧ Taken env l config kept h h' := by
  induction orders generalizing frames h with
  | nil => exact absurd enough (Nat.not_lt_zero _)
  | cons order orders ih =>
    rw [run_cons]
    rw [List.length_cons] at enough
    by_cases short : frames.length < batchLimit l.live
    -- The bad frame is within reach of this batch, which is given up with what it holds.
    · obtain ⟨position, left, gained⟩ := turn_fails env config serving order framing takes short
        fails buf
      obtain ⟨done, rested, later⟩ := @turns_all env l config orders _ (gained.serving serving)
        position [] nofun (show 0 < orders.length by omega) [] (incomplete_nil _) left
      refine ⟨done, rested, ?_⟩
      rw [Nat.mod_eq_of_lt short, Nat.sub_self, List.take_zero]
      exact gained.trans later
    -- A full batch comes first and is dispatched without a look at what follows it.
    · have limit := batchLimit_pos l.live
      have some : frames ≠ [] := List.ne_nil_of_length_pos (by omega)
      obtain ⟨position, left, gained⟩ := turn_takes env config serving order framing takes some
        (.inl (Nat.le_of_not_lt short)) buf
      obtain ⟨done, rested, later⟩ := @ih _ (gained.serving serving) position
        (frames.drop (batchLimit l.live))
        (fun frame member => gained.rights ▸ takes frame (List.mem_of_mem_drop member))
        (gained.rights ▸ fails) (by rw [List.length_drop]; omega) left
      have both := gained.append later
      rw [take_full_batches (Nat.le_of_not_lt short)] at both
      exact ⟨done, rested, both⟩

end

end ZetMQ.SessionTurns
