import ZetMQ.PubDispatch

/-! Publish paths by what can be seen of them from outside: the drain of a session
without subscribers, with and without rights to check, and the general path that it
stands in for. All of it is determined by the verdicts on the leading frames. -/
namespace ZetMQ.PubReports
open Utf8Text ByteBuffer Frames KeyedTable SubjectGrammar Delivery Broker SubscriptionLedger
open BrokerRefinement RunRefinement LedgerDelivery BatchPlan BatchDelivery FrameCodec Commands
open Permissions PubFastPath SessionLoop SessionSteps PubFrames PubDecoders PubSections PubVerdicts
open PubBatches PubDispatch

/-- What the session and its clients can see of a path: whether it fails, the bytes
it leaves if not, the frames it sends, and what it adds to `messages_published`, there
or by the count that it returns. -/
structure Report where
  failed : Bool
  left : Option Bytes
  errors : List Frame
  added : ℕ

def report (b : BrokerCore) : Except ProtocolError (Bool × ℕ) × PubLoop → Report
  | (.error _, loop) => ⟨true, none, loop.outbound,
      loop.broker.metrics.messagesPublished - b.metrics.messagesPublished⟩
  | (.ok (_, published), loop) => ⟨false, some loop.readBuf, loop.outbound,
      loop.broker.metrics.messagesPublished + published - b.metrics.messagesPublished⟩

/-- The whole `PUB` frames in front of a buffer, up to some number, and what follows. -/
def leading (maxFrameSize : ℕ) : ℕ → Bytes → List Bytes × Bytes
  | 0, buf => ([], buf)
  | n + 1, buf =>
    if nextFrameIsPub buf then
      match peekPubFrameTotal buf maxFrameSize with
      | .ok (some total) =>
        let (frames, rest) := leading maxFrameSize n (buf.drop total)
        (buf.take total :: frames, rest)
      | _ => ([], buf)
    else ([], buf)

def leadingPubs (maxFrameSize : ℕ) (buf : Bytes) : ℕ :=
  let (frames, rest) := leading maxFrameSize buf.length buf
  frames.length + if refused maxFrameSize rest then 1 else 0

structure Division (maxFrameSize : ℕ) (buf : Bytes) (frames : List Bytes) (rest : Bytes) :
    Prop where
  joined : buf = frames.flatten ++ rest
  whole : ∀ frame ∈ frames, Whole maxFrameSize frame
  ends : nextFrameIsPub rest = true →
    ∀ total, peekPubFrameTotal rest maxFrameSize ≠ .ok (some total)

theorem Division.quiet {maxFrameSize : ℕ} {buf : Bytes} {frames : List Bytes} {rest : Bytes}
    (division : Division maxFrameSize buf frames rest) (taken : ¬refused maxFrameSize rest = true)
    (isPub : nextFrameIsPub rest = true) : peekPubFrameTotal rest maxFrameSize = .ok none := by
  cases peek : peekPubFrameTotal rest maxFrameSize with
  | error e => exact absurd (refused_iff.mpr ⟨isPub, e, peek⟩) taken
  | ok total =>
    cases total with
    | none => rfl
    | some total => exact absurd peek (division.ends isPub total)

theorem leading_division (maxFrameSize : ℕ) {n : ℕ} {buf : Bytes} (enough : buf.length ≤ n) :
    Division maxFrameSize buf (leading maxFrameSize n buf).1 (leading maxFrameSize n buf).2 := by
  induction n generalizing buf with
  | zero =>
    rw [List.eq_nil_of_length_eq_zero (Nat.le_zero.mp enough)]
    exact ⟨rfl, nofun, fun isPub =>
      absurd (show nextFrameIsPub [] = true from isPub) (by decide)⟩
  | succ n ih =>
    rw [leading]
    split
    · split
      · rename_i total peek
        obtain ⟨peeked, rfl⟩ := peekPubFrameTotal_some.mp peek
        have positive : 0 < Frame.announced buf :=
          Nat.add_pos_left (Nat.add_pos_left (by decide) _) _
        have later := @ih (buf.drop (Frame.announced buf)) (by
          rw [List.length_drop]
          omega)
        refine ⟨?_, fun frame member => ?_, later.ends⟩
        · rw [List.flatten_cons, List.append_assoc, ← later.joined, List.take_append_drop]
        · rcases List.mem_cons.mp member with rfl | member
          · exact whole_take peeked
          · exact later.whole frame member
      · rename_i other
        exact ⟨rfl, nofun, fun _ total peek => other total peek⟩
    · rename_i notPub
      exact ⟨rfl, nofun, fun isPub => absurd isPub notPub⟩

theorem pubLoop_division {l : Ledger} {maxFrameSize : ℕ} {body : PubLoop → Turn × PubLoop}
    {judge : Bytes → Except ProtocolError Verdict} (judges : Judges l maxFrameSize body judge)
    {loop : PubLoop} (refines : Refines loop.broker l) {frames : List Bytes} {rest : Bytes}
    (division : Division maxFrameSize loop.readBuf frames rest) {limit : ℕ}
    (room : (frames.length + if refused maxFrameSize rest then 1 else 0) ≤ limit) :
    ∃ loop', Asked loop.broker loop'.broker ∧
      loop'.outbound = loop.outbound ++ (verdictsOn judge frames).filterMap Verdict.denied ∧
      if settled judge frames = frames ∧ refused maxFrameSize rest = false then
        pubLoop body limit loop = (none, loop') ∧ Took (verdictsOn judge frames) rest loop loop'
      else ∃ e, pubLoop body limit loop = (some e, loop') := by
  have parts : settled judge frames ++ frames.dropWhile (fun frame => (judge frame).isOk) =
      frames := List.takeWhile_append_dropWhile
  have passed : ∀ frame ∈ settled judge frames, (judge frame).isOk = true := fun frame member =>
    @List.mem_takeWhile_imp _ (fun frame => (judge frame).isOk) _ _ member
  cases remaining : frames.dropWhile (fun frame => (judge frame).isOk) with
  | nil =>
    rw [remaining, List.append_nil] at parts
    rw [parts] at passed
    by_cases isRefused : refused maxFrameSize rest = true
    · rw [if_pos isRefused] at room
      obtain ⟨e, loop', looped, asked, outbound⟩ := pubLoop_lost judges division.whole passed
        (show frames.length < limit by omega) (.inl isRefused) refines division.joined
      refine ⟨loop', asked, outbound, ?_⟩
      rw [if_neg fun both => Bool.false_ne_true (both.2.symm.trans isRefused)]
      exact ⟨e, looped⟩
    · obtain ⟨loop', looped, took⟩ := @pubLoop_batch l maxFrameSize body judge judges frames
        division.whole passed limit rest (.inr (division.quiet isRefused)) loop refines
        division.joined
      rw [List.take_of_length_le (by omega), List.drop_eq_nil_of_le (by omega), List.flatten_nil,
        List.nil_append] at took
      refine ⟨loop', took.asked, took.outbound, ?_⟩
      rw [if_pos ⟨parts, Bool.not_eq_true _ |>.mp isRefused⟩]
      exact ⟨looped, took⟩
  | cons bad more =>
    rw [remaining] at parts
    have failed : (judge bad).isOk = false := by
      have head := @List.head_dropWhile_not _ (fun frame => (judge frame).isOk) frames (by
        rw [remaining]
        exact List.cons_ne_nil bad more)
      simpa only [remaining, List.head_cons] using head
    have lengths := congrArg List.length parts
    rw [List.length_append, List.length_cons] at lengths
    have buf : loop.readBuf =
        (settled judge frames).flatten ++ (bad ++ (more.flatten ++ rest)) := by
      rw [division.joined, ← List.append_assoc bad, ← List.flatten_cons, ← List.append_assoc,
        ← List.flatten_append, parts]
    have whole : ∀ frame ∈ settled judge frames, Whole maxFrameSize frame :=
      fun frame member => division.whole frame (List.takeWhile_subset _ member)
    obtain ⟨e, loop', looped, asked, outbound⟩ := pubLoop_lost judges whole passed
      (show (settled judge frames).length < limit by omega)
      (.inr ⟨bad, _, rfl, division.whole bad (parts ▸ List.mem_append_right _
        (List.mem_cons_self ..)), failed⟩) refines buf
    have same : verdictsOn judge (settled judge frames) = verdictsOn judge frames := by
      rw [verdictsOn, verdictsOn, settled, settled, List.takeWhile_idem]
    rw [same] at outbound
    refine ⟨loop', asked, outbound, ?_⟩
    rw [if_neg fun both => by
      have length := congrArg List.length both.1
      omega]
    exact ⟨e, looped⟩

theorem publishBatch_nobody {b : BrokerCore} {l : Ledger} (h : Refines b l) (nobody : l.live = [])
    (env : DeliveryPolicy) (order : PendingOrder) (items : List PublishItem) :
    b.publishBatch env order items = counted b items.length := by
  obtain ⟨entries, perm, isBatch⟩ := publishBatch_live h env order items
  have free : ∀ entry ∈ l.live, entry.group = none := by
    rw [nobody]
    exact nofun
  rw [nobody, List.filter_nil] at perm
  rw [isBatch, perm.eq_nil, batchDemand_free free, DeliveryPlan.serve_nil]
  rfl

def outcome (judge : Bytes → Except ProtocolError Verdict) (count : List Verdict → ℕ)
    (maxFrameSize : ℕ) (frames : List Bytes) (rest : Bytes) : Report :=
  let errors := (verdictsOn judge frames).filterMap Verdict.denied
  if settled judge frames = frames ∧ refused maxFrameSize rest = false then
    ⟨false, some rest, errors, count (verdictsOn judge frames)⟩
  else ⟨true, none, errors, 0⟩

section
variable {b : BrokerCore} {l : Ledger} (refines : Refines b l) {maxFrameSize : ℕ} {buf : Bytes}
  {frames : List Bytes} {rest : Bytes} (division : Division maxFrameSize buf frames rest)
  (few : (frames.length + if refused maxFrameSize rest then 1 else 0) ≤ pubBatchLimit)
include refines division few

theorem report_outcome {body : PubLoop → Turn × PubLoop}
    {judge : Bytes → Except ProtocolError Verdict} (judges : Judges l maxFrameSize body judge)
    {limit : ℕ} (room : pubBatchLimit ≤ limit) {finish : PubLoop → (Bool × ℕ) × PubLoop}
    {count : List Verdict → ℕ}
    (finishes : ∀ loop, Took (verdictsOn judge frames) rest (.start buf b) loop →
      (finish loop).2.readBuf = loop.readBuf ∧ (finish loop).2.outbound = loop.outbound ∧
        (finish loop).2.broker.metrics.messagesPublished + (finish loop).1.2 =
          b.metrics.messagesPublished + count (verdictsOn judge frames)) :
    report b (match pubLoop body limit (.start buf b) with
      | (some e, loop) => (.error e, loop)
      | (none, loop) => (.ok (finish loop).1, (finish loop).2)) =
      outcome judge count maxFrameSize frames rest := by
  obtain ⟨loop, asked, outbound, ending⟩ := pubLoop_division judges
    (show Refines (PubLoop.start buf b).broker l from refines) division (few.trans room)
  rw [show (PubLoop.start buf b).outbound = [] from rfl, List.nil_append] at outbound
  rw [outcome]
  split_ifs at ending ⊢
  · obtain ⟨looped, took⟩ := ending
    obtain ⟨left, sent, added⟩ := finishes loop took
    rw [looped]
    dsimp only [report]
    rw [left, sent, added, took.readBuf, outbound, Nat.add_sub_cancel_left]
  · obtain ⟨e, looped⟩ := ending
    have metrics : loop.broker.metrics = b.metrics := asked.metrics
    rw [looped]
    dsimp only [report]
    rw [outbound, metrics, Nat.sub_self]

variable {ctx : AuthContext}

theorem drain_free_report (free : ctx.isPublishUnrestricted = true) :
    report b (drainPublishBatchWithoutSubscribers ctx maxFrameSize (.start buf b)) =
      outcome skipVerdict List.length maxFrameSize frames rest := by
  rw [drainPublishBatchWithoutSubscribers, if_pos free]
  refine @report_outcome b l refines maxFrameSize buf frames rest division few _ _
    (skipFrame_judges l maxFrameSize) noSubPubBatchLimit (by decide)
    (fun loop => ((0 < loop.processed, loop.processed), loop)) _ fun loop took => ?_
  refine ⟨rfl, rfl, ?_⟩
  dsimp only
  rw [took.asked.metrics, took.processed, show (PubLoop.start buf b).processed = 0 from rfl,
    Nat.zero_add]
  rfl

theorem drain_checked_report (restricted : ¬ctx.isPublishUnrestricted = true) :
    report b (drainPublishBatchWithoutSubscribers ctx maxFrameSize (.start buf b)) =
      outcome (checkVerdict ctx) (fun verdicts => (verdicts.map Verdict.published).sum)
        maxFrameSize frames rest := by
  rw [drainPublishBatchWithoutSubscribers, if_neg restricted]
  refine @report_outcome b l refines maxFrameSize buf frames rest division few _ _
    (checkFrame_judges l ctx maxFrameSize) noSubPubBatchLimit (by decide)
    (fun loop => ((0 < loop.processed, loop.published), loop)) _ fun loop took => ?_
  refine ⟨rfl, rfl, ?_⟩
  dsimp only
  rw [took.asked.metrics, took.published, show (PubLoop.start buf b).published = 0 from rfl,
    Nat.zero_add]
  rfl

theorem general_report (nobody : l.live = []) (env : DeliveryPolicy) (order : PendingOrder) :
    report b (generalPath env order ctx maxFrameSize (.start buf b)) =
      outcome (collectVerdict ctx)
        (fun verdicts => ((verdicts.filterMap Verdict.command).filterMap itemOf).length)
        maxFrameSize frames rest := by
  rw [generalPath]
  refine @report_outcome b l refines maxFrameSize buf frames rest division few _ _
    (collectFrame_judges l ctx maxFrameSize) pubBatchLimit (Nat.le_refl _)
    (fun loop => ((0 < loop.processed, 0), { loop with
      broker := if loop.commands.isEmpty then loop.broker
        else dispatchPublishBatch env order loop.broker loop.commands })) _ fun loop took => ?_
  refine ⟨rfl, rfl, ?_⟩
  have commands := took.commands
  rw [show (PubLoop.start buf b).commands = [] from rfl, List.nil_append] at commands
  obtain ⟨b', asked, dispatched⟩ := dispatchPublishBatch_spec (refines.frame took.asked.same) env
    order loop.commands
  have same : (if loop.commands.isEmpty then loop.broker
      else dispatchPublishBatch env order loop.broker loop.commands) =
      dispatchPublishBatch env order loop.broker loop.commands := by
    rw [dispatchPublishBatch]
    split <;> rfl
  dsimp only
  rw [same, dispatched, publishBatch_nobody ((refines.frame took.asked.same).frame asked.same)
    nobody env order, commands]
  change b'.metrics.messagesPublished + _ + 0 = _
  rw [asked.metrics, took.asked.metrics]
  rfl

end

end ZetMQ.PubReports
