import ZetMQ.PubReports
import ZetMQ.StreamChunking

/-! The drain of a session without subscribers, against the general publish path that
it stands in for. The drain looks at less of each frame, so it goes on where the
general path fails, and counts frames that the general path leaves out. -/
namespace ZetMQ.DrainAgreement
open Utf8Text ByteBuffer Frames KeyedTable SubjectGrammar Delivery Broker SubscriptionLedger
open BrokerRefinement RunRefinement FrameCodec Commands Permissions PubFastPath SessionLoop
open SessionSteps PubFrames PubDecoders PubSections PubVerdicts PubBatches PubReports
open PubDispatch StreamChunking QueueGroups AccessControl

def denial (ctx : AuthContext) (frame : Bytes) : Option Frame :=
  if mayPublish ctx frame then none else some (publishDenied (beAt frame 6 8))

theorem ruling_denied (ctx : AuthContext) (frame : Bytes) {granted : Verdict}
    (silent : granted.denied = none) :
    (ruling ctx frame (subjectIn (payloadIn frame)) granted).denied = denial ctx frame := by
  rw [ruling_own, denial]
  split
  · exact silent
  · rfl

theorem denied_check (ctx : AuthContext) (frames : List Bytes) :
    (verdictsOn (checkVerdict ctx) frames).filterMap Verdict.denied =
      (frames.takeWhile payloadParses).filterMap (denial ctx) := by
  rw [← settled_check ctx]
  refine filterMap_verdictsOn (fun frame verdict judged => ?_) frames
  rw [checkVerdict_ok judged, ruling_denied ctx frame rfl]

theorem denied_collect (ctx : AuthContext) (frames : List Bytes) :
    (verdictsOn (collectVerdict ctx) frames).filterMap Verdict.denied =
      ((frames.takeWhile payloadParses).takeWhile headersDecode).filterMap (denial ctx) := by
  rw [← settled_collect ctx]
  refine filterMap_verdictsOn (fun frame verdict judged => ?_) frames
  obtain ⟨command, -, rfl⟩ := collectVerdict_ok judged
  exact ruling_denied ctx frame rfl

theorem itemAt_isSome {ctx : AuthContext} (restricted : ¬ctx.isPublishUnrestricted = true)
    {frame : Bytes} {command : PublishCommand}
    (parsed : fastCommand (headersIn frame) (payloadIn frame) = .ok command) :
    (itemAt ctx frame).isSome = mayPublish ctx frame := by
  rw [itemAt]
  split
  · rename_i allowed
    rw [allowed, parsed]
    rw [mayPublish, ← (divided_of_fastCommand parsed).2.subject, allows,
      Bool.not_eq_true _ |>.mp restricted, Bool.false_or] at allowed
    change (itemOf command).isSome = true
    cases decoded : fromUtf8 command.subject with
    | none =>
      rw [decoded] at allowed
      cases allowed
    | some text =>
      rw [decoded] at allowed
      cases valid : Subject.parse text with
      | error e =>
        dsimp only at allowed
        rw [valid] at allowed
        cases allowed
      | ok subject =>
        rw [itemOf, decoded]
        dsimp only
        rw [valid]
        rfl
  · rename_i denied
    rw [Bool.not_eq_true _ |>.mp denied]
    rfl

def Agreeable (ctx : AuthContext) (maxFrameSize : ℕ) (frames : List Bytes) (rest : Bytes) : Prop :=
  if ctx.isPublishUnrestricted then
    refused maxFrameSize rest = true ∨ ∀ frame ∈ frames, (itemIn maxFrameSize frame).isSome = true
  else
    let reached := frames.takeWhile payloadParses
    (∀ frame ∈ reached, headersDecode frame = true) ∨
      (reached ≠ frames ∨ refused maxFrameSize rest = true) ∧
        ∀ frame ∈ reached.dropWhile headersDecode,
          mayPublish ctx frame = true

abbrev itemCount (verdicts : List Verdict) : ℕ :=
  ((verdicts.filterMap Verdict.command).filterMap itemOf).length

theorem denial_eq_none {ctx : AuthContext} {frame : Bytes} :
    denial ctx frame = none ↔ mayPublish ctx frame = true := by
  rw [denial]
  split
  · rename_i allowed
    exact iff_of_true rfl allowed
  · rename_i denied
    exact iff_of_false nofun denied

theorem denials_agree_iff (ctx : AuthContext) (reached : List Bytes) :
    reached.filterMap (denial ctx) = (reached.takeWhile headersDecode).filterMap (denial ctx) ↔
      ∀ frame ∈ reached.dropWhile headersDecode,
        mayPublish ctx frame = true := by
  have parts : reached.filterMap (denial ctx) =
      (reached.takeWhile headersDecode).filterMap (denial ctx) ++
        (reached.dropWhile headersDecode).filterMap (denial ctx) := by
    rw [← List.filterMap_append, List.takeWhile_append_dropWhile]
  rw [parts, List.append_right_eq_self, List.filterMap_eq_nil_iff]
  exact forall₂_congr fun frame _ => denial_eq_none

section
variable {ctx : AuthContext} {maxFrameSize : ℕ} {frames : List Bytes} {rest : Bytes}

theorem counts_agree (restricted : ¬ctx.isPublishUnrestricted = true)
    (clean : (frames.takeWhile payloadParses).takeWhile headersDecode =
      frames.takeWhile payloadParses) :
    ((verdictsOn (checkVerdict ctx) frames).map Verdict.published).sum =
      itemCount (verdictsOn (collectVerdict ctx) frames) := by
  have same := settled_collect ctx frames
  rw [itemCount, published_check, items_collect, List.length_filterMap_eq_countP, same, clean]
  refine List.countP_congr fun frame member => ?_
  rw [← clean, ← same] at member
  have isOk : (collectVerdict ctx frame).isOk = true :=
    @List.mem_takeWhile_imp _ (fun frame => (collectVerdict ctx frame).isOk) _ _ member
  cases judged : collectVerdict ctx frame with
  | error e =>
    rw [judged] at isOk
    cases isOk
  | ok verdict =>
    obtain ⟨command, parsed, -⟩ := collectVerdict_ok judged
    rw [itemAt_isSome restricted parsed]

theorem checked_agrees_iff (restricted : ¬ctx.isPublishUnrestricted = true) :
    outcome (checkVerdict ctx) (fun verdicts => (verdicts.map Verdict.published).sum)
        maxFrameSize frames rest = outcome (collectVerdict ctx) itemCount maxFrameSize frames rest ↔
      Agreeable ctx maxFrameSize frames rest := by
  have counts := @counts_agree ctx frames restricted
  rw [Agreeable, if_neg restricted, outcome, outcome, denied_check, denied_collect, settled_check,
    settled_collect]
  dsimp only
  have inside : ∀ frame ∈ frames.takeWhile payloadParses, frame ∈ frames :=
    fun frame member => List.takeWhile_subset _ member
  generalize frames.takeWhile payloadParses = reached at counts inside ⊢
  by_cases clean : ∀ frame ∈ reached, headersDecode frame = true
  · have same : reached.takeWhile headersDecode = reached := List.takeWhile_eq_self_iff.mpr clean
    refine iff_of_true ?_ (.inl clean)
    rw [same, counts same]
  · have shorter : reached.takeWhile headersDecode ≠ frames := by
      intro all
      exact clean fun frame member => List.mem_takeWhile_imp (all ▸ inside frame member)
    rw [if_neg (fun both => shorter both.1 :
      ¬(reached.takeWhile headersDecode = frames ∧ refused maxFrameSize rest = false))]
    by_cases finished : reached = frames ∧ refused maxFrameSize rest = false
    · rw [if_pos finished]
      refine iff_of_false (fun same => Bool.false_ne_true (congrArg Report.failed same)) ?_
      rintro (all | ⟨unfinished | isRefused, -⟩)
      · exact clean all
      · exact unfinished finished.1
      · exact Bool.false_ne_true (finished.2.symm.trans isRefused)
    · rw [if_neg finished, Report.mk.injEq, denials_agree_iff]
      have unfinished : reached ≠ frames ∨ refused maxFrameSize rest = true := by
        rwa [← Bool.not_eq_false, ← not_and_or]
      constructor
      · rintro ⟨-, -, allowed, -⟩
        exact .inr ⟨unfinished, allowed⟩
      · rintro (all | ⟨-, allowed⟩)
        · exact absurd all clean
        · exact ⟨rfl, rfl, allowed, rfl⟩

theorem itemAt_free (free : ctx.isPublishUnrestricted = true) {frame : Bytes}
    (whole : Whole maxFrameSize frame) : itemAt ctx frame = itemIn maxFrameSize frame := by
  rw [itemAt, if_pos (mayPublish_free free frame), itemIn, commandIn_whole whole]

theorem collects_of_item {frame : Bytes} (some : (itemIn maxFrameSize frame).isSome = true) :
    (collectVerdict ctx frame).isOk = true := by
  obtain ⟨command, found⟩ := Option.isSome_iff_exists.mp (isSome_command some)
  rw [collectVerdict, fastCommand_of_commandIn found]
  rfl

theorem skipped_agrees_iff (free : ctx.isPublishUnrestricted = true)
    (whole : ∀ frame ∈ frames, Whole maxFrameSize frame) :
    outcome skipVerdict List.length maxFrameSize frames rest =
        outcome (collectVerdict ctx) itemCount maxFrameSize frames rest ↔
      Agreeable ctx maxFrameSize frames rest := by
  have silent : ∀ taken : List Bytes, taken.filterMap (denial ctx) = [] := fun taken =>
    List.filterMap_eq_nil_iff.mpr fun frame _ => denial_eq_none.mpr (mayPublish_free free frame)
  have all : settled skipVerdict frames = frames := List.takeWhile_eq_self_iff.mpr fun _ _ => rfl
  have skipped : (verdictsOn skipVerdict frames).filterMap Verdict.denied = [] :=
    (@filterMap_verdictsOn Frame skipVerdict Verdict.denied (fun _ => none)
      (fun frame verdict judged => by rw [← Except.ok.inj judged]) frames).trans
      (List.filterMap_eq_nil_iff.mpr fun _ _ => rfl)
  have count : (verdictsOn skipVerdict frames).length = frames.length := by
    rw [← (judged_settled skipVerdict frames).length_eq, all]
  rw [Agreeable, if_pos free, outcome, outcome, denied_collect, silent, skipped, all, count]
  cases isRefused : refused maxFrameSize rest with
  | true =>
    rw [if_neg fun both => Bool.false_ne_true both.2.symm,
      if_neg fun both => Bool.false_ne_true both.2.symm]
    exact iff_of_true rfl (.inl rfl)
  | false =>
    rw [if_pos ⟨rfl, rfl⟩]
    by_cases decoded : settled (collectVerdict ctx) frames = frames
    · rw [if_pos ⟨decoded, rfl⟩, Report.mk.injEq, itemCount, items_collect, decoded,
        List.length_filterMap_eq_countP, eq_comm (a := frames.length), List.countP_eq_length]
      have items : (∀ frame ∈ frames, (itemAt ctx frame).isSome = true) ↔
          ∀ frame ∈ frames, (itemIn maxFrameSize frame).isSome = true :=
        forall₂_congr fun frame member => by rw [itemAt_free free (whole frame member)]
      rw [items]
      constructor
      · rintro ⟨-, -, -, every⟩
        exact .inr every
      · rintro (isRefused | every)
        · exact absurd isRefused Bool.false_ne_true
        · exact ⟨rfl, rfl, rfl, every⟩
    · rw [if_neg fun both => decoded both.1]
      refine iff_of_false (fun same => Bool.false_ne_true (congrArg Report.failed same)) ?_
      rintro (isRefused | items)
      · exact Bool.false_ne_true isRefused
      · exact decoded (List.takeWhile_eq_self_iff.mpr fun frame member =>
          collects_of_item (items frame member))

end

/-- Without live subscriptions, on a buffer with at most as many leading `PUB` frames
as the general path takes at once. -/
theorem drain_agrees_iff (before : DeliveryPolicy) (config : ServerConfig)
    (history : List BrokerOp) (conn : ConnectionId) (past : List Event) (ctx : AuthContext)
    (maxFrameSize : ℕ) (buf : Bytes) (env : DeliveryPolicy) (order : PendingOrder) :
    let b := (Host.run before config ⟨run before history, .start conn, .select⟩ past).broker
    (∀ id, b.registry.getRef id = none) → leadingPubs maxFrameSize buf ≤ pubBatchLimit →
    (report b (drainPublishBatchWithoutSubscribers ctx maxFrameSize (.start buf b)) =
        report b (generalPath env order ctx maxFrameSize (.start buf b)) ↔
      Agreeable ctx maxFrameSize (leading maxFrameSize buf.length buf).1
        (leading maxFrameSize buf.length buf).2) := by
  intro b nobody few
  obtain ⟨l, refines⟩ : ∃ l, Refines b l := exists_ledger before config history conn past
  have empty : l.live = [] := by
    refine List.eq_nil_iff_forall_not_mem.mpr fun entry member => ?_
    obtain ⟨sub, found, -⟩ := refines.registry.lookup_of_mem member
    exact Option.some_ne_none sub (found.symm.trans (nobody entry.id))
  have division := leading_division maxFrameSize (Nat.le_refl buf.length)
  rw [general_report refines division few empty env order]
  by_cases free : ctx.isPublishUnrestricted = true
  · rw [drain_free_report refines division few free]
    exact skipped_agrees_iff free division.whole
  · rw [drain_checked_report refines division few free]
    exact checked_agrees_iff free

set_option maxRecDepth 4000 in
theorem drain_agrees_on_pubFrame :
    report (run acceptAll []) (drainPublishBatchWithoutSubscribers .unrestricted 64
        (.start pubFrame (run acceptAll []))) =
      report (run acceptAll []) (generalPath acceptAll (.stored _ _) .unrestricted 64
        (.start pubFrame (run acceptAll []))) :=
  (drain_agrees_iff acceptAll openServer [] 1 [] .unrestricted 64 pubFrame acceptAll (.stored _ _)
    (fun _ => rfl) (by decide)).mpr (by
      rw [Agreeable, if_pos (by decide)]
      decide)

private def notText : Bytes := ((Frame.new .pub 8).withPayload [0, 1, 0xff, 0, 0]).encode

set_option maxRecDepth 4000 in
/-- The drain takes and counts a frame that the general path fails on, and one whose
subject is no text. -/
theorem drain_counts_what_is_not_published :
    let b := run acceptAll []
    let drain := fun buf => report b (drainPublishBatchWithoutSubscribers .unrestricted 64
      (.start buf b))
    let general := fun buf => report b (generalPath acceptAll (.stored _ _) .unrestricted 64
      (.start buf b))
    (drain cutSubject).failed = false ∧ (drain cutSubject).added = 1 ∧
      (general cutSubject).failed = true ∧
      (drain notText).added = 1 ∧ (general notText).failed = false ∧
      (general notText).added = 0 := by
  decide

end ZetMQ.DrainAgreement
