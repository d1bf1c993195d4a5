import ZetMQ.PubSections

/-! What a batch loop makes of each whole frame: it fails on it, or takes it off the
buffer and denies it, counts it or keeps its command. The three loops of the fast
path differ in these verdicts only. -/
namespace ZetMQ.PubVerdicts
open Utf8Text ByteBuffer Frames SubjectGrammar Delivery Broker SubscriptionLedger BrokerRefinement
open LedgerDelivery FrameCodec Commands Permissions PubFastPath SessionSteps PubFrames PubDecoders
open PubSections

/-- What comes of a frame that is taken. -/
structure Verdict where
  denied : Option Frame
  published : ℕ
  command : Option PublishCommand

def allows (ctx : AuthContext) (subjectBytes : Bytes) : Bool :=
  ctx.isPublishUnrestricted ||
    match fromUtf8 subjectBytes with
    | none => false
    | some text =>
      match Subject.parse text with
      | .error _ => false
      | .ok subject => ctx.canPublish subject

theorem publishAllowed_eq {b : BrokerCore} {l : Ledger} (h : Refines b l) (ctx : AuthContext)
    (subjectBytes : Bytes) :
    Asked b (publishAllowed b ctx subjectBytes).1 ∧
      (publishAllowed b ctx subjectBytes).2 = allows ctx subjectBytes := by
  refine ⟨(publishAllowed_spec h ctx subjectBytes).1, ?_⟩
  unfold publishAllowed allows
  by_cases free : ctx.isPublishUnrestricted = true
  · rw [if_pos free, free, Bool.true_or]
  · rw [if_neg free, Bool.not_eq_true _ |>.mp free, Bool.false_or]
    cases fromUtf8 subjectBytes with
    | none => rfl
    | some text =>
      have parsed := parseSubject_snd h text
      dsimp only
      cases result : b.parseSubject text with
      | mk b' answer =>
        rw [result] at parsed
        rw [← parsed]
        cases answer with
        | error e => rfl
        | ok subject => rfl

def mayPublish (ctx : AuthContext) (frame : Bytes) : Bool :=
  allows ctx (subjectIn (payloadIn frame))

variable {ctx : AuthContext} {frame : Bytes} {maxFrameSize : ℕ} (l : Ledger)

theorem mayPublish_free (free : ctx.isPublishUnrestricted = true) (frame : Bytes) :
    mayPublish ctx frame = true := by
  rw [mayPublish, allows, free, Bool.true_or]

def ruling (ctx : AuthContext) (frame subjectBytes : Bytes) (granted : Verdict) : Verdict :=
  if allows ctx subjectBytes then granted else ⟨some (publishDenied (beAt frame 6 8)), 0, none⟩

theorem ruling_own (ctx : AuthContext) (frame : Bytes) (granted : Verdict) :
    ruling ctx frame (subjectIn (payloadIn frame)) granted =
      if mayPublish ctx frame then granted
      else ⟨some (publishDenied (beAt frame 6 8)), 0, none⟩ := rfl

def skipVerdict (_ : Bytes) : Except ProtocolError Verdict := .ok ⟨none, 0, none⟩

def checkVerdict (ctx : AuthContext) (frame : Bytes) : Except ProtocolError Verdict :=
  (parsePublishPayload (payloadIn frame)).map fun layout =>
    ruling ctx frame (slice (payloadIn frame) layout.subject.1 layout.subject.2) ⟨none, 1, none⟩

def collectVerdict (ctx : AuthContext) (frame : Bytes) : Except ProtocolError Verdict :=
  (fastCommand (headersIn frame) (payloadIn frame)).map fun command =>
    ruling ctx frame command.subject ⟨none, 0, some command⟩

section
variable {α β ε : Type} {f : α → β} {result : Except ε α}

theorem map_eq_ok {value : β} :
    result.map f = .ok value ↔ ∃ a, result = .ok a ∧ f a = value := by
  cases result <;> simp [Except.map]

theorem map_eq_error {e : ε} : result.map f = .error e ↔ result = .error e := by
  cases result <;> simp [Except.map]

end

theorem checkVerdict_ok {verdict : Verdict} (judged : checkVerdict ctx frame = .ok verdict) :
    verdict = ruling ctx frame (subjectIn (payloadIn frame)) ⟨none, 1, none⟩ := by
  obtain ⟨layout, parsed, rfl⟩ := map_eq_ok.mp judged
  rw [(parsePublishPayload_ok parsed).2]
  rfl

theorem collectVerdict_ok {verdict : Verdict} (judged : collectVerdict ctx frame = .ok verdict) :
    ∃ command, fastCommand (headersIn frame) (payloadIn frame) = .ok command ∧
      verdict = ruling ctx frame (subjectIn (payloadIn frame)) ⟨none, 0, some command⟩ := by
  obtain ⟨command, parsed, rfl⟩ := map_eq_ok.mp judged
  refine ⟨command, parsed, ?_⟩
  rw [(divided_of_fastCommand parsed).2.subject]

/-- A loop after some frames were taken, with `rest` left in the buffer. -/
structure Took (verdicts : List Verdict) (rest : Bytes) (loop loop' : PubLoop) : Prop where
  asked : Asked loop.broker loop'.broker
  readBuf : loop'.readBuf = rest
  processed : loop'.processed = loop.processed + verdicts.length
  published : loop'.published = loop.published + (verdicts.map Verdict.published).sum
  commands : loop'.commands = loop.commands ++ verdicts.filterMap Verdict.command
  outbound : loop'.outbound = loop.outbound ++ verdicts.filterMap Verdict.denied

theorem Took.nil (loop : PubLoop) : Took [] loop.readBuf loop loop :=
  ⟨.refl _, rfl, rfl, rfl, (List.append_nil _).symm, (List.append_nil _).symm⟩

theorem Took.trans {first second : List Verdict} {rest rest' : Bytes} {loop loop' loop'' : PubLoop}
    (h : Took first rest loop loop') (h' : Took second rest' loop' loop'') :
    Took (first ++ second) rest' loop loop'' where
  asked := h.asked.trans h'.asked
  readBuf := h'.readBuf
  processed := by rw [h'.processed, h.processed, List.length_append, Nat.add_assoc]
  published := by
    rw [h'.published, h.published, List.map_append, List.sum_append, Nat.add_assoc]
  commands := by rw [h'.commands, h.commands, List.filterMap_append, List.append_assoc]
  outbound := by rw [h'.outbound, h.outbound, List.filterMap_append, List.append_assoc]

def after (loop : PubLoop) (broker : BrokerCore) (verdict : Verdict) (rest : Bytes) : PubLoop where
  readBuf := rest
  broker := broker
  outbound := loop.outbound ++ verdict.denied.toList
  processed := loop.processed + 1
  published := loop.published + verdict.published
  commands := loop.commands ++ verdict.command.toList

theorem took_after {loop : PubLoop} {broker : BrokerCore} (asked : Asked loop.broker broker)
    (verdict : Verdict) (rest : Bytes) :
    Took [verdict] rest loop (after loop broker verdict rest) where
  asked := asked
  readBuf := rfl
  processed := rfl
  published := by rw [List.map_singleton, List.sum_singleton, after]
  commands := by cases command : verdict.command <;> simp [after, command]
  outbound := by cases denied : verdict.denied <;> simp [after, denied]

structure GaveUp (loop loop' : PubLoop) : Prop where
  asked : Asked loop.broker loop'.broker
  outbound : loop'.outbound = loop.outbound

structure Judges (l : Ledger) (maxFrameSize : ℕ) (body : PubLoop → Turn × PubLoop)
    (judge : Bytes → Except ProtocolError Verdict) : Prop where
  takes : ∀ {loop frame rest verdict}, Refines loop.broker l → Whole maxFrameSize frame →
    loop.readBuf = frame ++ rest → judge frame = .ok verdict →
    ∃ loop', body loop = (.next, loop') ∧ Took [verdict] rest loop loop'
  fails : ∀ {loop frame rest e}, Whole maxFrameSize frame → loop.readBuf = frame ++ rest →
    judge frame = .error e → ∃ loop', body loop = (.fail e, loop') ∧ GaveUp loop loop'
  refuses : ∀ {loop e}, peekPubFrameTotal loop.readBuf maxFrameSize = .error e →
    body loop = (.fail e, loop)
  stops : ∀ {loop}, peekPubFrameTotal loop.readBuf maxFrameSize = .ok none →
    body loop = (.stop, loop)

theorem skipFrame_judges (maxFrameSize : ℕ) :
    Judges l maxFrameSize (skipFrame maxFrameSize) skipVerdict where
  takes := by
    intro loop frame rest verdict refines whole buf judged
    obtain rfl := Except.ok.inj judged
    refine ⟨_, ?_, took_after (.refl _) ⟨none, 0, none⟩ rest⟩
    rw [skipFrame, buf, whole.peek]
    simp only [after, List.drop_left, Option.toList_none, List.append_nil, Nat.add_zero]
  fails := fun _ _ judged => nomatch judged
  refuses := fun failed => by rw [skipFrame, failed]
  stops := skipFrame_stop

theorem peekPubFrameLayout_error {buf : Bytes} {e : ProtocolError}
    (failed : peekPubFrameTotal buf maxFrameSize = .error e) :
    peekPubFrameLayout buf maxFrameSize = .error e := by
  rw [peekPubFrameLayout, failed]
  rfl

theorem payload_in_front (whole : Whole maxFrameSize frame) (rest : Bytes) :
    slice (frame ++ rest) (layoutOf frame frame.length).payloadStart
      (layoutOf frame frame.length).payloadEnd = payloadIn frame := by
  have stop : (layoutOf frame frame.length).payloadEnd = frame.length := whole.exactly
  rw [stop, slice_append (Nat.le_refl _), payloadIn, whole.exactly, List.take_length]
  rfl

theorem checkFrame_judges (ctx : AuthContext) (maxFrameSize : ℕ) :
    Judges l maxFrameSize (checkFrame ctx maxFrameSize) (checkVerdict ctx) where
  takes := by
    intro loop frame rest verdict refines whole buf judged
    obtain ⟨layout, parsed, rfl⟩ := map_eq_ok.mp judged
    obtain ⟨asked, answer⟩ := publishAllowed_eq refines ctx
      (slice (payloadIn frame) layout.subject.1 layout.subject.2)
    refine ⟨_, ?_, took_after asked _ rest⟩
    rw [checkFrame, buf, whole.peekLayout]
    dsimp only
    rw [payload_in_front whole, parsed]
    dsimp only
    rw [answer, ruling, show (layoutOf frame frame.length).total = frame.length from rfl,
      List.drop_left]
    split_ifs with allowed
    · simp only [after, Option.toList_none, List.append_nil]
    · simp only [after, Option.toList_none, Option.toList_some, List.append_nil, Nat.add_zero]
      rfl
  fails := by
    intro loop frame rest e whole buf judged
    refine ⟨loop, ?_, .refl _, rfl⟩
    rw [checkFrame, buf, whole.peekLayout]
    dsimp only
    rw [payload_in_front whole, map_eq_error.mp judged]
  refuses := fun failed => by rw [checkFrame, peekPubFrameLayout_error failed]
  stops := fun part => by
    rw [checkFrame, peekPubFrameLayout, part]
    rfl

theorem decode_in_front (whole : Whole maxFrameSize frame) (rest : Bytes) :
    decodePublishCommandFromBuf (frame ++ rest) (layoutOf frame frame.length) =
      ((fastCommand (headersIn frame) (payloadIn frame)).map
        fun command => (command, beAt frame 6 8), rest) := by
  have alone := decodePublishCommandFromBuf_eq frame
  rw [whole.exactly, List.drop_length] at alone
  rw [decodePublishCommandFromBuf_append (Nat.le_refl _), alone, List.nil_append]

theorem collectFrame_judges (ctx : AuthContext) (maxFrameSize : ℕ) :
    Judges l maxFrameSize (collectFrame ctx maxFrameSize) (collectVerdict ctx) where
  takes := by
    intro loop frame rest verdict refines whole buf judged
    obtain ⟨command, parsed, rfl⟩ := map_eq_ok.mp judged
    obtain ⟨asked, answer⟩ := publishAllowed_eq refines ctx command.subject
    refine ⟨_, ?_, took_after asked _ rest⟩
    rw [collectFrame, buf, whole.peekLayout]
    dsimp only
    rw [decode_in_front whole, parsed]
    dsimp only [Except.map]
    rw [answer, ruling]
    split_ifs with allowed <;>
      simp only [after, Option.toList_none, Option.toList_some, List.append_nil, Nat.add_zero]
  fails := by
    intro loop frame rest e whole buf judged
    refine ⟨{ loop with readBuf := rest }, ?_, .refl _, rfl⟩
    rw [collectFrame, buf, whole.peekLayout]
    dsimp only
    rw [decode_in_front whole, map_eq_error.mp judged]
    rfl
  refuses := fun failed => by rw [collectFrame, peekPubFrameLayout_error failed]
  stops := collectFrame_stop ctx

end ZetMQ.PubVerdicts
