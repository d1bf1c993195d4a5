import ZetMQ.BatchPlan

/-! Handles as channels. A channel answers from what it was itself offered during
the call; a sticky one that refuses a message refuses everything after it. What a
handle accepts then depends only on the sequence of its own offers. -/
namespace ZetMQ.Channels
open Utf8Text SubjectGrammar WildcardTrie KeyedTable Delivery Broker DeliveryPlan BatchPlan

/-- The answer of each handle to a message, given its earlier offers. -/
abbrev Answers := DeliveryHandle → List DeliveryMessage → DeliveryMessage → DeliveryStatus

def Sticky (answer : Answers) : Prop :=
  ∀ handle past message more next, answer handle past message ≠ .delivered →
    answer handle (past ++ message :: more) next ≠ .delivered

def offeredTo (calls : List DeliverCall) (handle : DeliveryHandle) : List DeliveryMessage :=
  (calls.filter (·.handle = handle)).map (·.message)

def acceptedBy (calls : List DeliverCall) (handle : DeliveryHandle) : List DeliveryMessage :=
  ((calls.filter (·.handle = handle)).filter wasDelivered).map (·.message)

/-- The policy of a set of channels during a call that starts at log length `start`. -/
def channelPolicy (answer : Answers) (start : ℕ) : DeliveryPolicy :=
  fun log handle message => answer handle (offeredTo (log.drop start) handle) message

variable {log : List DeliverCall} (calls : List DeliverCall) (handle : DeliveryHandle)

@[simp] theorem offeredTo_nil : offeredTo [] handle = [] := rfl

@[simp] theorem acceptedBy_nil : acceptedBy [] handle = [] := rfl

theorem offeredTo_append (first rest : List DeliverCall) (handle : DeliveryHandle) :
    offeredTo (first ++ rest) handle = offeredTo first handle ++ offeredTo rest handle := by
  rw [offeredTo, List.filter_append, List.map_append]
  rfl

theorem acceptedBy_append (first rest : List DeliverCall) (handle : DeliveryHandle) :
    acceptedBy (first ++ rest) handle = acceptedBy first handle ++ acceptedBy rest handle := by
  rw [acceptedBy, List.filter_append, List.filter_append, List.map_append]
  rfl

theorem offeredTo_cons (call : DeliverCall) :
    offeredTo (call :: calls) handle =
      if call.handle = handle then call.message :: offeredTo calls handle
      else offeredTo calls handle := by
  unfold offeredTo
  split_ifs with same <;> simp [same]

theorem acceptedBy_cons (call : DeliverCall) :
    acceptedBy (call :: calls) handle =
      if call.handle = handle ∧ wasDelivered call = true
      then call.message :: acceptedBy calls handle
      else acceptedBy calls handle := by
  unfold acceptedBy
  by_cases same : call.handle = handle <;> by_cases taken : wasDelivered call = true <;>
    simp [same, taken]

def takes (answer : List DeliveryMessage → DeliveryMessage → DeliveryStatus) :
    List DeliveryMessage → List DeliveryMessage → List DeliveryMessage
  | _, [] => []
  | past, message :: rest =>
    if answer past message = .delivered then message :: takes answer (past ++ [message]) rest
    else takes answer (past ++ [message]) rest

def takesUntil (answer : List DeliveryMessage → DeliveryMessage → DeliveryStatus) :
    List DeliveryMessage → List DeliveryMessage → List DeliveryMessage
  | _, [] => []
  | past, message :: rest =>
    if answer past message = .delivered then message :: takesUntil answer (past ++ [message]) rest
    else []

theorem takes_refused {answer : Answers} (sticky : Sticky answer) (handle : DeliveryHandle)
    (past : List DeliveryMessage) {message : DeliveryMessage}
    (refused : answer handle past message ≠ .delivered) (more rest : List DeliveryMessage) :
    takes (answer handle) (past ++ message :: more) rest = [] := by
  induction rest generalizing more with
  | nil => rfl
  | cons next rest ih =>
    rw [takes, if_neg (sticky handle past message more next refused), List.append_assoc,
      List.cons_append]
    exact ih (more ++ [next])

theorem takes_eq_takesUntil {answer : Answers} (sticky : Sticky answer) (handle : DeliveryHandle)
    (past messages : List DeliveryMessage) :
    takes (answer handle) past messages = takesUntil (answer handle) past messages := by
  induction messages generalizing past with
  | nil => rfl
  | cons message rest ih =>
    rw [takes, takesUntil]
    split_ifs with taken
    · rw [ih]
    · exact takes_refused sticky handle past taken [] rest

variable (answer : Answers) {start : ℕ}

theorem offeredTo_drop (long : start ≤ log.length) (call : DeliverCall) (handle : DeliveryHandle) :
    offeredTo ((log ++ [call]).drop start) handle =
      offeredTo (log.drop start) handle ++ offeredTo [call] handle := by
  rw [List.drop_append_of_le_length long, offeredTo_append]

theorem acceptedBy_settle (long : start ≤ log.length) (offers : List Offer)
    (handle : DeliveryHandle) :
    acceptedBy (settle (channelPolicy answer start) log offers) handle =
      takes (answer handle) (offeredTo (log.drop start) handle)
        ((offers.filter (·.1 = handle)).map Prod.snd) := by
  induction offers generalizing log with
  | nil => rfl
  | cons first rest ih =>
    obtain ⟨target, message⟩ := first
    have longer (call : DeliverCall) : start ≤ (log ++ [call]).length := by simp; omega
    rw [settle, acceptedBy_cons, ih (longer _), offeredTo_drop long, offeredTo_cons]
    by_cases same : target = handle
    · subst same
      by_cases taken : answer target (offeredTo (log.drop start) target) message = .delivered <;>
        simp [wasDelivered, channelPolicy, takes, taken]
    · simp [same]

theorem acceptedBy_settleUntil (long : start ≤ log.length) (target : DeliveryHandle)
    (messages : List DeliveryMessage) (handle : DeliveryHandle) :
    acceptedBy (settleUntil (channelPolicy answer start) log (messages.map (target, ·))) handle =
      if target = handle
      then takesUntil (answer handle) (offeredTo (log.drop start) handle) messages else [] := by
  induction messages generalizing log with
  | nil => simp [settleUntil, takesUntil]
  | cons message rest ih =>
    have longer (call : DeliverCall) : start ≤ (log ++ [call]).length := by simp; omega
    rw [List.map_cons, settleUntil, acceptedBy_cons]
    by_cases same : target = handle
    · subst same
      by_cases taken : answer target (offeredTo (log.drop start) target) message = .delivered
      · simp [wasDelivered, channelPolicy, takesUntil, taken, ih (longer _), offeredTo_drop long,
          offeredTo_cons]
      · simp [wasDelivered, channelPolicy, takesUntil, taken]
    · simp only [same, false_and, if_false]
      split_ifs
      · rw [ih (longer _), if_neg same]
      · rfl

theorem length_settleUntil_le (env : DeliveryPolicy) (log : List DeliverCall)
    (offers : List Offer) : (settleUntil env log offers).length ≤ offers.length := by
  have shorter := (settleUntil_initial env log offers).length_le
  rwa [List.length_map] at shorter

theorem offeredTo_settleUntil_ne (env : DeliveryPolicy) (log : List DeliverCall)
    {target handle : DeliveryHandle} (other : target ≠ handle) (messages : List DeliveryMessage) :
    offeredTo (settleUntil env log (messages.map (target, ·))) handle = [] := by
  rw [offeredTo, List.map_eq_nil_iff, List.filter_eq_nil_iff]
  intro call member
  have listed := (settleUntil_initial env log _).subset (List.mem_map_of_mem (f := offered) member)
  obtain ⟨message, -, isOffer⟩ := List.mem_map.mp listed
  have : call.handle = target := (congrArg Prod.fst isOffer).symm
  simpa [this] using other

structure Pushed (answer : Answers) (start : ℕ) (b : BrokerCore) (parcels : List Parcel)
    (b' : BrokerCore) (new : List DeliverCall) : Prop where
  calls : b'.calls = b.calls ++ new
  accepted : ∀ parcel ∈ parcels, acceptedBy new parcel.1 =
    takesUntil (answer parcel.1) (offeredTo (b.calls.drop start) parcel.1) parcel.2
  others : ∀ handle ∉ parcels.map Prod.fst, acceptedBy new handle = []
  published : b'.metrics.messagesPublished = b.metrics.messagesPublished
  delivered : b'.metrics.messagesDelivered =
    b.metrics.messagesDelivered + new.countP wasDelivered
  dropped : b'.metrics.messagesDropped + new.countP wasDelivered =
    b.metrics.messagesDropped + (parcels.map (·.2.length)).sum

theorem foldl_push (answer : Answers) {start : ℕ} (parcels : List Parcel)
    (nodup : (parcels.map Prod.fst).Nodup) {b : BrokerCore} (long : start ≤ b.calls.length) :
    ∃ new, Pushed answer start b parcels
      (parcels.foldl (push (channelPolicy answer start)) b) new := by
  induction parcels generalizing b with
  | nil => exact ⟨[], by simp, by simp, by simp, rfl, rfl, rfl⟩
  | cons parcel parcels ih =>
    obtain ⟨target, messages⟩ := parcel
    set env := channelPolicy answer start
    set first := settleUntil env b.calls (messages.map (target, ·)) with isFirst
    rw [List.map_cons, List.nodup_cons] at nodup
    have calls : (push env b (target, messages)).calls = b.calls ++ first := rfl
    obtain ⟨rest, pushed⟩ := @ih nodup.2 (push env b (target, messages)) (by
      rw [calls, List.length_append]
      omega)
    have took (handle : DeliveryHandle) := acceptedBy_settleUntil answer long target messages handle
    have past {handle : DeliveryHandle} (other : target ≠ handle) :
        offeredTo ((push env b (target, messages)).calls.drop start) handle =
          offeredTo (b.calls.drop start) handle := by
      rw [calls, List.drop_append_of_le_length long, offeredTo_append, isFirst,
        offeredTo_settleUntil_ne env b.calls other, List.append_nil]
    refine ⟨first ++ rest, ?_, ?_, ?_, pushed.published, ?_, ?_⟩
    · rw [List.foldl_cons, pushed.calls, calls, List.append_assoc]
    · intro parcel member
      rw [acceptedBy_append, took]
      rcases List.mem_cons.mp member with rfl | later
      · rw [pushed.others _ nodup.1, List.append_nil, if_pos rfl]
      · have other : target ≠ parcel.1 := by
          rintro rfl
          exact nodup.1 (List.mem_map.mpr ⟨parcel, later, rfl⟩)
        rw [if_neg other, List.nil_append, pushed.accepted parcel later, past other]
    · intro handle absent
      rw [List.map_cons, List.mem_cons, not_or] at absent
      rw [acceptedBy_append, took, if_neg (Ne.symm absent.1), pushed.others handle absent.2]
      rfl
    · rw [List.foldl_cons, pushed.delivered, List.countP_append, ← Nat.add_assoc]
      rfl
    · have counted : (push env b (target, messages)).metrics.messagesDropped =
          b.metrics.messagesDropped + (messages.length - first.countP wasDelivered) := rfl
      have fits : first.countP wasDelivered ≤ messages.length :=
        (List.countP_le_length (l := first)).trans (by
          have := length_settleUntil_le env b.calls (messages.map (target, ·))
          rwa [List.length_map] at this)
      have dropped := pushed.dropped
      rw [counted] at dropped
      rw [List.foldl_cons, List.countP_append, List.map_cons, List.sum_cons]
      dsimp only
      omega

theorem countP_by_handle (test : DeliverCall → Bool) {handles : List DeliveryHandle}
    (nodup : handles.Nodup) {calls : List DeliverCall}
    (inside : ∀ call ∈ calls, call.handle ∈ handles) :
    calls.countP test =
      (handles.map fun handle => (calls.filter (·.handle = handle)).countP test).sum := by
  induction handles generalizing calls with
  | nil =>
    have none : calls = [] := List.eq_nil_iff_forall_not_mem.mpr fun call member => by
      simpa using inside call member
    simp [none]
  | cons handle handles ih =>
    rw [List.nodup_cons] at nodup
    have rest := @ih nodup.2 (calls.filter (¬ ·.handle = handle)) (by
      intro call member
      obtain ⟨listed, other⟩ := List.mem_filter.mp member
      exact (List.mem_cons.mp (inside call listed)).resolve_left (by simpa using other))
    have same : ∀ next ∈ handles, ((calls.filter (¬ ·.handle = handle)).filter
        (·.handle = next)).countP test = (calls.filter (·.handle = next)).countP test := by
      intro next listed
      rw [List.filter_filter]
      congr 1
      refine List.filter_congr fun call _ => ?_
      have other : next ≠ handle := fun same => nodup.1 (same ▸ listed)
      by_cases here : call.handle = next <;> simp [here, other]
    have halves := (List.filter_append_perm (·.handle = handle) calls).countP_eq test
    rw [List.countP_append] at halves
    rw [List.map_cons, List.sum_cons, ← List.map_congr_left same, ← rest, ← halves]
    simp

theorem length_acceptedBy :
    (acceptedBy calls handle).length = (calls.filter (·.handle = handle)).countP wasDelivered := by
  rw [acceptedBy, List.length_map, List.countP_eq_length_filter]

end ZetMQ.Channels
