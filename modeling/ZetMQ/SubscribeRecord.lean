import ZetMQ.ClientLink
import ZetMQ.ClientNumbers

/-! What the two ends of a link know about a subscription agrees: the ids the session has
given out belong to one `SUB` each, and an entry in the map of the client leads to the
channel of that `SUB`. -/
namespace ZetMQ.SubscribeRecord
open KeyedTable ClientConnection ClientSubscriptions LockedTasks ClientTasks ClientNumbers
  ClientLink

variable {M : Type} {opts : Options} {l : Link M}

def Answers (l : Link M) (corrId subId : ℕ) : Prop :=
  ∃ channel, l.created.lookup subId = some (corrId, channel)

def ChannelOf (l : Link M) (subId channel : ℕ) : Prop :=
  ∃ corrId, l.created.lookup subId = some (corrId, channel)

/-- Entered by its `subscribe` and not removed by an `unsubscribe`. -/
def Registered (l : Link M) (subId : ℕ) : Prop := subId ∈ l.entered ∧ subId ∉ l.removed

theorem ChannelOf.unique {subId channel channel' : ℕ} (first : ChannelOf l subId channel)
    (second : ChannelOf l subId channel') : channel = channel' := by
  obtain ⟨corrId, first⟩ := first
  obtain ⟨corrId', second⟩ := second
  cases first.symm.trans second
  rfl

structure Session (l : Link M) : Prop where
  below : ∀ subId sub, l.created.lookup subId = some sub → subId < l.nextId
  asked : ∀ subId corrId channel, l.created.lookup subId = some (corrId, channel) →
    .sub corrId channel ∈ l.conn.sent
  acking : ∀ corrId subId, l.acking = some (corrId, subId) → Answers l corrId subId
  answers : ∀ item ∈ l.enqueued, ∀ corrId subId, item.frame = .suback corrId subId →
    Answers l corrId subId
  messages : ∀ item ∈ l.enqueued, ∀ subId message, item.frame = .msg subId message →
    ∃ channel, ChannelOf l subId channel

theorem Session.sends {l l' : Link M} (h : Session l) (nextId : l'.nextId = l.nextId)
    (created : l'.created = l.created) (acking : l'.acking = l.acking)
    (enqueued : l'.enqueued = l.enqueued) (sent : l.conn.sent <+: l'.conn.sent) : Session l' := by
  have asked := fun subId corrId channel known =>
    sent.subset (h.asked subId corrId channel known)
  obtain ⟨client, served, nextId', created', acking', enqueued', taken, entered, removed,
    forwarded⟩ := l'
  obtain rfl := nextId
  obtain rfl := created
  obtain rfl := acking
  obtain rfl := enqueued
  exact ⟨h.below, asked, h.acking, h.answers, h.messages⟩

def StageSound (l : Link M) : Stage → Prop
  | .awaitingSuback corrId _ _ => ∀ subId ∈ l.entered, ¬ Answers l corrId subId
  | .entering corrId subId channel _ =>
    l.created.lookup subId = some (corrId, channel) ∧ subId ∉ l.entered
  | .recording subId _ _ _ | .taking subId _ | .leaving subId _ | .sendingUnsub subId _
  | .removing subId _ | .returned (.subscribed subId _) => subId ∈ l.entered
  | _ => True

structure Records (opts : Options) (l : Link M) : Prop where
  numbered : Numbered opts l.client
  single : ∀ (i : ℕ) (stage : Stage), l.client.stages[i]? = some stage → stage.replays = false
  resolved : ∀ corrId subId, l.conn.subacks.lookup corrId = some subId → Answers l corrId subId
  entered : ∀ subId ∈ l.entered, ∃ channel, ChannelOf l subId channel
  removed : ∀ subId ∈ l.removed, subId ∈ l.entered
  entry : ∀ subId channel, l.conn.maps.subscriptions.lookup subId = some channel →
    Registered l subId ∧ ChannelOf l subId channel
  kept : ∀ subId channel, Registered l subId → ChannelOf l subId channel →
    channel ∉ l.client.state.dropped → l.conn.maps.subscriptions.lookup subId = some channel
  record : ∀ id active, l.client.state.record.subscriptions.lookup id = some active →
    active.serverSubId = id ∧ id ∈ l.entered
  stages : ∀ (i : ℕ) (stage : Stage), l.client.stages[i]? = some stage → StageSound l stage

theorem outer_sound {stage : Stage} (outer : stage.outer = true) :
    stage.replays = false ∧ StageSound l stage := by
  cases stage with
  | returned outcome => cases outcome <;> first | exact ⟨rfl, trivial⟩ | cases outer
  | _ => first | exact ⟨rfl, trivial⟩ | cases outer

theorem StageSound.outside {l l' : Link M} {stage : Stage} (h : StageSound l stage)
    (outside : stage.inside = false) (grows : l.entered ⊆ l'.entered) : StageSound l' stage := by
  cases stage with
  | awaitingSuback | entering | recording | sendingUnsub | removing => cases outside
  | taking | leaving => exact grows h
  | returned outcome =>
    cases outcome with
    | subscribed => exact grows h
    | _ => trivial
  | _ => trivial

section
variable {i : ℕ} {stage stage' : Stage} {s' : ClientState M}

theorem moved_eq (enter : enters stage = none) (remove : removes stage = none) :
    l.moved i stage s' stage' = { l with client := ⟨s', l.client.stages.set i stage'⟩ } := by
  simp [Link.moved, enter, remove]

section
variable (h : Records opts l) (numbered : Numbered opts ⟨s', l.client.stages.set i stage'⟩)
include h numbered

theorem Records.goes (found : l.client.stages[i]? = some stage) (enter : enters stage = none)
    (remove : removes stage = none) (map : s'.conn.maps.subscriptions = l.conn.maps.subscriptions)
    (subacks : s'.conn.subacks = l.conn.subacks)
    (record : ∀ id active, s'.record.subscriptions.lookup id = some active →
      active.serverSubId = id ∧ id ∈ l.entered) (dropped : l.client.state.dropped ⊆ s'.dropped)
    (own : stage'.replays = false ∧ StageSound l stage') :
    Records opts (l.moved i stage s' stage') := by
  rw [moved_eq enter remove]
  exact {
    numbered := numbered
    single := forall_set found h.single (fun _ => own.1) fun _ ok => ok
    resolved := fun corrId subId known => h.resolved corrId subId (by rwa [← subacks])
    entered := h.entered
    removed := h.removed
    entry := fun subId channel known => h.entry subId channel (by rwa [← map])
    kept := fun subId channel registered isChannel live => by
      have known := h.kept subId channel registered isChannel fun gone => live (dropped gone)
      rwa [← map] at known
    record := record
    stages := forall_set found h.stages (fun _ => own.2) fun _ ok => ok }

theorem Records.enters {corrId subId channel : ℕ} {purpose : Purpose}
    (found : l.client.stages[i]? = some (.entering corrId subId channel purpose))
    (map : s'.conn.maps.subscriptions = l.conn.maps.subscriptions.insert subId channel)
    (subacks : s'.conn.subacks = l.conn.subacks) (record : s'.record = l.client.state.record)
    (dropped : s'.dropped = l.client.state.dropped) (own : stage'.replays = false ∧
      ∀ l' : Link M, subId ∈ l'.entered → StageSound l' stage') :
    Records opts (l.moved i (.entering corrId subId channel purpose) s' stage') := by
  obtain ⟨created, new⟩ := h.stages i _ found
  have grows : l.entered ⊆ l.entered ++ [subId] := List.subset_append_left _ _
  have here : subId ∈ l.entered ++ [subId] := List.mem_append_right _ (List.mem_singleton_self _)
  exact {
    numbered := numbered
    single := forall_set found h.single (fun _ => own.1) fun _ ok => ok
    resolved := fun corrId' subId' known => h.resolved corrId' subId' (by rwa [← subacks])
    entered := fun subId' member => by
      rcases List.mem_append.mp member with old | same
      · exact h.entered subId' old
      · cases List.mem_singleton.mp same
        exact ⟨channel, corrId, created⟩
    removed := fun subId' member =>
      grows (h.removed subId' (by simpa [Link.moved, removes] using member))
    entry := fun subId' channel' known => by
      have known : (l.conn.maps.subscriptions.insert subId channel).lookup subId'
        = some channel' := by
        rwa [← map]
      rcases lookup_insert_eq_some.mp known with ⟨rfl, rfl⟩ | ⟨-, old⟩
      · refine ⟨⟨here, fun gone => new (h.removed _ ?_)⟩, corrId, created⟩
        simpa [Link.moved, removes] using gone
      · obtain ⟨⟨member, stays⟩, isChannel⟩ := h.entry subId' channel' old
        exact ⟨⟨grows member, by simpa [Link.moved, removes] using stays⟩, isChannel⟩
    kept := fun subId' channel' registered isChannel live => by
      change s'.conn.maps.subscriptions.lookup subId' = some channel'
      rw [map, lookup_insert_ite]
      split_ifs with same
      · subst same
        exact congrArg some (ChannelOf.unique (l := l) ⟨corrId, created⟩ isChannel)
      · have old : subId' ∈ l.entered := by
          rcases List.mem_append.mp registered.1 with old | new
          exacts [old, absurd (List.mem_singleton.mp new) same]
        exact h.kept subId' channel'
          ⟨old, by simpa [Link.moved, removes] using registered.2⟩ isChannel (by rwa [← dropped])
    record := fun id active known => by
      obtain ⟨same, member⟩ := h.record id active (by rwa [← record])
      exact ⟨same, grows member⟩
    stages := h.numbered.exclusive.forall_set found (by simp [program, Stage.waits]) (.inl rfl)
      h.stages (fun _ => own.2 _ here) fun _ outside ok => ok.outside outside grows }

theorem Records.removes {subId channel : ℕ}
    (found : l.client.stages[i]? = some (.removing subId channel))
    (map : s'.conn.maps.subscriptions = l.conn.maps.subscriptions.erase subId)
    (subacks : s'.conn.subacks = l.conn.subacks) (record : s'.record = l.client.state.record)
    (dropped : s'.dropped = l.client.state.dropped)
    (own : stage'.replays = false ∧ ∀ l' : Link M, StageSound l' stage') :
    Records opts (l.moved i (.removing subId channel) s' stage') := by
  have member : subId ∈ l.entered := h.stages i _ found
  have entered : (l.moved i (.removing subId channel) s' stage').entered = l.entered := by
    simp [Link.moved, ClientLink.enters]
  exact {
    numbered := numbered
    single := forall_set found h.single (fun _ => own.1) fun _ ok => ok
    resolved := fun corrId' subId' known => h.resolved corrId' subId' (by rwa [← subacks])
    entered := fun subId' member => h.entered subId' (by rwa [← entered])
    removed := fun subId' gone => by
      rw [entered]
      rcases List.mem_append.mp gone with old | same
      · exact h.removed subId' old
      · cases List.mem_singleton.mp same
        exact member
    entry := fun subId' channel' known => by
      have known : (l.conn.maps.subscriptions.erase subId).lookup subId' = some channel' := by
        rwa [← map]
      obtain ⟨other, known⟩ := lookup_erase_eq_some.mp known
      obtain ⟨⟨member, stays⟩, isChannel⟩ := h.entry subId' channel' known
      refine ⟨⟨by rwa [entered], fun gone => ?_⟩, isChannel⟩
      rcases List.mem_append.mp gone with old | same
      exacts [stays old, other (List.mem_singleton.mp same)]
    kept := fun subId' channel' registered isChannel live => by
      change s'.conn.maps.subscriptions.lookup subId' = some channel'
      have other : subId' ≠ subId := fun same =>
        registered.2 (List.mem_append_right _ (List.mem_singleton.mpr same))
      rw [map, lookup_erase_ite, if_neg other]
      exact h.kept subId' channel' ⟨by rw [← entered]; exact registered.1,
        fun gone => registered.2 (List.mem_append_left _ gone)⟩ isChannel (by rwa [← dropped])
    record := fun id active known => by
      rw [entered]
      exact h.record id active (by rwa [← record])
    stages := h.numbered.exclusive.forall_set found (by simp [program, Stage.waits]) (.inl rfl)
      h.stages (fun _ => own.2 _) fun _ outside ok => ok.outside outside (by rw [entered]; simp) }

end

theorem idle_changes (idle : stage.idle = true) :
    ClientLink.enters stage = none ∧ ClientLink.removes stage = none := by
  cases stage <;> first | exact ⟨rfl, rfl⟩ | cases idle

theorem waits_changes (waits : stage.waits = true) :
    ClientLink.enters stage = none ∧ ClientLink.removes stage = none := by
  cases stage <;> first | exact ⟨rfl, rfl⟩ | cases waits

theorem Records.moved (h : Records opts l) (session : Session l) {choice : Choice}
    (chosen : choice ≠ .accepted)
    (step : l.client.next (program opts) i choice = some (stage, s', stage')) :
    Records opts (l.moved i stage s' stage') := by
  obtain ⟨found, lock, work⟩ := next_eq_some.mp step
  have numbered := h.numbered.moved step
  have single := h.single i stage found
  have number := h.numbered.stages i stage found
  have own := h.stages i stage found
  have goes := h.goes numbered found
  cases worked_of_work work with
  | wanders was next =>
    obtain ⟨enter, remove⟩ := idle_changes was
    exact goes enter remove rfl rfl h.record (List.Subset.refl _) (outer_sound next)
  | publishes | subscribes | flushes | closes | sendsPub | joins | sendsPing | failsPing
  | flushed | expires | forgets =>
    exact goes rfl rfl rfl rfl h.record (List.Subset.refl _) ⟨rfl, trivial⟩
  | shuts waits =>
    obtain ⟨enter, remove⟩ := waits_changes waits
    exact goes enter remove rfl rfl h.record (List.Subset.refl _) ⟨rfl, trivial⟩
  | drains attempt drained next =>
    rcases next with rfl | ⟨who, k, delay, -, rfl⟩ <;>
      exact goes rfl rfl rfl rfl h.record (List.Subset.refl _) ⟨rfl, trivial⟩
  | takes id channel =>
    refine goes rfl rfl rfl rfl (fun id' active known => ?_) (List.Subset.refl _) ⟨rfl, ?_⟩
    · exact h.record id' active (lookup_erase_eq_some.mp known).2
    · change ((l.client.state.record.subscriptions.lookup id).map _).getD id ∈ l.entered
      cases known : l.client.state.record.subscriptions.lookup id with
      | none => exact own
      | some active =>
        obtain ⟨same, member⟩ := h.record id active known
        rwa [Option.map_some, Option.getD_some, same]
  | leaves | sendsUnsub =>
    exact goes rfl rfl rfl rfl h.record (List.Subset.refl _) ⟨rfl, own⟩
  | accepted who attempt delay accepted => exact absurd accepted chosen
  | copies | remaps => cases single
  | registers corrId channel purpose =>
    refine goes rfl rfl rfl rfl h.record (List.Subset.refl _) ⟨?_, trivial⟩
    cases purpose <;> [rfl; cases single]
  | sendsSub corrId channel purpose =>
    refine goes rfl rfl rfl rfl h.record (List.Subset.refl _) ⟨?_, ?_⟩
    · cases purpose <;> [rfl; cases single]
    · rintro subId - ⟨channel', created⟩
      exact number.2 _ (session.asked subId corrId channel' created) rfl
  | failsSub corrId channel purpose =>
    cases purpose with
    | fresh => exact goes rfl rfl rfl rfl h.record (List.subset_append_left _ _) ⟨rfl, trivial⟩
    | replay => cases single
  | acked corrId subId channel purpose known =>
    obtain ⟨channel', created⟩ := h.resolved corrId subId known
    have asked := session.asked subId corrId channel' created
    obtain rfl := h.numbered.sub_once asked number
    refine goes rfl rfl rfl rfl h.record (List.Subset.refl _) ⟨?_, created, fun member => ?_⟩
    · cases purpose <;> [rfl; cases single]
    · exact own subId member ⟨channel', created⟩
  | enters corrId subId channel purpose free entered =>
    subst entered
    cases purpose with
    | fresh subject queueGroup track =>
      cases track <;>
        exact h.enters numbered found rfl rfl rfl rfl ⟨rfl, fun l' member => member⟩
    | replay => cases single
  | records subId channel subject queueGroup =>
    refine goes rfl rfl rfl rfl (fun id active known => ?_) (List.Subset.refl _) ⟨rfl, own⟩
    rcases lookup_insert_eq_some.mp known with ⟨rfl, rfl⟩ | ⟨-, known⟩
    exacts [⟨rfl, own⟩, h.record id active known]
  | removes subId channel =>
    exact h.removes numbered found rfl rfl rfl rfl ⟨rfl, fun _ => trivial⟩

end

theorem Records.net (h : Records opts l) {s' : ClientState M}
    (numbered : Numbered opts ⟨s', l.client.stages⟩)
    (map : ∀ subId channel, s'.conn.maps.subscriptions.lookup subId = some channel →
      l.conn.maps.subscriptions.lookup subId = some channel)
    (stays : ∀ subId channel, l.conn.maps.subscriptions.lookup subId = some channel →
      channel ∉ s'.dropped → s'.conn.maps.subscriptions.lookup subId = some channel)
    (subacks : ∀ corrId subId, s'.conn.subacks.lookup corrId = some subId → Answers l corrId subId)
    (record : s'.record = l.client.state.record) (dropped : l.client.state.dropped ⊆ s'.dropped) :
    Records opts { l with client := ⟨s', l.client.stages⟩ } where
  numbered := numbered
  single := h.single
  resolved := subacks
  entered := h.entered
  removed := h.removed
  entry subId channel known := h.entry subId channel (map subId channel known)
  kept subId channel registered isChannel live :=
    stays subId channel (h.kept subId channel registered isChannel fun gone => live (dropped gone))
      live
  record id active known := h.record id active (by rwa [← record])
  stages := h.stages

/-- The session goes on by itself. -/
theorem Records.server {l' : Link M} (h : Records opts l) (client : l'.client = l.client)
    (entered : l'.entered = l.entered) (removed : l'.removed = l.removed)
    (grows : ∀ subId sub, l.created.lookup subId = some sub → l'.created.lookup subId = some sub) :
    Records opts l' := by
  obtain ⟨client', served, nextId, created, acking, enqueued, taken, entered', removed',
    forwarded⟩ := l'
  obtain rfl := client
  obtain rfl := entered
  obtain rfl := removed
  have answers {corrId subId : ℕ} (known : Answers l corrId subId) :
      ∃ channel, created.lookup subId = some (corrId, channel) :=
    known.imp fun channel => grows subId (corrId, channel)
  -- the ids that were entered have been there before
  have older {subId : ℕ} {sub : ℕ × ℕ} (member : subId ∈ l.entered)
      (known : created.lookup subId = some sub) : l.created.lookup subId = some sub := by
    obtain ⟨channel, corrId, old⟩ := h.entered subId member
    rwa [← grows subId _ old, known] at old
  exact {
    numbered := h.numbered
    single := h.single
    resolved := fun corrId subId known => answers (h.resolved corrId subId known)
    entered := fun subId member => (h.entered subId member).imp fun channel =>
      Exists.imp fun corrId => grows subId (corrId, channel)
    removed := h.removed
    entry := fun subId channel known => by
      obtain ⟨registered, corrId, old⟩ := h.entry subId channel known
      exact ⟨registered, corrId, grows _ _ old⟩
    kept := fun subId channel registered isChannel live => by
      obtain ⟨corrId, known⟩ := isChannel
      exact h.kept subId channel registered ⟨corrId, older registered.1 known⟩ live
    record := h.record
    stages := fun i stage found => by
      have ok := h.stages i stage found
      cases stage with
      | awaitingSuback corrId =>
        rintro subId member ⟨channel, known⟩
        exact ok subId member ⟨channel, older member known⟩
      | entering => exact ⟨grows _ _ ok.1, ok.2⟩
      | returned outcome => cases outcome <;> exact ok
      | _ => exact ok }

end ZetMQ.SubscribeRecord
