import ZetMQ.SubscribedOnce

/-! Which entry of the record belongs to which handle. The entries and the live handles match
one to one in every state; their ids match too, but for the time of a replay, which has
them in hand. -/
namespace ZetMQ.ClientBooks
open KeyedTable ClientConnection ClientSubscriptions LockedTasks ClientTasks ClientNumbers
  ClientHandles Session SubscribedOnce

variable {M : Type} {opts : Options} {s s' : Session M}

/-- A replay: the entries whose answers are still to come, with their channels, and the ids
assigned so far. -/
structure Job (s : Session M) (pending done : List (ℕ × ℕ)) : Prop where
  nodup : ((pending ++ done).map Prod.fst).Nodup
  cover : ∀ channel h, s.LiveAt channel h → (h.id, channel) ∈ pending ∨
    ∃ subId, (h.id, subId) ∈ done ∧ Once s.conn channel subId

def pairs (entries : List (Σ _ : ℕ, ActiveSubscription)) : List (ℕ × ℕ) :=
  entries.map fun entry => (entry.1, entry.2.tx)

def Fresh (s : Session M) (channel : ℕ) : Prop :=
  s.handles channel = none ∧ channel < s.client.state.channels

def PurposeBooked (s : Session M) (channel : ℕ) : Purpose → Prop
  | .fresh _ _ _ => Fresh s channel
  | .replay _ stableId todo remapped => Job s ((stableId, channel) :: pairs todo) remapped

def StageBooked (s : Session M) : Stage → Prop
  | .registering _ channel purpose | .sendingSub _ channel purpose
  | .awaitingSuback _ channel purpose | .entering _ _ channel purpose =>
    PurposeBooked s channel purpose
  | .recording _ channel _ _ => Fresh s channel
  | .remapping _ remapped => Job s [] remapped
  | .taking id channel | .returned (.subscribed id channel) =>
    ∃ h, s.handles channel = some h ∧ h.id = id
  | _ => True

/-- On the way to the connection with the id for its `UNSUB`. -/
def Leaving (stages : List Stage) (i subId channel : ℕ) : Prop :=
  stages[i]? = some (.leaving subId channel) ∨ stages[i]? = some (.sendingUnsub subId channel)

def Current (s : Session M) : Prop := ∀ channel h, s.LiveAt channel h →
  s.recorded h = some (s.latest channel) ∧
    (s.conn.connected = true → Once s.conn channel (s.latest channel))

structure Books (s : Session M) : Prop where
  known : ∀ channel h, s.handles channel = some h → channel < s.client.state.channels
  owned : ∀ id active, s.record.lookup id = some active →
    ∃ h, s.LiveAt active.tx h ∧ h.id = id
  entered : ∀ channel h, s.LiveAt channel h → ∃ serverSubId,
    s.record.lookup h.id = some ⟨h.subject, h.queueGroup, serverSubId, channel⟩ ∧
      (serverSubId = s.latest channel ∨ Once s.conn channel (s.latest channel))
  settled : ∀ channel h, s.LiveAt channel h → h.settled = true →
    s.recorded h = some (s.latest channel) ∧ Once s.conn channel (s.latest channel)
  takers : ∀ channel h i, s.handles channel = some h → h.taker = some i →
    i < s.client.stages.length ∧ ∀ id channel', s.client.stages[i]? ≠ some (.taking id channel')
  taken : ∀ channel h i subId, s.handles channel = some h → h.tracked = true →
    h.taker = some i → h.settled = true → Leaving s.client.stages i subId channel →
    Once s.conn channel subId
  quiet : s.Quiet → Current s
  stages : ∀ (i : ℕ) (stage : Stage), s.client.stages[i]? = some stage → StageBooked s stage

theorem quiet_iff : s.Quiet ↔
    ∀ (i : ℕ) (stage : Stage), s.client.stages[i]? = some stage → stage.replays = false := by
  constructor
  · intro quiet i stage found
    exact quiet stage (List.mem_of_getElem? found)
  · intro quiet stage member
    obtain ⟨i, found⟩ := List.mem_iff_getElem?.mp member
    exact quiet i stage found

theorem replays_inside {stage : Stage} (outside : stage.inside = false) :
    stage.replays = false := by
  cases stage <;> first | rfl | cases outside

variable {channel : ℕ} (order : IterOrder ℕ ActiveSubscription)

theorem mem_visit {t : Table ℕ ActiveSubscription} {id : ℕ} {active : ActiveSubscription} :
    (⟨id, active⟩ : Σ _ : ℕ, ActiveSubscription) ∈ order.visit t ↔ t.lookup id = some active := by
  rw [(order.perm t).mem_iff]
  exact AList.mem_lookup_iff.symm

theorem nodup_visit (t : Table ℕ ActiveSubscription) : ((order.visit t).map Sigma.fst).Nodup :=
  (List.perm_nodupKeys (order.perm t)).mpr t.nodupKeys

section
variable (h : Books s)
include h

theorem Books.apart {channel' : ℕ} {g g' : Handle} (live : s.LiveAt channel g)
    (live' : s.LiveAt channel' g') (same : g.id = g'.id) : channel = channel' := by
  obtain ⟨sid, entry, -⟩ := h.entered channel g live
  obtain ⟨sid', entry', -⟩ := h.entered channel' g' live'
  rw [same, entry', Option.some.injEq] at entry
  exact (congrArg ActiveSubscription.tx entry).symm

theorem Books.distinct :
    ((order.visit s.record).map (·.2.tx)).Nodup ∧
      ∀ entry ∈ order.visit s.record, entry.2.tx < s.client.state.channels := by
  have owner : ∀ entry ∈ order.visit s.record, ∃ g, s.LiveAt entry.2.tx g ∧ g.id = entry.1 :=
    fun entry member => h.owned entry.1 entry.2 ((mem_visit order).mp member)
  refine ⟨((nodup_visit order s.record).of_map).map_on fun a inA b inB same => ?_,
    fun entry member => ?_⟩
  · obtain ⟨g, live, key⟩ := owner a inA
    obtain ⟨g', live', key'⟩ := owner b inB
    rw [same] at live
    obtain rfl := Option.some.inj (live.1.symm.trans live'.1)
    obtain ⟨id, active⟩ := a
    obtain ⟨id', active'⟩ := b
    obtain rfl : id = id' := key.symm.trans key'
    have found := (mem_visit order).mp inA
    rw [(mem_visit order).mp inB, Option.some.injEq] at found
    rw [found]
  · obtain ⟨g, live, -⟩ := owner entry member
    exact h.known _ g live.1

theorem Books.job :
    Job s (pairs (order.visit s.record)) [] where
  nodup := by
    rw [List.append_nil, pairs, List.map_map]
    exact nodup_visit order s.record
  cover channel g live := by
    obtain ⟨sid, entry, -⟩ := h.entered channel g live
    exact .inl (List.mem_map.mpr ⟨_, (mem_visit order).mpr entry, rfl⟩)

theorem Books.current_of_unchanged (wired : Wired opts s) (unchanged : s.Unchanged) :
    Current s := by
  intro channel g live
  obtain ⟨same, all⟩ := unchanged channel g live
  refine ⟨?_, fun up => ?_⟩
  · obtain ⟨sid, entry, rfl | once⟩ := h.entered channel g live
    · rw [recorded, entry]
      rfl
    · exact same _ once
  · obtain ⟨subId, once⟩ := all up
    rwa [wired.latest channel subId once]

end

theorem Job.keep {pending done : List (ℕ × ℕ)} (job : Job s pending done)
    (live : ∀ channel h, s'.LiveAt channel h → ∃ g, s.LiveAt channel g ∧ g.id = h.id)
    (once : ∀ channel subId, Once s.conn channel subId → Once s'.conn channel subId) :
    Job s' pending done where
  nodup := job.nodup
  cover channel h there := by
    obtain ⟨g, old, same⟩ := live channel h there
    rw [← same]
    exact (job.cover channel g old).imp id fun ⟨subId, member, here⟩ =>
      ⟨subId, member, once channel subId here⟩

theorem Job.next {stableId subId : ℕ} {pending done : List (ℕ × ℕ)}
    (job : Job s ((stableId, channel) :: pending) done) (once : Once s.conn channel subId) :
    Job s pending (done ++ [(stableId, subId)]) where
  nodup := by
    have moved : ((pending ++ (done ++ [(stableId, subId)])).map Prod.fst).Perm
        ((((stableId, channel) :: pending) ++ done).map Prod.fst) := by
      rw [← List.append_assoc, List.map_append]
      exact List.perm_append_singleton stableId _
    exact moved.nodup_iff.mpr job.nodup
  cover channel' h live := by
    rcases job.cover channel' h live with member | ⟨subId', member, here⟩
    · rcases List.mem_cons.mp member with same | member
      · cases same
        exact .inr ⟨subId, List.mem_append_right _ (List.mem_singleton_self _), once⟩
      · exact .inl member
    · exact .inr ⟨subId', List.mem_append_left _ member, here⟩

structure Keeps (s s' : Session M) : Prop where
  ids : ∀ channel h, s.handles channel = some h → ∃ g, s'.handles channel = some g ∧ g.id = h.id
  none : ∀ channel, s.handles channel = none → s'.handles channel = none
  live : ∀ channel h, s'.LiveAt channel h → ∃ g, s.LiveAt channel g ∧ g.id = h.id
  once : ∀ channel subId, Once s.conn channel subId → Once s'.conn channel subId
  channels : s.client.state.channels ≤ s'.client.state.channels

theorem keeps_of_eq (handles : s'.handles = s.handles)
    (once : ∀ channel subId, Once s.conn channel subId → Once s'.conn channel subId)
    (channels : s.client.state.channels ≤ s'.client.state.channels) : Keeps s s' where
  ids channel h found := ⟨h, by rwa [handles], rfl⟩
  none channel none := by rwa [handles]
  live channel h live := ⟨h, by rwa [LiveAt, ← handles], rfl⟩
  once := once
  channels := channels

theorem PurposeBooked.keep {channel : ℕ} {purpose : Purpose} (h : PurposeBooked s channel purpose)
    (keeps : Keeps s s') : PurposeBooked s' channel purpose := by
  cases purpose with
  | fresh => exact ⟨keeps.none channel h.1, h.2.trans_le keeps.channels⟩
  | replay => exact Job.keep h keeps.live keeps.once

theorem booked_held {id : ℕ} (held : ∃ h, s.handles channel = some h ∧ h.id = id)
    (ids : ∀ channel h, s.handles channel = some h →
      ∃ g, s'.handles channel = some g ∧ g.id = h.id) :
    ∃ h, s'.handles channel = some h ∧ h.id = id := by
  obtain ⟨g, found, rfl⟩ := held
  exact ids channel g found

theorem StageBooked.keep {stage : Stage} (h : StageBooked s stage) (keeps : Keeps s s') :
    StageBooked s' stage := by
  cases stage with
  | registering | sendingSub | awaitingSuback | entering => exact PurposeBooked.keep h keeps
  | recording => exact ⟨keeps.none _ h.1, h.2.trans_le keeps.channels⟩
  | remapping => exact Job.keep h keeps.live keeps.once
  | taking => exact booked_held h keeps.ids
  | returned outcome =>
    cases outcome with
    | subscribed => exact booked_held h keeps.ids
    | _ => trivial
  | _ => trivial

theorem StageBooked.outside {stage : Stage} (h : StageBooked s stage)
    (outside : stage.inside = false)
    (ids : ∀ channel h, s.handles channel = some h →
      ∃ g, s'.handles channel = some g ∧ g.id = h.id) : StageBooked s' stage := by
  cases stage with
  | registering | sendingSub | awaitingSuback | entering | recording | remapping => cases outside
  | taking => exact booked_held h ids
  | returned outcome =>
    cases outcome with
    | subscribed => exact booked_held h ids
    | _ => trivial
  | _ => trivial

theorem Books.goes (h : Books s) (live : ∀ channel g, s'.LiveAt channel g ↔ s.LiveAt channel g)
    (record : s'.record = s.record) (latest : s'.latest = s.latest)
    (once : ∀ channel subId, Once s.conn channel subId → Once s'.conn channel subId)
    (connected : s'.conn.connected = true → s.conn.connected = true)
    (known : ∀ channel g, s'.handles channel = some g → channel < s'.client.state.channels)
    (takers : ∀ channel g i, s'.handles channel = some g → g.taker = some i →
      i < s'.client.stages.length ∧
        ∀ id channel', s'.client.stages[i]? ≠ some (.taking id channel'))
    (taken : ∀ channel g i subId, s'.handles channel = some g → g.tracked = true →
      g.taker = some i → g.settled = true → Leaving s'.client.stages i subId channel →
      Once s.conn channel subId)
    (quiet : s'.Quiet → Current s)
    (stages : ∀ (i : ℕ) (stage : Stage), s'.client.stages[i]? = some stage → StageBooked s' stage) :
    Books s' where
  known := known
  owned id active found := by
    obtain ⟨g, there, same⟩ := h.owned id active (record ▸ found)
    exact ⟨g, (live _ g).mpr there, same⟩
  entered channel g there := by
    rw [record, latest]
    obtain ⟨sid, entry, current⟩ := h.entered channel g ((live channel g).mp there)
    exact ⟨sid, entry, current.imp id (once _ _)⟩
  settled channel g there ok := by
    rw [recorded, record, latest]
    obtain ⟨same, here⟩ := h.settled channel g ((live channel g).mp there) ok
    exact ⟨same, once _ _ here⟩
  takers := takers
  taken channel g i subId found tracked taker ok leaving :=
    once _ _ (taken channel g i subId found tracked taker ok leaving)
  quiet calm channel g there := by
    rw [recorded, record, latest]
    obtain ⟨same, here⟩ := quiet calm channel g ((live channel g).mp there)
    exact ⟨same, fun up => once _ _ (here (connected up))⟩
  stages := stages

end ZetMQ.ClientBooks
