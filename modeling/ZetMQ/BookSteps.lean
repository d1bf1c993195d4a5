import ZetMQ.ClientBooks

/-! How each step of a client keeps its books, as long as the schedule is clear. -/
namespace ZetMQ.BookSteps
open KeyedTable ClientConnection ClientSubscriptions LockedTasks ClientTasks ClientNumbers
  ClientHandles Session SubscribedOnce ClientBooks

variable {M : Type} {opts : Options} {s : Session M} {i : ℕ} {stage stage' : Stage}
  {state : ClientState M}

theorem not_taking {choice : Choice} (worked : Worked opts s.client.state choice stage state stage')
    (id channel : ℕ) : stage' ≠ .taking id channel := by
  have outer {stage'' : Stage} (out : stage''.outer = true) : stage'' ≠ .taking id channel := by
    rintro rfl
    cases out
  cases worked with
  | wanders was next => exact outer next
  | remaps who => exact outer (resume_outer who)
  | drains attempt drained next =>
    rcases next with rfl | ⟨who, k, delay, -, rfl⟩ <;> exact Stage.noConfusion
  | @copies who order todo => cases todo <;> exact Stage.noConfusion
  | failsSub corrId channel' purpose =>
    cases purpose with
    | fresh => exact Stage.noConfusion
    | replay who => exact outer (giveUp_outer who)
  | enters corrId subId channel' purpose =>
    rcases purpose with ⟨_, _, _ | _⟩ | ⟨_, _, _ | _, _⟩ <;> exact Stage.noConfusion
  | _ => exact Stage.noConfusion

theorem leaving_set {subId channel j : ℕ}
    (leaving : Leaving (s.client.stages.set i stage') j subId channel) :
    j ≠ i ∧ Leaving s.client.stages j subId channel ∨
      j = i ∧ (stage' = .leaving subId channel ∨ stage' = .sendingUnsub subId channel) := by
  rcases leaving with found | found <;> rcases getElem?_set_cases found with ⟨rfl, same⟩
    | ⟨ne, found⟩
  · exact .inr ⟨rfl, .inl same.symm⟩
  · exact .inl ⟨ne, .inl found⟩
  · exact .inr ⟨rfl, .inr same.symm⟩
  · exact .inl ⟨ne, .inr found⟩

section
variable (h : Books s) (found : s.client.stages[i]? = some stage)
include h found

theorem takers_set (fresh : ∀ id channel, stage' ≠ .taking id channel) {channel j : ℕ} {g : Handle}
    (at_channel : s.handles channel = some g) (taker : g.taker = some j) :
    j < (s.client.stages.set i stage').length ∧
      ∀ id channel', (s.client.stages.set i stage')[j]? ≠ some (.taking id channel') := by
  obtain ⟨inside, never⟩ := h.takers channel g j at_channel taker
  refine ⟨by rwa [List.length_set], fun id channel' there => ?_⟩
  rcases getElem?_set_cases there with ⟨rfl, same⟩ | ⟨-, there⟩
  exacts [fresh id channel' same.symm, never id channel' there]

theorem taken_set (own : ∀ subId channel, stage' = .leaving subId channel ∨
      stage' = .sendingUnsub subId channel → stage = .leaving subId channel)
    {channel j subId : ℕ} {g : Handle} (at_channel : s.handles channel = some g)
    (tracked : g.tracked = true) (taker : g.taker = some j) (settled : g.settled = true)
    (leaving : Leaving (s.client.stages.set i stage') j subId channel) :
    Once s.conn channel subId := by
  refine h.taken channel g j subId at_channel tracked taker settled ?_
  rcases leaving_set leaving with ⟨-, same⟩ | ⟨rfl, same⟩
  · exact same
  · exact .inl (found.trans (congrArg some (own subId channel same)))

theorem quiet_set (calm : stage.replays = false) {latest : ℕ → ℕ} {handles : ℕ → Option Handle}
    (quiet : (⟨⟨state, s.client.stages.set i stage'⟩, handles, latest⟩ : Session M).Quiet) :
    Current s := by
  refine h.quiet (quiet_iff.mpr fun j other at_j => ?_)
  by_cases same : j = i
  · subst same
    rwa [← Option.some.inj (found.symm.trans at_j)]
  · exact quiet_iff.mp quiet j other (by rwa [List.getElem?_set_ne (Ne.symm same)])

theorem Books.moves (fresh : ∀ id channel, stage' ≠ .taking id channel)
    (own : ∀ subId channel, stage' = .leaving subId channel ∨
      stage' = .sendingUnsub subId channel → stage = .leaving subId channel)
    (record : state.record = s.client.state.record)
    (once : ∀ channel subId, Once s.conn channel subId → Once state.conn channel subId)
    (connected : state.conn.connected = true → s.conn.connected = true)
    (channels : s.client.state.channels ≤ state.channels)
    (calm : (⟨⟨state, s.client.stages.set i stage'⟩, s.handles, s.latest⟩ : Session M).Quiet →
      Current s)
    (next : StageBooked ⟨⟨state, s.client.stages.set i stage'⟩, s.handles, s.latest⟩ stage') :
    Books ⟨⟨state, s.client.stages.set i stage'⟩, s.handles, s.latest⟩ := by
  refine h.goes (fun _ _ => Iff.rfl) (congrArg Client.subscriptions record) rfl once connected
    (fun channel g at_channel => (h.known channel g at_channel).trans_le channels)
    (fun _ _ _ => takers_set h found fresh) (fun _ _ _ _ => taken_set h found own) calm ?_
  exact forall_set found h.stages (fun _ => next) fun _ ok =>
    ok.keep (keeps_of_eq rfl once channels)

end

theorem update_older {handles : ℕ → Option Handle} {channel channel' : ℕ} {g new : Handle}
    (fresh : handles channel = none) (there : handles channel' = some g) :
    Function.update handles channel (some new) channel' = some g := by
  rw [Function.update_of_ne, there]
  rintro rfl
  cases there.symm.trans fresh

theorem Books.records (h : Books s) (wired : Wired opts s) {subId channel : ℕ}
    {subject : Utf8Text.Str}
    {queueGroup : Option Utf8Text.Str}
    (found : s.client.stages[i]? = some (.recording subId channel subject queueGroup))
    (unclaimed : s.Unclaimed subId) :
    Books ⟨⟨{ s.client.state with
        record := s.client.state.record.subscribeInternal subject queueGroup true subId channel },
      s.client.stages.set i (.returned (.subscribed subId channel))⟩,
      s.marked i (.recording subId channel subject queueGroup)
      (.returned (.subscribed subId channel)),
      s.latest⟩ := by
  obtain ⟨new, below⟩ := h.stages i _ found
  have once : Once s.conn channel subId := wired.stages i _ found
  have current := wired.latest channel subId once
  have handles {channel' : ℕ} {g : Handle}
      (at_channel : s.marked i (.recording subId channel subject queueGroup)
        (.returned (.subscribed subId channel)) channel' = some g) :
      channel' = channel ∧ g = ⟨subId, subject, queueGroup, true, none, true⟩ ∨
        channel' ≠ channel ∧ s.handles channel' = some g := by
    rw [marked, Function.update_apply] at at_channel
    split_ifs at at_channel with same
    · exact .inl ⟨same, (Option.some.inj at_channel).symm⟩
    · exact .inr ⟨same, at_channel⟩
  have lookup (id : ℕ) : ((s.client.state.record.subscribeInternal subject queueGroup true subId
      channel).subscriptions).lookup id = if id = subId then
        some ⟨subject, queueGroup, subId, channel⟩ else s.record.lookup id :=
    lookup_insert_ite _ _ _ _
  constructor
  case known =>
    intro channel' g at_channel
    rcases handles at_channel with ⟨rfl, -⟩ | ⟨-, old⟩
    exacts [below, h.known channel' g old]
  case owned =>
    intro id active there
    change (Client.subscriptions _).lookup id = some active at there
    rw [lookup] at there
    split_ifs at there with same
    · cases there
      exact ⟨_, ⟨Function.update_self .., rfl, rfl⟩, same.symm⟩
    · obtain ⟨g, ⟨at_channel, live⟩, key⟩ := h.owned id active there
      exact ⟨g, ⟨update_older new at_channel, live⟩, key⟩
  case entered =>
    rintro channel' g ⟨at_channel, live⟩
    change ∃ sid, (Client.subscriptions _).lookup g.id = some _ ∧ _
    rw [lookup]
    rcases handles at_channel with ⟨rfl, rfl⟩ | ⟨-, old⟩
    · exact ⟨subId, if_pos rfl, .inl current.symm⟩
    · rw [if_neg (unclaimed channel' g ⟨old, live⟩)]
      exact h.entered channel' g ⟨old, live⟩
  case settled =>
    rintro channel' g ⟨at_channel, live⟩ settled
    change ((Client.subscriptions _).lookup g.id).map _ = _ ∧ _
    rw [lookup]
    rcases handles at_channel with ⟨rfl, rfl⟩ | ⟨-, old⟩
    · rw [if_pos rfl]
      exact ⟨congrArg some current.symm, current.symm ▸ once⟩
    · rw [if_neg (unclaimed channel' g ⟨old, live⟩)]
      exact h.settled channel' g ⟨old, live⟩ settled
  case takers =>
    intro channel' g j at_channel taker
    rcases handles at_channel with ⟨-, rfl⟩ | ⟨-, old⟩
    · cases taker
    · exact takers_set h found (fun _ _ => Stage.noConfusion) old taker
  case taken =>
    intro channel' g j subId' at_channel tracked taker settled leaving
    rcases handles at_channel with ⟨-, rfl⟩ | ⟨-, old⟩
    · cases taker
    · refine taken_set h found ?_ old tracked taker settled leaving
      rintro _ _ (same | same) <;> cases same
  case quiet =>
    rintro quiet channel' g ⟨at_channel, live⟩
    change ((Client.subscriptions _).lookup g.id).map _ = _ ∧ _
    rw [lookup]
    rcases handles at_channel with ⟨rfl, rfl⟩ | ⟨-, old⟩
    · rw [if_pos rfl]
      exact ⟨congrArg some current.symm, fun _ => current.symm ▸ once⟩
    · rw [if_neg (unclaimed channel' g ⟨old, live⟩)]
      exact quiet_set h found rfl quiet channel' g ⟨old, live⟩
  case stages =>
    refine wired.numbered.exclusive.forall_set found (by simp [program, Stage.waits]) (.inl rfl)
      h.stages (fun _ => ⟨_, Function.update_self .., rfl⟩) fun _ outside ok =>
        ok.outside outside ?_
    exact fun channel' g old => ⟨g, update_older new old, rfl⟩

/-- The temporary subscription of a `request`. -/
theorem Books.enters_untracked (h : Books s)
    (exclusive : Exclusive (program (M := M) opts) s.client.stages)
    {corrId subId channel : ℕ} {subject : Utf8Text.Str} {queueGroup : Option Utf8Text.Str}
    (found : s.client.stages[i]? =
      some (.entering corrId subId channel (.fresh subject queueGroup false)))
    (record : state.record = s.client.state.record)
    (once : ∀ channel subId, Once s.conn channel subId → Once state.conn channel subId)
    (connected : state.conn.connected = s.conn.connected)
    (channels : state.channels = s.client.state.channels) :
    Books ⟨⟨state, s.client.stages.set i (.returned (.subscribed subId channel))⟩,
      s.marked i (.entering corrId subId channel (.fresh subject queueGroup false))
        (.returned (.subscribed subId channel)), s.latest⟩ := by
  obtain ⟨new, below⟩ := h.stages i _ found
  have handles {channel' : ℕ} {g : Handle} (tracked : g.tracked = true ∨ g.taker ≠ none)
      (at_channel : s.marked i (.entering corrId subId channel (.fresh subject queueGroup false))
        (.returned (.subscribed subId channel)) channel' = some g) :
      s.handles channel' = some g := by
    rw [marked, Function.update_apply] at at_channel
    split_ifs at at_channel with same
    · cases at_channel
      simp at tracked
    · exact at_channel
  refine h.goes (fun channel' g => ?_) (congrArg Client.subscriptions record) rfl once
    (fun up => by rwa [← connected]) (fun channel' g at_channel => ?_)
    (fun channel' g j at_channel taker => ?_)
    (fun channel' g j subId' at_channel tracked taker settled leaving => ?_)
    (quiet_set h found rfl) ?_
  · exact ⟨fun live => ⟨handles (.inl live.2.1) live.1, live.2⟩,
      fun live => ⟨update_older new live.1, live.2⟩⟩
  · change channel' < state.channels
    rw [channels]
    by_cases same : channel' = channel
    · exact same ▸ below
    · refine h.known channel' g ?_
      exact (Function.update_of_ne same _ _).symm.trans at_channel
  · exact takers_set h found (fun _ _ => Stage.noConfusion)
      (handles (.inr (by simp [taker])) at_channel)
      taker
  · refine taken_set h found ?_ (handles (.inl tracked) at_channel) tracked taker settled leaving
    rintro _ _ (same | same) <;> cases same
  · exact exclusive.forall_set found (by simp [program, Stage.waits]) (.inl rfl) h.stages
      (fun _ => ⟨_, Function.update_self .., rfl⟩) fun _ outside ok =>
        ok.outside outside fun channel' g old => ⟨g, update_older new old, rfl⟩

/-- An `unsubscribe` takes an entry out. -/
theorem Books.takes (h : Books s) {id channel : ℕ}
    (found : s.client.stages[i]? = some (.taking id channel))
    (clear : (∀ g, ¬ s.LiveAt channel g) → s.Unclaimed id) :
    Books ⟨⟨{ s.client.state with record := (s.client.state.record.unsubscribe id).1 },
      s.client.stages.set i (.leaving (s.client.state.record.unsubscribe id).2 channel)⟩,
      s.marked i (.taking id channel) (.leaving (s.client.state.record.unsubscribe id).2 channel),
      s.latest⟩ := by
  obtain ⟨own, here, key⟩ := h.stages i _ found
  have handles (channel' : ℕ) : s.marked i (.taking id channel)
      (.leaving (s.client.state.record.unsubscribe id).2 channel) channel' =
        if channel' = channel then some { own with taker := own.taker.or (some i) }
        else s.handles channel' := by
    rw [marked, Function.update_apply, here]
    rfl
  have live {channel' : ℕ} {g : Handle}
      (there : s.marked i (.taking id channel)
        (.leaving (s.client.state.record.unsubscribe id).2 channel) channel' = some g ∧
          g.tracked = true ∧ g.taker = none) :
      channel' ≠ channel ∧ s.LiveAt channel' g := by
    obtain ⟨at_channel, tracked, taker⟩ := there
    rw [handles] at at_channel
    split_ifs at at_channel with same
    · cases at_channel
      cases was : own.taker <;> simp [was] at taker
    · exact ⟨same, at_channel, tracked, taker⟩
  have others {channel' : ℕ} {g : Handle} (there : s.LiveAt channel' g) (ne : channel' ≠ channel) :
      g.id ≠ id := by
    by_cases lives : s.LiveAt channel own
    · exact fun same => ne (h.apart there lives (same.trans key.symm))
    · refine clear (fun g' live' => lives ?_) channel' g there
      rwa [Option.some.inj (here.symm.trans live'.1)]
  have lookup (id' : ℕ) : (s.client.state.record.unsubscribe id).1.subscriptions.lookup id' =
      if id' = id then none else s.record.lookup id' :=
    lookup_erase_ite _ _ _
  constructor
  case known =>
    intro channel' g at_channel
    replace at_channel := (handles channel').symm.trans at_channel
    split_ifs at at_channel with same
    exacts [same ▸ h.known channel own here, h.known channel' g at_channel]
  case owned =>
    intro id' active there
    change (Client.subscriptions _).lookup id' = some active at there
    rw [lookup] at there
    split_ifs at there with same
    obtain ⟨g, ⟨at_channel, alive⟩, key'⟩ := h.owned id' active there
    refine ⟨g, ⟨?_, alive⟩, key'⟩
    refine (handles _).trans ?_
    rw [if_neg, at_channel]
    intro inChannel
    rw [inChannel] at at_channel
    exact same (key'.symm.trans ((congrArg Handle.id
      (Option.some.inj (at_channel.symm.trans here))).trans key))
  case entered =>
    intro channel' g there
    obtain ⟨ne, there⟩ := live there
    change ∃ sid, (Client.subscriptions _).lookup g.id = some _ ∧ _
    rw [lookup, if_neg (others there ne)]
    exact h.entered channel' g there
  case settled =>
    intro channel' g there settled
    obtain ⟨ne, there⟩ := live there
    change ((Client.subscriptions _).lookup g.id).map _ = _ ∧ _
    rw [lookup, if_neg (others there ne)]
    exact h.settled channel' g there settled
  case takers =>
    intro channel' g j at_channel taker
    replace at_channel := (handles channel').symm.trans at_channel
    split_ifs at at_channel with same
    · cases at_channel
      cases was : own.taker with
      | none =>
        simp only [was, Option.none_or, Option.some.injEq] at taker
        subst taker
        have inside := (List.getElem?_eq_some_iff.mp found).1
        refine ⟨by rwa [List.length_set], fun id' channel'' there => ?_⟩
        rw [List.getElem?_set_self inside] at there
        cases there
      | some k =>
        simp only [was, Option.some_or, Option.some.injEq] at taker
        exact takers_set h found (fun _ _ => Stage.noConfusion) here
          (was.trans (congrArg some taker))
    · exact takers_set h found (fun _ _ => Stage.noConfusion) at_channel taker
  case taken =>
    intro channel' g j subId at_channel tracked taker settled leaving
    replace at_channel := (handles channel').symm.trans at_channel
    split_ifs at at_channel with same
    · subst same
      cases at_channel
      cases was : own.taker with
      | none =>
        -- the entry had the id under which the channel was subscribed
        simp only [was, Option.none_or, Option.some.injEq] at taker
        subst taker
        obtain ⟨current, once⟩ := h.settled channel' own ⟨here, tracked, was⟩ settled
        rcases leaving_set leaving with ⟨ne, -⟩ | ⟨-, own' | own'⟩
        · exact absurd rfl ne
        · cases own'
          have target : (s.client.state.record.unsubscribe id).2 = s.latest channel' := by
            change ((s.record.lookup id).map _).getD id = _
            rw [recorded, key] at current
            rw [current]
            rfl
          exact target.symm ▸ once
        · cases own'
      | some k =>
        simp only [was, Option.some_or, Option.some.injEq] at taker
        subst taker
        rcases leaving_set leaving with ⟨-, same⟩ | ⟨rfl, -⟩
        · exact h.taken channel' own k subId here tracked was settled same
        · exact absurd found ((h.takers channel' own k here was).2 _ _)
    · rcases leaving_set leaving with ⟨-, same⟩ | ⟨rfl, -⟩
      · exact h.taken channel' g j subId at_channel tracked taker settled same
      · exact absurd found ((h.takers channel' g j at_channel taker).2 _ _)
  case quiet =>
    intro quiet channel' g there
    obtain ⟨ne, there⟩ := live there
    change ((Client.subscriptions _).lookup g.id).map _ = _ ∧ _
    rw [lookup, if_neg (others there ne)]
    exact quiet_set h found rfl quiet channel' g there
  case stages =>
    refine forall_set found h.stages (fun _ => trivial) fun _ ok => ok.keep ?_
    refine ⟨fun channel' g old => ?_, fun channel' none => ?_, fun channel' g there => ?_,
      fun _ _ once => once, le_rfl⟩
    · by_cases same : channel' = channel
      · subst same
        cases old.symm.trans here
        exact ⟨_, (handles channel').trans (if_pos rfl), rfl⟩
      · exact ⟨g, (handles channel').trans ((if_neg same).trans old), rfl⟩
    · refine (handles channel').trans ?_
      rw [if_neg, none]
      rintro rfl
      cases here.symm.trans none
    · exact ⟨g, (live there).2, rfl⟩

theorem Books.accepted (h : Books s) (exclusive : Exclusive (program (M := M) opts) s.client.stages)
    {who : Option Call} {attempt delay : ℕ}
    (found : s.client.stages[i]? = some (.connecting who attempt delay)) :
    Books ⟨⟨s.client.state.setConn .connect, s.client.stages.set i (.copying who)⟩,
      s.marked i (.connecting who attempt delay) (.copying who), s.latest⟩ := by
  have quiet : s.Quiet := quiet_iff.mpr fun j other at_j => by
    by_cases same : j = i
    · subst same
      rw [← Option.some.inj (found.symm.trans at_j)]
      rfl
    · exact replays_inside (exclusive.others found rfl at_j same)
  have handles {channel : ℕ} {g : Handle}
      (at_channel : s.marked i (.connecting who attempt delay) (.copying who) channel = some g) :
      ∃ old, s.handles channel = some old ∧ g = { old with settled := false } := by
    obtain ⟨old, there, rfl⟩ := Option.map_eq_some_iff.mp at_channel
    exact ⟨old, there, rfl⟩
  have current (channel : ℕ) (g : Handle) (live : s.LiveAt channel g) : ∃ sid,
      s.record.lookup g.id = some ⟨g.subject, g.queueGroup, sid, channel⟩ ∧
        sid = s.latest channel := by
    obtain ⟨sid, entry, -⟩ := h.entered channel g live
    have same := (h.quiet quiet channel g live).1
    rw [recorded, entry] at same
    exact ⟨sid, entry, Option.some.inj same⟩
  constructor
  case known =>
    intro channel g at_channel
    obtain ⟨old, there, -⟩ := handles at_channel
    exact h.known channel old there
  case owned =>
    intro id active there
    obtain ⟨g, ⟨at_channel, live⟩, key⟩ := h.owned id active there
    exact ⟨{ g with settled := false }, ⟨congrArg (Option.map _) at_channel, live⟩, key⟩
  case entered =>
    rintro channel g ⟨at_channel, live⟩
    obtain ⟨old, there, rfl⟩ := handles at_channel
    obtain ⟨sid, entry, same⟩ := current channel old ⟨there, live⟩
    exact ⟨sid, entry, .inl same⟩
  case settled =>
    rintro channel g ⟨at_channel, -⟩ settled
    obtain ⟨old, -, rfl⟩ := handles at_channel
    cases settled
  case takers =>
    intro channel g j at_channel taker
    obtain ⟨old, there, rfl⟩ := handles at_channel
    exact takers_set h found (fun _ _ => Stage.noConfusion) there taker
  case taken =>
    intro channel g j subId at_channel tracked taker settled
    obtain ⟨old, -, rfl⟩ := handles at_channel
    cases settled
  case quiet =>
    intro calm
    have inside := (List.getElem?_eq_some_iff.mp found).1
    cases quiet_iff.mp calm i _ (List.getElem?_set_self inside)
  case stages =>
    refine exclusive.forall_set found (by simp [program, Stage.waits]) (.inl rfl) h.stages
      (fun _ => trivial) fun _ outside ok => ok.outside outside fun channel g old => ?_
    exact ⟨{ g with settled := false }, congrArg (Option.map _) old, rfl⟩

theorem Books.remaps (h : Books s) (wired : Wired opts s) {who : Option Call}
    {remapped : List (ℕ × ℕ)} (found : s.client.stages[i]? = some (.remapping who remapped)) :
    Books ⟨⟨{ s.client.state with record := ⟨Client.remap s.record remapped⟩ },
      s.client.stages.set i (.resume who)⟩, s.marked i (.remapping who remapped) (.resume who),
      s.latest⟩ := by
  have job : Job s [] remapped := h.stages i _ found
  have handles {channel : ℕ} {g : Handle}
      (at_channel : s.marked i (.remapping who remapped) (.resume who) channel = some g) :
      ∃ old, s.handles channel = some old ∧ g = old.settle := by
    obtain ⟨old, there, rfl⟩ := Option.map_eq_some_iff.mp at_channel
    exact ⟨old, there, rfl⟩
  have live {channel : ℕ} {g : Handle}
      (there : s.marked i (.remapping who remapped) (.resume who) channel = some g ∧
        g.tracked = true ∧ g.taker = none) :
      ∃ old, s.LiveAt channel old ∧ g = { old with settled := true } := by
    obtain ⟨old, at_channel, rfl⟩ := handles there.1
    rw [Handle.settle_tracked, Handle.settle_taker] at there
    exact ⟨old, ⟨at_channel, there.2⟩, Handle.settle_live there.2.2⟩
  have lookup (id : ℕ) : (Client.remap s.record remapped).lookup id =
      (s.record.lookup id).map fun a => ((remapped.find? (·.1 = id)).map fun pair =>
        { a with serverSubId := pair.2 }).getD a :=
    lookup_remap job.nodup _ id
  have current (channel : ℕ) (g : Handle) (there : s.LiveAt channel g) :
      (Client.remap s.record remapped).lookup g.id =
        some ⟨g.subject, g.queueGroup, s.latest channel, channel⟩ ∧
      Once s.conn channel (s.latest channel) := by
    obtain ⟨sid, entry, -⟩ := h.entered channel g there
    rcases job.cover channel g there with none | ⟨subId, member, once⟩
    · cases none
    · have first : remapped.find? (·.1 = g.id) = some (g.id, subId) := by
        obtain ⟨pair, first⟩ := Option.isSome_iff_exists.mp
          (List.find?_isSome (p := (·.1 = g.id)) |>.mpr ⟨_, member, by simp⟩)
        have key : pair.1 = g.id := by simpa using List.find?_some first
        rw [first, List.inj_on_of_nodup_map job.nodup (List.mem_of_find?_eq_some first) member key]
      rw [lookup, entry, first, wired.latest channel subId once]
      exact ⟨rfl, once⟩
  constructor
  case known =>
    intro channel g at_channel
    obtain ⟨old, there, -⟩ := handles at_channel
    exact h.known channel old there
  case owned =>
    intro id active there
    change (Client.remap s.record remapped).lookup id = some active at there
    rw [lookup] at there
    obtain ⟨old, entry, rfl⟩ := Option.map_eq_some_iff.mp there
    obtain ⟨g, ⟨at_channel, tracked, taker⟩, key⟩ := h.owned id old entry
    have tx : (((remapped.find? (·.1 = id)).map fun pair =>
        { old with serverSubId := pair.2 }).getD old).tx = old.tx := by
      cases remapped.find? (·.1 = id) <;> rfl
    refine ⟨{ g with settled := true }, ⟨?_, tracked, taker⟩, key⟩
    rw [tx]
    change (s.handles old.tx).map _ = _
    rw [at_channel, Option.map_some, Handle.settle_live taker]
  case entered =>
    intro channel g there
    obtain ⟨old, alive, rfl⟩ := live there
    exact ⟨_, (current channel old alive).1, .inl rfl⟩
  case settled =>
    intro channel g there _
    obtain ⟨old, alive, rfl⟩ := live there
    exact ⟨congrArg (Option.map _) (current channel old alive).1, (current channel old alive).2⟩
  case takers =>
    intro channel g j at_channel taker
    obtain ⟨old, there, rfl⟩ := handles at_channel
    refine takers_set h found (fun id channel' same => ?_) there (old.settle_taker ▸ taker)
    have outer := resume_outer who
    rw [same] at outer
    cases outer
  case taken =>
    intro channel g j subId at_channel tracked taker settled leaving
    obtain ⟨old, there, rfl⟩ := handles at_channel
    rw [Handle.settle_taker] at taker
    rw [Handle.settle_taken taker] at tracked settled
    refine taken_set h found (fun subId' channel' same => ?_) there tracked taker settled leaving
    have outer := resume_outer who
    rcases same with same | same <;>
      · rw [same] at outer
        cases outer
  case quiet =>
    intro _ channel g there
    obtain ⟨old, alive, rfl⟩ := live there
    exact ⟨congrArg (Option.map _) (current channel old alive).1,
      fun _ => (current channel old alive).2⟩
  case stages =>
    refine wired.numbered.exclusive.forall_set found (by simp [program, Stage.waits]) (.inl rfl)
      h.stages (fun _ => ?_) fun _ outside ok => ok.outside outside fun channel g old => ?_
    · cases who <;> trivial
    · exact ⟨_, congrArg (Option.map _) old, g.settle_id⟩

end ZetMQ.BookSteps
