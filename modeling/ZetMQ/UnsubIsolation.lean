import ZetMQ.GroupUpdates

/-! What cancelling a subscription can do to other connections. A broker run and
the same run with extra `UNSUB` commands of another connection are followed side
by side. -/
namespace ZetMQ.UnsubIsolation
open Utf8Text SubjectGrammar WildcardTrie KeyedTable Routing RoutingTable Delivery Registry Broker
open SubscriptionLedger RegistryRefinement DeliveryFrame BrokerRefinement RunRefinement
open DeliveryPlan LedgerDelivery BatchPlan BatchDelivery ConnectionView QuietRemovals CallTargets
open GroupUpdates QueueGroups

def Reordered : BrokerOp → BrokerOp → Prop
  | .publishBatch _ items, op => ∃ order, op = .publishBatch order items
  | call, op => op = call

/-- Whatever order one side takes, the other has one that goes with it. -/
def Matched (op : BrokerOp) (holds : BrokerOp → BrokerOp → Prop) : Prop :=
  (∀ op₁, Reordered op op₁ → ∃ op₂, Reordered op op₂ ∧ holds op₁ op₂) ∧
    ∀ op₂, Reordered op op₂ → ∃ op₁, Reordered op op₁ ∧ holds op₁ op₂

section
variable {env : DeliveryPolicy} (perConn : PerConnection env) {focus : List Str}
  {conn : ConnectionId} {s s' : BrokerCore} {l l' : Ledger} (alike : Alike focus conn s s' l l')
include perConn alike

theorem step_alike {op : BrokerOp} (seen : InFocus focus conn (op.track l)) :
    Matched op fun op₁ op₂ =>
      Alike focus conn (op₁.apply env s) (op₂.apply env s') (op.track l) (op.track l') := by
  have shadow := track_shadow alike.shadow op
  have lift {op₁ op₂ : BrokerOp} (same₁ : op₁.track l = op.track l)
      (same₂ : op₂.track l' = op.track l')
      (agree : Agree focus conn (op₁.apply env s) (op₂.apply env s')) :
      Alike focus conn (op₁.apply env s) (op₂.apply env s') (op.track l) (op.track l') :=
    ⟨same₁ ▸ step_refines env alike.left op₁, same₂ ▸ step_refines env alike.right op₂, shadow,
      seen, agree⟩
  have plain (only : ∀ op₁, Reordered op op₁ ↔ op₁ = op)
      (agree : Agree focus conn (op.apply env s) (op.apply env s')) :
      Matched op fun op₁ op₂ =>
        Alike focus conn (op₁.apply env s) (op₂.apply env s') (op.track l) (op.track l') :=
    ⟨fun op₁ same => ⟨op, (only op).mpr rfl, (only op₁).mp same ▸ lift rfl rfl agree⟩,
      fun op₂ same => ⟨op, (only op).mpr rfl, (only op₂).mp same ▸ lift rfl rfl agree⟩⟩
  cases op with
  | subscribe c pattern group handle =>
    exact plain (fun _ => Iff.rfl) (subscribe_agree alike c pattern group handle)
  | unsubscribe c id => exact plain (fun _ => Iff.rfl) (unsubscribe_agree alike c id)
  | removeConnection c => exact plain (fun _ => Iff.rfl) (removeConnection_agree alike c)
  | publish message => exact plain (fun _ => Iff.rfl) (publish_agree perConn alike message)
  | publishWithStr subject payload replyTo headers =>
    exact plain (fun _ => Iff.rfl)
      (publishWithStr_agree perConn alike subject payload replyTo headers)
  | parseSubject input =>
    obtain ⟨groups, calls⟩ := parseSubject_traffic s input
    obtain ⟨groups', calls'⟩ := parseSubject_traffic s' input
    refine plain (fun _ => Iff.rfl) ⟨fun key inside => ?_, ?_⟩
    · rw [BrokerOp.apply, BrokerOp.apply, groups, groups', alike.agree.groups key inside]
    · rw [BrokerOp.apply, BrokerOp.apply, calls, calls', alike.agree.calls]
  | publishBatch order items =>
    constructor
    · rintro op₁ ⟨order₁, rfl⟩
      obtain ⟨order₂, agree⟩ := publishBatch_forth perConn alike order₁ items
      exact ⟨.publishBatch order₂ items, ⟨order₂, rfl⟩, lift rfl rfl agree⟩
    · rintro op₂ ⟨order₂, rfl⟩
      obtain ⟨order₁, agree⟩ := publishBatch_back perConn alike order₂ items
      exact ⟨.publishBatch order₁ items, ⟨order₁, rfl⟩, lift rfl rfl agree⟩

end

def joins (conn : ConnectionId) : BrokerOp → Option Str
  | .subscribe c pattern (some _) _ => if c = conn then some pattern.raw else none
  | _ => none

def groupPatterns (conn : ConnectionId) (live : List LiveSub) (rest : List BrokerOp) : List Str :=
  (live.filter fun entry => entry.conn = conn && entry.group.isSome).map (·.pattern.raw) ++
    rest.filterMap (joins conn)

def Harmless (conn other : ConnectionId) (live : List LiveSub) (rest : List BrokerOp)
    (id : SubscriptionId) : Prop :=
  ∀ entry ∈ live, entry.id = id → entry.conn = conn ∧
    (entry.group.isSome → entry.pattern.raw ∉ groupPatterns other live rest)

instance (conn other : ConnectionId) (live : List LiveSub) (rest : List BrokerOp)
    (id : SubscriptionId) : Decidable (Harmless conn other live rest id) :=
  inferInstanceAs (Decidable (∀ entry ∈ live, _))

inductive Inserted (conn other : ConnectionId) :
    Ledger → List BrokerOp → List BrokerOp → Prop
  | nil (l : Ledger) : Inserted conn other l [] []
  | keep {l : Ledger} {ops ops' : List BrokerOp} (op : BrokerOp) :
    Inserted conn other (op.track l) ops ops' → Inserted conn other l (op :: ops) (op :: ops')
  | insert {l : Ledger} {ops ops' : List BrokerOp} {id : SubscriptionId} :
    Harmless conn other l.live ops id → Inserted conn other (l.unsubscribe id) ops ops' →
    Inserted conn other l ops (.unsubscribe conn id :: ops')

def viewOf (conn : ConnectionId) (b : BrokerCore) : List DeliverCall × ℕ :=
  (callsOf conn b.calls, b.subscriptionCountForConnection conn)

def views (env : DeliveryPolicy) (conn : ConnectionId) (ops : List BrokerOp) :
    Set (List DeliverCall × ℕ) :=
  { view | ∃ ops₁, List.Forall₂ Reordered ops ops₁ ∧ viewOf conn (run env ops₁) = view }

theorem groupPatterns_seen (conn : ConnectionId) (l : Ledger) (rest : List BrokerOp) :
    InFocus (groupPatterns conn l.live rest) conn l := by
  intro entry member mine grouped
  refine List.mem_append_left _ (List.mem_map_of_mem (List.mem_filter.mpr ⟨member, ?_⟩))
  simp [mine, grouped]

theorem groupPatterns_track (conn : ConnectionId) (l : Ledger) (op : BrokerOp)
    (rest : List BrokerOp) :
    groupPatterns conn (op.track l).live rest ⊆ groupPatterns conn l.live (op :: rest) := by
  intro raw member
  rcases List.mem_append.mp member with now | later
  · obtain ⟨entry, listed, rfl⟩ := List.mem_map.mp now
    obtain ⟨present, own⟩ := List.mem_filter.mp listed
    rw [Bool.and_eq_true, decide_eq_true_eq] at own
    rcases mem_track present with old | ⟨-, isNew⟩
    · exact groupPatterns_seen conn l (op :: rest) entry old own.1 own.2
    · refine List.mem_append_right _ (List.mem_filterMap.mpr ⟨op, List.mem_cons_self .., ?_⟩)
      obtain ⟨name, found⟩ := Option.isSome_iff_exists.mp own.2
      rw [isNew, found, joins, if_pos own.1]
  · refine List.mem_append_right _ ?_
    obtain ⟨call, listed, joined⟩ := List.mem_filterMap.mp later
    exact List.mem_filterMap.mpr ⟨call, List.mem_cons_of_mem _ listed, joined⟩

section
variable {focus : List Str} {conn : ConnectionId} {s s' : BrokerCore} {l l' : Ledger}

theorem groupPatterns_shadow (shadow : Shadow focus conn l l') (rest : List BrokerOp) :
    groupPatterns conn l'.live rest = groupPatterns conn l.live rest := by
  rw [groupPatterns, groupPatterns, filter_noticed shadow]
  intro entry passes
  rw [Bool.and_eq_true] at passes
  rw [noticed, passes.1, Bool.true_or]

theorem viewOf_alike (alike : Alike focus conn s s' l l') : viewOf conn s' = viewOf conn s := by
  rw [viewOf, viewOf, alike.agree.calls, alike.left.count, alike.right.count,
    filter_noticed alike.shadow]
  intro entry mine
  rw [noticed, mine, Bool.true_or]

theorem narrow_focus (alike : Alike focus conn s s' l l') {focus' : List Str}
    (sub : focus' ⊆ focus) (seen : InFocus focus' conn l) : Alike focus' conn s s' l l' := by
  refine ⟨alike.left, alike.right, ⟨alike.shadow.nextId, alike.shadow.sub, ?_⟩, seen,
    ⟨fun key inside => alike.agree.groups key (sub inside), alike.agree.calls⟩⟩
  intro entry member noted
  refine alike.shadow.kept entry member ?_
  simp only [noticed, Bool.or_eq_true, Bool.and_eq_true, decide_eq_true_eq] at noted ⊢
  exact noted.imp_right (And.imp_right fun inside => sub inside)

theorem insert_alike {a : ConnectionId} (different : a ≠ conn)
    (alike : Alike focus conn s s' l l') {id : SubscriptionId}
    (harmless : ∀ entry ∈ l'.live, entry.id = id →
      entry.conn = a ∧ (entry.group.isSome → entry.pattern.raw ∉ focus)) :
    Alike focus conn s (s'.unsubscribe a id) l (l'.unsubscribe id) := by
  refine ⟨alike.left, alike.right.unsubscribe a id, ⟨alike.shadow.nextId,
    (List.filter_sublist ..).trans alike.shadow.sub, ?_⟩, alike.seen, alike.agree.trans ⟨?_, ?_⟩⟩
  · intro entry member noted
    have kept := alike.shadow.kept entry member noted
    refine List.mem_filter.mpr ⟨kept, ?_⟩
    have other : entry.id ≠ id := by
      intro same
      obtain ⟨owner, outside⟩ := harmless entry kept same
      simp only [noticed, Bool.or_eq_true, Bool.and_eq_true, decide_eq_true_eq] at noted
      rcases noted with mine | ⟨grouped, inside⟩
      · exact different (owner.symm.trans mine)
      · exact outside grouped inside
    simpa using other
  · intro key inside
    rw [unsubscribe_groups alike.right, if_neg]
    rintro ⟨entry, member, same, grouped⟩
    obtain ⟨inGroup, sameRaw⟩ := groupKey_fst grouped
    exact (harmless entry member same).2 inGroup (sameRaw ▸ inside)
  · rw [unsubscribe_calls]

theorem run_alike {env : DeliveryPolicy} (perConn : PerConnection env) {a : ConnectionId}
    (different : a ≠ conn) {ops ops' : List BrokerOp} (inserted : Inserted a conn l' ops ops')
    (alike : Alike (groupPatterns conn l.live ops) conn s s' l l') :
    (∀ ops₁, List.Forall₂ Reordered ops ops₁ → ∃ ops₂, List.Forall₂ Reordered ops' ops₂ ∧
      viewOf conn (ops₂.foldl (BrokerOp.apply env) s') =
        viewOf conn (ops₁.foldl (BrokerOp.apply env) s)) ∧
    ∀ ops₂, List.Forall₂ Reordered ops' ops₂ → ∃ ops₁, List.Forall₂ Reordered ops ops₁ ∧
      viewOf conn (ops₂.foldl (BrokerOp.apply env) s') =
        viewOf conn (ops₁.foldl (BrokerOp.apply env) s) := by
  induction inserted generalizing s s' l with
  | nil l' =>
    constructor
    · rintro _ ⟨⟩
      exact ⟨[], .nil, viewOf_alike alike⟩
    · rintro _ ⟨⟩
      exact ⟨[], .nil, viewOf_alike alike⟩
  | @keep l' ops ops' op _ ih =>
    have smaller := groupPatterns_track conn l op ops
    have seen := groupPatterns_seen conn (op.track l) ops
    obtain ⟨forth, back⟩ := step_alike perConn alike fun entry member mine grouped =>
      smaller (seen entry member mine grouped)
    constructor
    · rintro _ (_ | ⟨same, rest⟩)
      obtain ⟨op₂, same₂, next⟩ := forth _ same
      obtain ⟨ops₂, rest₂, view⟩ := (ih (narrow_focus next smaller seen)).1 _ rest
      exact ⟨op₂ :: ops₂, .cons same₂ rest₂, view⟩
    · rintro _ (_ | ⟨same, rest⟩)
      obtain ⟨op₁, same₁, next⟩ := back _ same
      obtain ⟨ops₁, rest₁, view⟩ := (ih (narrow_focus next smaller seen)).2 _ rest
      exact ⟨op₁ :: ops₁, .cons same₁ rest₁, view⟩
  | @insert l' ops ops' id harmless _ ih =>
    rw [Harmless, groupPatterns_shadow alike.shadow] at harmless
    obtain ⟨forth, back⟩ := ih (insert_alike different alike harmless)
    constructor
    · intro ops₁ same
      obtain ⟨ops₂, rest, view⟩ := forth ops₁ same
      exact ⟨.unsubscribe a id :: ops₂, .cons rfl rest, view⟩
    · rintro _ (_ | ⟨same, rest⟩)
      obtain rfl : _ = BrokerOp.unsubscribe a id := same
      exact back _ rest

end

/-- Cancelling its own subscriptions, outside the queue groups it shares with
another connection, a connection changes nothing that the other one observes. -/
theorem own_unsubs_unseen {env : DeliveryPolicy} (perConn : PerConnection env)
    {a b : ConnectionId} (different : a ≠ b) {ops ops' : List BrokerOp}
    (inserted : Inserted a b .empty ops ops') : views env b ops' = views env b ops := by
  have start : Alike (groupPatterns b Ledger.empty.live ops) b .new .new .empty .empty :=
    ⟨refines_new, refines_new, ⟨rfl, .refl _, fun _ member _ => member⟩,
      groupPatterns_seen b .empty ops, .refl _⟩
  obtain ⟨forth, back⟩ := run_alike perConn different inserted start
  ext view
  constructor
  · rintro ⟨ops₂, same, rfl⟩
    obtain ⟨ops₁, same₁, view⟩ := back ops₂ same
    exact ⟨ops₁, same₁, view.symm⟩
  · rintro ⟨ops₁, same, rfl⟩
    obtain ⟨ops₂, same₂, view⟩ := forth ops₁ same
    exact ⟨ops₂, same₂, view⟩

def listenerAndWorker : List BrokerOp :=
  [.subscribe 1 ordersNew none 1, .subscribe 2 ordersAny (some workers) 2, .publish orderMessage]

def listenerLeaves : List BrokerOp :=
  [.subscribe 1 ordersNew none 1, .subscribe 2 ordersAny (some workers) 2, .unsubscribe 1 1,
    .publish orderMessage]

set_option maxRecDepth 4000 in
theorem listener_leaves_unseen :
    PerConnection acceptAll ∧ Inserted 1 2 .empty listenerAndWorker listenerLeaves ∧
      views acceptAll 2 listenerLeaves = views acceptAll 2 listenerAndWorker := by
  have perConn : PerConnection acceptAll := fun _ _ _ => rfl
  have inserted : Inserted 1 2 .empty listenerAndWorker listenerLeaves :=
    .keep _ (.keep _ (.insert (by decide) (.keep _ (.nil _))))
  exact ⟨perConn, inserted, own_unsubs_unseen perConn (by decide) inserted⟩

set_option maxRecDepth 4000 in
/-- An id of another connection is cancelled as readily as an own one, and leaving
a shared group passes its turns on. -/
theorem unsub_reaches_others :
    viewOf 2 (run acceptAll [.subscribe 2 ordersNew none 2, .unsubscribe 1 1,
        .publish orderMessage]) ≠
      viewOf 2 (run acceptAll [.subscribe 2 ordersNew none 2, .publish orderMessage]) ∧
    viewOf 2 (run acceptAll [.subscribe 1 ordersNew (some workers) 1,
        .subscribe 2 ordersNew (some workers) 2, .unsubscribe 1 1, .publish orderMessage]) ≠
      viewOf 2 (run acceptAll [.subscribe 1 ordersNew (some workers) 1,
        .subscribe 2 ordersNew (some workers) 2, .publish orderMessage]) := by
  decide

end ZetMQ.UnsubIsolation
