import Mathlib.Data.List.Perm.Basic
import ZetMQ.BatchPlan
import ZetMQ.LedgerDelivery

/-! Batches in terms of the ledger: each matching subscription without a group
gets one parcel with its messages in the order of the batch, and every member of
a matching group causes one turn of that group. -/
namespace ZetMQ.BatchDelivery
open Utf8Text SubjectGrammar WildcardTrie KeyedTable Routing RoutingTable Delivery Registry Broker
open SubscriptionLedger RegistryRefinement DeliveryFrame BrokerRefinement RunRefinement
open DeliveryPlan LedgerDelivery BatchPlan

/-- The turns that the groups take for a batch: one for every member that
matches, not one for every group. -/
def batchDemand (live : List LiveSub) (items : List PublishItem) :
    List (Message × QueueGroupKey) :=
  items.flatMap fun item =>
    ((matched live item.subject).filterMap LiveSub.groupKey).map (item.toMessage, ·)

def bundle (items : List PublishItem) (entry : LiveSub) : List DeliveryMessage :=
  (items.filter (entry.pattern.matches ·.subject)).map (·.deliveryTo entry.id entry.conn)

def parcelFor (items : List PublishItem) (entry : LiveSub) : Parcel :=
  (entry.handle, bundle items entry)

def pendingFor (items : List PublishItem) (entry : LiveSub) :
    Σ _ : SubscriptionId, List DeliveryMessage :=
  ⟨entry.id, bundle items entry⟩

theorem batchDemand_wanted (live : List LiveSub) (items : List PublishItem) :
    ∀ turn ∈ batchDemand live items, memberIds live turn.2 ≠ [] := by
  intro turn listed
  obtain ⟨item, -, inside⟩ := List.mem_flatMap.mp listed
  obtain ⟨key, turned, rfl⟩ := List.mem_map.mp inside
  obtain ⟨other, present, same⟩ := List.mem_filterMap.mp turned
  exact List.ne_nil_of_mem (mem_memberIds.mpr ⟨other, (mem_matched.mp present).1, rfl, same⟩)

def receives (items : List PublishItem) (entry : LiveSub) : Bool :=
  entry.group.isNone && items.any (entry.pattern.matches ·.subject)

variable {items : List PublishItem} {entry : LiveSub} {entries : List LiveSub}

theorem bundle_of_not_receives (free : entry.group = none)
    (unwanted : receives items entry = false) : bundle items entry = [] := by
  rw [receives, free, Option.isNone_none, Bool.true_and, List.any_eq_false] at unwanted
  rw [bundle, List.map_eq_nil_iff, List.filter_eq_nil_iff]
  exact unwanted

theorem batchDemand_single {live : List LiveSub} {subject : Subject}
    (alone : matched live subject = [entry]) (free : entry.group.isNone = true)
    (same : ∀ item ∈ items, item.subject = subject) : batchDemand live items = [] := by
  rw [batchDemand, List.flatMap_eq_nil_iff]
  intro item listed
  have none : entry.groupKey = none := by rwa [← Option.isNone_iff_eq_none, groupKey_isNone]
  rw [same item listed, alone, List.filterMap_cons_none none]
  rfl

theorem receives_single {live : List LiveSub} (nodup : live.Nodup) {subject : Subject}
    (alone : matched live subject = [entry]) (free : entry.group.isNone = true)
    (same : ∀ item ∈ items, item.subject = subject) (nonempty : items ≠ []) :
    [entry].Perm (live.filter (receives items)) := by
  refine (List.perm_ext_iff_of_nodup (List.nodup_singleton _) (nodup.filter _)).mpr ?_
  intro other
  obtain ⟨item, listed⟩ := List.exists_mem_of_ne_nil items nonempty
  rw [← alone, mem_matched, List.mem_filter, receives, Bool.and_eq_true, List.any_eq_true]
  constructor
  · intro here
    have isEntry : other = entry := by
      rw [← List.mem_singleton, ← alone]
      exact mem_matched.mpr here
    exact ⟨here.1, isEntry ▸ free, item, listed, (same item listed).symm ▸ here.2⟩
  · rintro ⟨member, -, some, present, accepted⟩
    exact ⟨member, same some present ▸ accepted⟩

section
variable {env : DeliveryPolicy} {b : BrokerCore} {l : Ledger} (h : Refines b l)
include h

theorem flatMap_matchSubject (subject : Subject) {β : Type} {f : SubscriptionId → List β}
    {g : LiveSub → List β} (same : ∀ entry ∈ l.live, f entry.id = g entry) :
    (b.registry.router.matchSubject subject).flatMap f = (matched l.live subject).flatMap g := by
  have ids := matchSubject_ids h subject
  rw [BrokerCore.router] at ids
  rw [ids, List.flatMap_map]
  exact List.flatMap_congr fun entry member => same entry (mem_matched.mp member).1

theorem demandFor_live (item : PublishItem) :
    demandFor b.registry item =
      ((matched l.live item.subject).filterMap LiveSub.groupKey).map (item.toMessage, ·) := by
  rw [List.map_filterMap, List.filterMap_eq_flatMap_toList]
  refine flatMap_matchSubject h item.subject fun entry member => ?_
  rw [turnFor, ← heldKey_live h member]
  cases heldKey b.registry entry.id <;> rfl

theorem copiesOf_live (item : PublishItem) :
    copiesOf b.registry item = ((matched l.live item.subject).filter (·.group.isNone)).map
      fun entry => (entry.id, item.deliveryTo entry.id entry.conn) := by
  rw [← List.filterMap_eq_map, List.filterMap_filter, List.filterMap_eq_flatMap_toList]
  refine flatMap_matchSubject h item.subject fun entry member => ?_
  rw [copyOf, fanoutTarget_live h member]
  split_ifs <;> rfl

theorem copies_for (item : PublishItem) (member : entry ∈ l.live) :
    (copiesOf b.registry item).filter (·.1 = entry.id) =
      if entry.group.isNone && entry.pattern.matches item.subject
      then [(entry.id, item.deliveryTo entry.id entry.conn)] else [] := by
  have own : ((matched l.live item.subject).filter (·.group.isNone)).filter (·.id = entry.id) =
      ((matched l.live item.subject).filter (·.group.isNone)).filter (· = entry) := by
    refine List.filter_congr fun other listed => ?_
    have present := (mem_matched.mp (List.mem_of_mem_filter listed)).1
    have : other.id = entry.id ↔ other = entry :=
      ⟨l.eq_of_id present member, fun same => same ▸ rfl⟩
    simp only [this]
  have nodup := (matched_nodup (live_nodup l) item.subject).filter (·.group.isNone)
  rw [copiesOf_live h, List.filter_map]
  simp only [Function.comp_def]
  rw [own, List.filter_eq, nodup.count]
  have here : entry ∈ (matched l.live item.subject).filter (·.group.isNone) ↔
      (entry.group.isNone && entry.pattern.matches item.subject) = true := by
    rw [List.mem_filter, mem_matched, Bool.and_eq_true]
    exact ⟨fun ⟨⟨_, accepted⟩, free⟩ => ⟨free, accepted⟩,
      fun ⟨free, accepted⟩ => ⟨⟨member, accepted⟩, free⟩⟩
  simp only [here]
  split_ifs <;> rfl

theorem mem_copies {copy : SubscriptionId × DeliveryMessage}
    (listed : copy ∈ items.flatMap (copiesOf b.registry)) :
    ∃ entry ∈ l.live, receives items entry = true ∧ entry.id = copy.1 := by
  obtain ⟨item, member, inside⟩ := List.mem_flatMap.mp listed
  rw [copiesOf_live h, List.mem_map] at inside
  obtain ⟨entry, here, rfl⟩ := inside
  rw [List.mem_filter, mem_matched] at here
  refine ⟨entry, here.1.1, ?_, rfl⟩
  rw [receives, here.2, Bool.true_and, List.any_eq_true]
  exact ⟨item, member, here.1.2⟩

theorem pending_some (items : List PublishItem) (member : entry ∈ l.live)
    (wanted : receives items entry = true) :
    (collect (items.flatMap (copiesOf b.registry)) ∅).lookup entry.id =
      some (bundle items entry) := by
  rw [receives, Bool.and_eq_true, List.any_eq_true] at wanted
  obtain ⟨free, item, listed, accepted⟩ := wanted
  have own : (items.flatMap (copiesOf b.registry)).filter (·.1 = entry.id) =
      (items.filter (entry.pattern.matches ·.subject)).map fun item =>
        (entry.id, item.deliveryTo entry.id entry.conn) := by
    rw [List.filter_flatMap]
    clear listed accepted
    induction items with
    | nil => rfl
    | cons item items ih =>
      rw [List.flatMap_cons, ih, copies_for h item member, free, Bool.true_and]
      by_cases here : entry.pattern.matches item.subject = true <;> simp [here]
  have present : ∃ copy ∈ items.flatMap (copiesOf b.registry), copy.1 = entry.id := by
    have mem : (entry.id, item.deliveryTo entry.id entry.conn) ∈
        (items.flatMap (copiesOf b.registry)).filter (·.1 = entry.id) := by
      rw [own]
      exact List.mem_map.mpr ⟨item, List.mem_filter.mpr ⟨listed, accepted⟩, rfl⟩
    exact ⟨_, List.mem_of_mem_filter mem, rfl⟩
  rw [lookup_collect, if_pos present, own, bundle, List.map_map]
  rfl

theorem pending_perm (items : List PublishItem) :
    (collect (items.flatMap (copiesOf b.registry)) ∅).entries.Perm
      ((l.live.filter (receives items)).map (pendingFor items)) := by
  set pending := collect (items.flatMap (copiesOf b.registry)) ∅ with isPending
  have targets : ((l.live.filter (receives items)).map (pendingFor items)).Nodup := by
    refine ((live_nodup l).filter _).map_on fun x hx y hy same => ?_
    exact l.eq_of_id (List.mem_of_mem_filter hx) (List.mem_of_mem_filter hy) (Sigma.mk.inj same).1
  refine (List.perm_ext_iff_of_nodup pending.nodupKeys.nodup targets).mpr ?_
  rintro ⟨id, messages⟩
  rw [← AList.mem_lookup_iff, Option.mem_def, List.mem_map]
  constructor
  · intro found
    have touched : ∃ copy ∈ items.flatMap (copiesOf b.registry), copy.1 = id := by
      by_contra untouched
      rw [isPending, lookup_collect, if_neg untouched, AList.lookup_empty] at found
      cases found
    obtain ⟨copy, listed, rfl⟩ := touched
    obtain ⟨entry, member, wanted, same⟩ := mem_copies h listed
    rw [← same, isPending, pending_some h items member wanted] at found
    refine ⟨entry, List.mem_filter.mpr ⟨member, wanted⟩, ?_⟩
    rw [pendingFor, same, Option.some.inj found]
  · rintro ⟨entry, member, same⟩
    obtain ⟨rfl, rfl⟩ := Sigma.mk.inj same |>.imp_right eq_of_heq
    obtain ⟨member, wanted⟩ := List.mem_filter.mp member
    exact pending_some h items member wanted

theorem foldl_flushPending {base : BrokerCore} (same : base.registry = b.registry)
    (items : List PublishItem) (live : ∀ entry ∈ entries, entry ∈ l.live) :
    (entries.map (pendingFor items)).foldl (BrokerCore.flushPending env) base =
      (entries.map (parcelFor items)).foldl (push env) base := by
  induction entries generalizing base with
  | nil => rfl
  | cons entry entries ih =>
    obtain ⟨sub, found, -, handle, -⟩ := getRef_live h (live entry (List.mem_cons_self ..))
    rw [List.map_cons, List.map_cons, List.foldl_cons, List.foldl_cons, pendingFor,
      flushPending_eq env base entry.id _ (same ▸ found), handle]
    exact ih same fun other member => live other (List.mem_cons_of_mem _ member)

theorem batchShortcut_some {first : PublishItem} {id : SubscriptionId} {sub : Subscription}
    (short : b.batchShortcut first items = some (id, sub)) :
    ∃ entry, entry ∈ l.live ∧ entry.id = id ∧ entry.conn = sub.connectionId ∧
      entry.handle = sub.delivery ∧ entry.group.isNone = true ∧
      matched l.live first.subject = [entry] ∧ ∀ item ∈ items, item.subject = first.subject := by
  unfold BrokerCore.batchShortcut at short
  split_ifs at short with wild
  split at short
  · cases short
  · rename_i only single
    split at short
    · cases short
    · rename_i stored found
      split_ifs at short with plain
      obtain ⟨rfl, rfl⟩ := Prod.mk.inj (Option.some.inj short)
      rw [Bool.and_eq_true, List.all_eq_true] at plain
      have ids := matchSubject_ids h first.subject
      have exact : b.router.exact.lookup first.subject.raw = some [only] := by
        unfold RoutingEngine.exactSingleSubscriber at single
        split at single
        · rename_i lookup
          rw [lookup, Option.some.inj single]
        · cases single
      rw [RoutingEngine.matchSubject, if_neg wild, exact, Option.getD_some] at ids
      obtain ⟨entry, alone, same⟩ := List.map_eq_singleton_iff.mp ids.symm
      have member : entry ∈ l.live := (mem_matched.mp (alone ▸ List.mem_singleton_self entry)).1
      obtain ⟨sub', found', conn, handle, held⟩ := getRef_live h member
      rw [same, found] at found'
      obtain rfl := Option.some.inj found'
      refine ⟨entry, member, same, conn.symm, handle.symm, ?_, alone, ?_⟩
      · rw [← groupKey_isNone, ← held, Option.isNone_map]
        exact plain.1
      · exact fun item listed => by simpa using plain.2 item listed

theorem publishBatch_visit (env : DeliveryPolicy) (order : PendingOrder) (items : List PublishItem)
    (perm : entries.Perm (l.live.filter (receives items)))
    (visited : order.visit (collect (items.flatMap (copiesOf b.registry)) ∅) =
      entries.map (pendingFor items)) :
    b.publishBatch env order items = (entries.map (parcelFor items)).foldl (push env)
      (serve env (counted b items.length) (batchDemand l.live items)) := by
  cases items with
  | nil =>
    have nobody : l.live.filter (receives []) = [] := by simp [receives]
    obtain rfl : entries = [] := List.perm_nil.mp (nobody ▸ perm)
    exact (serve_nil env _).symm
  | cons first rest =>
    have counts : Refines (counted b (first :: rest).length) l :=
      h.frame (SameSubscriptions.traffic.incPublishedBy b (first :: rest).length)
    cases short : (counted b (first :: rest).length).batchShortcut first (first :: rest) with
    | some target =>
      obtain ⟨id, sub⟩ := target
      obtain ⟨entry, member, rfl, conn, handle, free, alone, same⟩ :=
        batchShortcut_some counts short
      have only := receives_single (live_nodup l) alone free same (List.cons_ne_nil _ _)
      obtain rfl : entries = [entry] := List.perm_singleton.mp (perm.trans only.symm)
      have everything : bundle (first :: rest) entry =
          (first :: rest).map (·.deliveryTo entry.id sub.connectionId) := by
        have accepted : entry.pattern.matches first.subject = true :=
          (mem_matched.mp (alone ▸ List.mem_singleton_self entry)).2
        rw [bundle, conn, List.filter_eq_self.mpr]
        exact fun item listed => (same item listed).symm ▸ accepted
      rw [publishBatch_short short, batchDemand_single alone free same, serve_nil,
        List.map_singleton, List.foldl_cons, List.foldl_nil, parcelFor, everything, handle]
    | none =>
      have demand : (first :: rest).flatMap (demandFor b.registry) =
          batchDemand l.live (first :: rest) := by
        rw [batchDemand]
        exact congrArg (List.flatMap · _) (funext fun item => demandFor_live h item)
      rw [publishBatch_staged short, visited, demand]
      exact foldl_flushPending counts (serve_registry env _ _) (first :: rest)
        fun entry member => List.mem_of_mem_filter (perm.subset member)

/-- All that a batch does, whichever of its paths it takes and in whichever order
the pending map is emptied. -/
theorem publishBatch_live (env : DeliveryPolicy) (order : PendingOrder)
    (items : List PublishItem) :
    ∃ entries : List LiveSub, entries.Perm (l.live.filter (receives items)) ∧
      b.publishBatch env order items = (entries.map (parcelFor items)).foldl (push env)
        (serve env (counted b items.length) (batchDemand l.live items)) := by
  have parcels := (order.perm _).trans (pending_perm h items)
  obtain ⟨entries, visited, perm⟩ :=
    (congrFun₂ (List.eq_map_comp_perm (pendingFor items)) _ _).mpr parcels
  exact ⟨entries, perm, publishBatch_visit h env order items perm visited⟩

theorem publishBatch_realizes (env : DeliveryPolicy) (items : List PublishItem)
    (perm : entries.Perm (l.live.filter (receives items))) :
    ∃ order, b.publishBatch env order items = (entries.map (parcelFor items)).foldl (push env)
      (serve env (counted b items.length) (batchDemand l.live items)) := by
  classical
  set pending := collect (items.flatMap (copiesOf b.registry)) ∅ with isPending
  have listing : (entries.map (pendingFor items)).Perm pending.entries :=
    (perm.map _).trans (pending_perm h items).symm
  let order : PendingOrder :=
    ⟨fun t => if t = pending then entries.map (pendingFor items) else t.entries, fun t => by
      split_ifs with here
      · exact here ▸ listing
      · exact .rfl⟩
  exact ⟨order, publishBatch_visit h env order items perm (if_pos isPending.symm)⟩

end

section
variable {l : Ledger} (free : ∀ entry ∈ l.live, entry.group = none)
include free

theorem groupKey_free (member : entry ∈ l.live) : entry.groupKey = none := by
  rw [LiveSub.groupKey, free entry member]
  rfl

theorem matched_keys_free (subject : Subject) :
    (matched l.live subject).filterMap LiveSub.groupKey = [] := by
  rw [List.filterMap_eq_nil_iff]
  exact fun entry member => groupKey_free free (mem_matched.mp member).1

theorem batchDemand_free (items : List PublishItem) : batchDemand l.live items = [] := by
  rw [batchDemand, List.flatMap_eq_nil_iff]
  intro item _
  rw [matched_keys_free free]
  rfl

end

end ZetMQ.BatchDelivery
