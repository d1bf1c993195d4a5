import ZetMQ.RoutingTable
import ZetMQ.SubscriptionLedger

/-! The registry keeps the ledger. `Tracks` covers the id table and the router,
which the loop over a closing connection updates together; `Keeps` adds the
index by connection, which holds between the calls of the registry. -/
namespace ZetMQ.RegistryRefinement
open Utf8Text SubjectGrammar WildcardTrie KeyedTable Routing RoutingTable Delivery Registry
open SubscriptionLedger

def toLive (sub : Subscription) : LiveSub :=
  ⟨sub.id, sub.connectionId, sub.pattern, sub.queueGroup, sub.delivery⟩

def routesOf (live : List LiveSub) : RouteTable := live.map fun sub => (sub.id, sub.pattern)

theorem routesOf_fst (live : List LiveSub) :
    (routesOf live).map Prod.fst = live.map LiveSub.id := by
  simp [routesOf, Function.comp_def]

structure Tracks (r : SubscriptionRegistry) (live : List LiveSub) : Prop where
  keyed : KeyedBy Subscription.id r.subscriptions
  subs : (values r.subscriptions).map toLive = live
  routes : Represents r.router (routesOf live)

structure Keeps (r : SubscriptionRegistry) (live : List LiveSub) : Prop extends Tracks r live where
  conns : ∀ conn, (r.byConnection.lookup conn).getD [] =
    (live.filter (·.conn = conn)).map LiveSub.id

theorem keeps_new : Keeps .new [] where
  keyed := keyedBy_empty _
  subs := rfl
  routes := represents_new
  conns _ := rfl

variable {r : SubscriptionRegistry} {live : List LiveSub} {id : SubscriptionId}

theorem Tracks.of_lookup (h : Tracks r live) {sub : Subscription}
    (found : r.subscriptions.lookup id = some sub) : sub.id = id ∧ toLive sub ∈ live := by
  obtain rfl := h.keyed id sub found
  refine ⟨rfl, ?_⟩
  rw [← h.subs]
  exact List.mem_map_of_mem ((mem_values_iff h.keyed sub).mpr found)

theorem Tracks.lookup_of_mem (h : Tracks r live) {entry : LiveSub} (member : entry ∈ live) :
    ∃ sub, r.subscriptions.lookup entry.id = some sub ∧ toLive sub = entry := by
  rw [← h.subs] at member
  obtain ⟨sub, listed, rfl⟩ := List.mem_map.mp member
  exact ⟨sub, (mem_values_iff h.keyed sub).mp listed, rfl⟩

theorem Tracks.lookup_eq_none (h : Tracks r live) :
    r.subscriptions.lookup id = none ↔ ∀ entry ∈ live, entry.id ≠ id := by
  constructor
  · rintro missing entry member rfl
    obtain ⟨sub, found, -⟩ := h.lookup_of_mem member
    rw [missing] at found
    cases found
  · intro absent
    by_contra present
    obtain ⟨sub, found⟩ := Option.ne_none_iff_exists'.mp present
    obtain ⟨same, member⟩ := h.of_lookup found
    exact absent _ member same

theorem Keeps.add {r : SubscriptionRegistry} {live : List LiveSub} (h : Keeps r live)
    {sub : Subscription} (fresh : ∀ entry ∈ live, entry.id ≠ sub.id) :
    Keeps (r.add sub) (live ++ [toLive sub]) where
  keyed := h.keyed.insert sub
  subs := by
    rw [SubscriptionRegistry.add, values_insert_new _ _ _ (h.lookup_eq_none.mpr fresh),
      List.map_append, h.subs]
    rfl
  routes := by
    rw [routesOf, List.map_append]
    exact h.routes.insert sub.pattern sub.id
  conns conn := by
    rw [SubscriptionRegistry.add, lookup_upsert, List.filter_append, List.map_append, ← h.conns]
    split_ifs with same
    · subst same
      simp [toLive, h.conns]
    · simp [toLive, Ne.symm same]

/-- Erasing a live id from the table and the router, whatever happens to the
index by connection. -/
theorem Tracks.erase (h : Tracks r live) (nodup : (live.map LiveSub.id).Nodup) {sub : Subscription}
    (found : r.subscriptions.lookup id = some sub)
    (conns : Table ConnectionId (List SubscriptionId)) :
    Tracks ⟨r.subscriptions.erase id, conns, r.router.remove sub.pattern id⟩
      (live.filter (·.id ≠ id)) where
  keyed := h.keyed.erase id
  subs := by
    rw [values_erase h.keyed, ← h.subs, List.filter_map]
    rfl
  routes := by
    have kept : routesOf (live.filter (·.id ≠ id)) = (routesOf live).filter (·.1 ≠ id) := by
      rw [routesOf, routesOf, List.filter_map]
      rfl
    rw [kept]
    refine h.routes.remove (routesOf_fst live ▸ nodup) ?_
    intro other member
    obtain ⟨rfl, listed⟩ := h.of_lookup found
    obtain ⟨entry, present, same⟩ := List.mem_map.mp member
    obtain ⟨sameId, rfl⟩ := Prod.mk.inj same
    rw [List.inj_on_of_nodup_map nodup present listed sameId]
    rfl

theorem remove_none (h : Tracks r live) (absent : ∀ entry ∈ live, entry.id ≠ id) :
    r.remove id = (r, none) := by
  rw [SubscriptionRegistry.remove, h.lookup_eq_none.mpr absent]

theorem Keeps.remove (h : Keeps r live) (nodup : (live.map LiveSub.id).Nodup)
    (id : SubscriptionId) : Keeps (r.remove id).1 (live.filter (·.id ≠ id)) := by
  cases found : r.subscriptions.lookup id with
  | none =>
    have absent := h.lookup_eq_none.mp found
    have same : live.filter (·.id ≠ id) = live :=
      List.filter_eq_self.mpr fun entry member => by simpa using absent entry member
    rw [remove_none h.toTracks absent, same]
    exact h
  | some sub =>
    simp only [SubscriptionRegistry.remove, found]
    refine ⟨h.toTracks.erase nodup found _, ?_⟩
    obtain ⟨rfl, listed⟩ := h.of_lookup found
    intro conn
    rw [lookup_modify, List.filter_filter]
    split_ifs with same
    · subst same
      have whole := h.conns sub.connectionId
      have filtered : ((r.byConnection.lookup sub.connectionId).map (·.filter (· ≠ sub.id))).getD
        [] =
          ((r.byConnection.lookup sub.connectionId).getD []).filter (· ≠ sub.id) := by
        cases r.byConnection.lookup sub.connectionId <;> rfl
      rw [filtered, whole, List.filter_map, List.filter_filter]
      congr 1
      refine List.filter_congr fun entry _ => ?_
      simp [Bool.and_comm]
    · rw [h.conns]
      congr 1
      refine List.filter_congr fun entry member => ?_
      by_cases here : entry.conn = conn
      · have other : entry.id ≠ sub.id := by
          intro sameId
          rw [List.inj_on_of_nodup_map nodup member listed sameId] at here
          exact same here.symm
        simp [here, other]
      · simp [here]

/-- The loop over the ids of a closing connection: the listed subscriptions
leave the table and the router and are returned in order. -/
theorem foldl_dropOne (entries : List LiveSub) (removed : List Subscription) (h : Tracks r live)
    (nodup : (live.map LiveSub.id).Nodup) (listed : ∀ entry ∈ entries, entry ∈ live)
    (distinct : (entries.map LiveSub.id).Nodup) :
    let result := (entries.map LiveSub.id).foldl SubscriptionRegistry.dropOne (r, removed)
    Tracks result.1 (live.filter fun entry => entry.id ∉ entries.map LiveSub.id) ∧
      result.2.map toLive = removed.map toLive ++ entries ∧
      (∀ sub ∈ result.2, sub ∈ removed ∨ r.subscriptions.lookup sub.id = some sub) ∧
      (∀ id sub, result.1.subscriptions.lookup id = some sub →
        r.subscriptions.lookup id = some sub) ∧
      result.1.byConnection = r.byConnection := by
  induction entries generalizing r live removed with
  | nil => exact ⟨by simpa using h, by simp, fun _ member => .inl member, fun _ _ => id, rfl⟩
  | cons entry entries ih =>
    obtain ⟨sub, found, rfl⟩ := h.lookup_of_mem (listed entry (List.mem_cons_self ..))
    rw [List.map_cons, List.nodup_cons] at distinct
    have next := h.erase nodup found r.byConnection
    have stillListed : ∀ entry ∈ entries, entry ∈ live.filter (·.id ≠ sub.id) := by
      intro entry member
      rw [List.mem_filter]
      refine ⟨listed entry (List.mem_cons_of_mem _ member), ?_⟩
      have other : entry.id ≠ sub.id :=
        fun same => distinct.1 (List.mem_map.mpr ⟨entry, member, same⟩)
      simpa using other
    obtain ⟨tracks, returned, source, left, conns⟩ := ih (removed ++ [sub]) next
      (nodup.sublist ((List.filter_sublist ..).map _)) stillListed distinct.2
    have step : SubscriptionRegistry.dropOne (r, removed) (toLive sub).id =
        (⟨r.subscriptions.erase sub.id, r.byConnection, r.router.remove sub.pattern sub.id⟩,
          removed ++ [sub]) := by
      have found : r.subscriptions.lookup sub.id = some sub := found
      simp only [SubscriptionRegistry.dropOne, toLive, found]
    rw [List.map_cons, List.foldl_cons, step]
    refine ⟨?_, ?_, ?_, ?_, conns⟩
    · have both : live.filter (fun entry => entry.id ∉ (toLive sub).id :: entries.map LiveSub.id) =
          (live.filter (·.id ≠ sub.id)).filter fun entry => entry.id ∉ entries.map LiveSub.id := by
        rw [List.filter_filter]
        refine List.filter_congr fun entry _ => ?_
        simp [toLive, Bool.and_comm]
      rw [both]
      exact tracks
    · refine returned.trans ?_
      rw [List.map_append, List.append_assoc]
      rfl
    · intro other member
      rcases source other member with old | kept
      · rcases List.mem_append.mp old with old | new
        · exact .inl old
        · rw [List.mem_singleton.mp new]
          exact .inr found
      · exact .inr (lookup_erase_eq_some.mp kept).2
    · intro id other found
      exact (lookup_erase_eq_some.mp (left id other found)).2

theorem filter_notMem_conn (live : List LiveSub) (nodup : (live.map LiveSub.id).Nodup)
    (conn : ConnectionId) :
    live.filter (fun entry => entry.id ∉ (live.filter (·.conn = conn)).map LiveSub.id) =
      live.filter (·.conn ≠ conn) := by
  refine List.filter_congr fun entry member => ?_
  by_cases same : entry.conn = conn
  · have listed : entry.id ∈ (live.filter (·.conn = conn)).map LiveSub.id :=
      List.mem_map_of_mem (List.mem_filter.mpr ⟨member, by simpa using same⟩)
    simp only [listed, same, not_true_eq_false, ne_eq]
  · have absent : entry.id ∉ (live.filter (·.conn = conn)).map LiveSub.id := by
      intro listed
      obtain ⟨other, present, sameId⟩ := List.mem_map.mp listed
      obtain ⟨present, here⟩ := List.mem_filter.mp present
      rw [List.inj_on_of_nodup_map nodup present member sameId] at here
      exact same (by simpa using here)
    simp only [absent, same, not_false_eq_true, ne_eq]

theorem Keeps.removeAll (h : Keeps r live) (nodup : (live.map LiveSub.id).Nodup)
    (conn : ConnectionId) :
    Keeps (r.removeAllForConnection conn).1 (live.filter (·.conn ≠ conn)) ∧
      (r.removeAllForConnection conn).2.map toLive = live.filter (·.conn = conn) ∧
      (∀ sub ∈ (r.removeAllForConnection conn).2, r.getRef sub.id = some sub) ∧
      ∀ id sub, (r.removeAllForConnection conn).1.getRef id = some sub →
      r.getRef id = some sub := by
  have start : Tracks { r with byConnection := r.byConnection.erase conn } live :=
    ⟨h.keyed, h.subs, h.routes⟩
  obtain ⟨tracks, returned, source, left, conns⟩ :=
    foldl_dropOne (live.filter (·.conn = conn)) [] start nodup
      (fun _ member => List.mem_of_mem_filter member)
      (nodup.sublist ((List.filter_sublist ..).map _))
  rw [filter_notMem_conn live nodup] at tracks
  rw [SubscriptionRegistry.removeAllForConnection, h.conns]
  refine ⟨⟨tracks, ?_⟩, by simpa using returned, ?_, left⟩
  · intro other
    rw [conns, lookup_erase_ite, List.filter_filter]
    split_ifs with same
    · subst same
      rw [Option.getD_none, eq_comm, List.map_eq_nil_iff, List.filter_eq_nil_iff]
      simp
    · rw [h.conns]
      congr 1
      refine List.filter_congr fun entry _ => ?_
      by_cases here : entry.conn = other <;> simp [here, same]
  · intro sub member
    exact (source sub member).resolve_left (by simp)

end ZetMQ.RegistryRefinement
