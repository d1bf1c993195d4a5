import ZetMQ.ConsumerAccounts

/-! Consumers over whole runs of the store. In every reachable state, whatever calls
came in between, the registered consumers are those with an account and agree with
it. -/
namespace ZetMQ.ConsumerRuns
open Utf8Text KeyedTable Streams StreamStore ConsumerAccounts

/-- The streams are kept, and the registered consumers are those with an account. -/
structure Accounted (host : StoreHost) (trace : List (StoreEvent × Outcome)) : Prop where
  store : AllKept host.manager.store
  books : ∀ key, Option.Rel Settled (host.manager.consumers.lookup key) (accountOf key trace)

theorem accountOf_concat (key : Str) (trace : List (StoreEvent × Outcome))
    (entry : StoreEvent × Outcome) :
    accountOf key (trace ++ [entry]) = observe key (accountOf key trace) entry := by
  rw [accountOf, List.foldl_append]
  rfl

namespace Accounted
variable {host : StoreHost} {trace : List (StoreEvent × Outcome)}

theorem start : Accounted .start [] := by
  refine ⟨fun name stream found => ?_, fun key => Option.Rel.none⟩
  cases found

section
variable (accounted : Accounted host trace)
include accounted

theorem no_account {key : Str} (found : host.manager.consumers.lookup key = none) :
    accountOf key trace = none := by
  have related := accounted.books key
  rw [found] at related
  cases booked : accountOf key trace with
  | none => rfl
  | some account =>
    rw [booked] at related
    cases related

theorem account {key : Str} {consumer : Consumer}
    (found : host.manager.consumers.lookup key = some consumer) :
    ∃ account, accountOf key trace = some account ∧ Settled consumer account := by
  have related := accounted.books key
  rw [found] at related
  cases booked : accountOf key trace with
  | none =>
    rw [booked] at related
    cases related
  | some account =>
    rw [booked] at related
    cases related with
    | some settled => exact ⟨account, rfl, settled⟩

theorem quiet {host' : StoreHost} {entry : StoreEvent × Outcome}
    (store : AllKept host'.manager.store) (same : host'.manager.consumers = host.manager.consumers)
    (unseen : ∀ key account, observe key account entry = account) :
    Accounted host' (trace ++ [entry]) := by
  refine ⟨store, fun key => ?_⟩
  rw [same, accountOf_concat, unseen]
  exact accounted.books key

theorem update {host' : StoreHost} {entry : StoreEvent × Outcome}
    (store : AllKept host'.manager.store) (key : Str) (elsewhere : ∀ other, other ≠ key →
      host'.manager.consumers.lookup other = host.manager.consumers.lookup other ∧
        ∀ account, observe other account entry = account)
    (here : Option.Rel Settled (host'.manager.consumers.lookup key)
      (observe key (accountOf key trace) entry)) : Accounted host' (trace ++ [entry]) := by
  refine ⟨store, fun other => ?_⟩
  rw [accountOf_concat]
  by_cases same : other = key
  · rw [same]
    exact here
  · rw [(elsewhere other same).1, (elsewhere other same).2]
    exact accounted.books other

theorem register (waiting : ℕ) :
    Accounted (host.step (.register waiting)).2
      (trace ++ [(.register waiting, (host.step (.register waiting)).1)]) := by
  simp only [StoreHost.step, ConsumerManager.register]
  cases host.creating[waiting]? with
  | none => exact accounted.quiet accounted.store rfl fun _ _ => rfl
  | some call =>
    obtain ⟨config, info⟩ := call
    dsimp only
    cases host.manager.consumers.lookup (consumerKey config.stream config.durableName) with
    | some _ => exact accounted.quiet accounted.store rfl fun _ _ => rfl
    | none =>
      refine accounted.update accounted.store (consumerKey config.stream config.durableName) ?_ ?_
      · intro other different
        exact ⟨AList.lookup_insert_ne different, fun _ => if_neg different.symm⟩
      · simp only [observe, if_true, AList.lookup_insert]
        exact Option.Rel.some (.new config info)

theorem deleteConsumer (stream name : Str) :
    Accounted (host.step (.deleteConsumer stream name)).2
      (trace ++ [(.deleteConsumer stream name, .deleted)]) := by
  refine accounted.update accounted.store (consumerKey stream name) ?_ ?_
  · intro other different
    exact ⟨AList.lookup_erase_ne different, fun _ => if_neg different.symm⟩
  · simp only [observe, if_true, StoreHost.step, ConsumerManager.deleteConsumer,
      AList.lookup_erase]
    exact Option.Rel.none

end

theorem nextForConsumer_cases (manager : ConsumerManager) (stream name : Str) (now : ℕ) :
    (∃ result, (∀ message, result ≠ .ok (some message)) ∧
      manager.nextForConsumer stream name now = (result, manager)) ∨
    ∃ consumer message,
      manager.consumers.lookup (consumerKey stream name) = some consumer ∧
      consumer.isBackpressured = false ∧
      manager.store.readMessage stream consumer.state.nextSequence = .ok message ∧
      manager.nextForConsumer stream name now = (.ok (some message), { manager with
        consumers := manager.consumers.insert (consumerKey stream name)
          (consumer.recordDelivery consumer.state.nextSequence now) }) := by
  unfold ConsumerManager.nextForConsumer
  simp only
  split
  · exact .inl ⟨_, by simp, rfl⟩
  · rename_i consumer found
    by_cases full : consumer.isBackpressured
    · rw [if_pos full]
      exact .inl ⟨_, by simp, rfl⟩
    · rw [if_neg full]
      split
      · exact .inl ⟨_, by simp, rfl⟩
      · rename_i message read
        exact .inr ⟨consumer, message, found, Bool.not_eq_true _ ▸ full, read, rfl⟩

section
variable (accounted : Accounted host trace)
include accounted

theorem nextForConsumer (stream name : Str) (now : ℕ) :
    Accounted (host.step (.nextForConsumer stream name now)).2
      (trace ++ [(.nextForConsumer stream name now,
        (host.step (.nextForConsumer stream name now)).1)]) := by
  simp only [StoreHost.step]
  cases nextForConsumer_cases host.manager stream name now with
  | inl nothing =>
    obtain ⟨result, noMessage, result_eq⟩ := nothing
    rw [result_eq]
    refine accounted.quiet accounted.store rfl fun key account => ?_
    cases result with
    | error e => rfl
    | ok found =>
      cases found with
      | none => rfl
      | some message => exact absurd rfl (noMessage message)
  | inr delivery =>
    obtain ⟨consumer, message, found, free, read, result_eq⟩ := delivery
    obtain ⟨account, booked, settled⟩ := accounted.account found
    rw [result_eq]
    refine accounted.update accounted.store (consumerKey stream name) ?_ ?_
    · intro other different
      exact ⟨AList.lookup_insert_ne different, fun _ => if_neg different.symm⟩
    · simp only [observe, if_true, AList.lookup_insert, booked, Option.map_some,
        accounted.store.readMessage read]
      exact Option.Rel.some (settled.deliver free now)

theorem ack (stream name : Str) (s : ℕ) :
    Accounted (host.step (.ack stream name s)).2
      (trace ++ [(.ack stream name s, (host.step (.ack stream name s)).1)]) := by
  simp only [StoreHost.step, ConsumerManager.ack]
  cases found : host.manager.consumers.lookup (consumerKey stream name) with
  | none =>
    refine accounted.update accounted.store (consumerKey stream name) ?_ ?_
    · exact fun other different => ⟨rfl, fun _ => if_neg different.symm⟩
    · simp only [observe, if_true, accounted.no_account found, Option.map_none, found]
      exact Option.Rel.none
  | some consumer =>
    obtain ⟨account, booked, settled⟩ := accounted.account found
    refine accounted.update accounted.store (consumerKey stream name) ?_ ?_
    · intro other different
      exact ⟨AList.lookup_insert_ne different, fun _ => if_neg different.symm⟩
    · simp only [observe, if_true, AList.lookup_insert, booked, Option.map_some]
      exact Option.Rel.some (settled.acknowledge s)

theorem step (event : StoreEvent) :
    Accounted (host.step event).2 (trace ++ [(event, (host.step event).1)]) := by
  cases event with
  | createStream name config =>
    exact accounted.quiet (accounted.store.createStream name config) rfl fun _ _ => rfl
  | deleteStream name =>
    exact accounted.quiet (accounted.store.deleteStream name) rfl fun _ _ => rfl
  | storeMessage name call =>
    exact accounted.quiet (accounted.store.storeMessage name call) rfl fun _ _ => rfl
  | createConsumer config =>
    simp only [StoreHost.step]
    cases host.manager.store.streamInfo config.stream with
    | error e => exact accounted.quiet accounted.store rfl fun _ _ => rfl
    | ok info => exact accounted.quiet accounted.store rfl fun _ _ => rfl
  | register waiting => exact accounted.register waiting
  | deleteConsumer stream name => exact accounted.deleteConsumer stream name
  | nextForConsumer stream name now => exact accounted.nextForConsumer stream name now
  | ack stream name s => exact accounted.ack stream name s

theorem run (events : List StoreEvent) :
    Accounted (host.run events).2 (trace ++ (host.run events).1) := by
  induction events generalizing host trace with
  | nil =>
    rw [StoreHost.run, List.append_nil]
    exact accounted
  | cons event events ih =>
    have later := ih (accounted.step event)
    rw [List.append_assoc, List.singleton_append] at later
    exact later

end

end Accounted

/-- In every reachable state: consumers agree with their accounts, a consumer that is not
backpressured is handed what the named stream holds under the next sequence of its account and
nothing else, and an acknowledgement is valid exactly if its sequence is pending. -/
theorem consumers_are_accounted (events : List StoreEvent) :
    let trace := (StoreHost.start.run events).1
    let host := (StoreHost.start.run events).2
    (∀ key, Option.Rel Settled (host.manager.consumers.lookup key) (accountOf key trace)) ∧
    (∀ stream name now consumer,
      host.manager.consumers.lookup (consumerKey stream name) = some consumer →
      ∃ account, accountOf (consumerKey stream name) trace = some account ∧
        (host.step (.nextForConsumer stream name now)).1 = .next (.ok (
          if consumer.isBackpressured then none
          else (host.manager.store.readMessage stream
            (account.start + account.delivered.length)).toOption))) ∧
    (∀ stream name now message,
      (host.step (.nextForConsumer stream name now)).1 = .next (.ok (some message)) →
      ∃ account, accountOf (consumerKey stream name) trace = some account ∧
        message.sequence = account.start + account.delivered.length ∧
        host.manager.store.readMessage stream message.sequence = .ok message) ∧
    ∀ stream name s, (host.step (.ack stream name s)).1 = .acked true ↔
      ∃ consumer, host.manager.consumers.lookup (consumerKey stream name) = some consumer ∧
        s ∈ consumer.state.pendingAcks := by
  intro trace host
  have accounted : Accounted host trace := Accounted.start.run events
  refine ⟨accounted.books, ?_, ?_, ?_⟩
  · intro stream name now consumer found
    obtain ⟨account, booked, settled⟩ := accounted.account found
    refine ⟨account, booked, ?_⟩
    simp only [StoreHost.step, ConsumerManager.nextForConsumer, found, ← settled.nextSequence]
    cases consumer.isBackpressured with
    | true => rfl
    | false => cases host.manager.store.readMessage stream consumer.state.nextSequence <;> rfl
  · intro stream name now message handed
    simp only [StoreHost.step, Outcome.next.injEq] at handed
    cases Accounted.nextForConsumer_cases host.manager stream name now with
    | inl nothing =>
      obtain ⟨result, noMessage, result_eq⟩ := nothing
      rw [result_eq] at handed
      exact absurd handed (noMessage message)
    | inr delivery =>
      obtain ⟨consumer, sent, found, -, read, result_eq⟩ := delivery
      rw [result_eq] at handed
      obtain ⟨account, booked, settled⟩ := accounted.account found
      cases handed
      have sequence := accounted.store.readMessage read
      exact ⟨account, booked, sequence.trans settled.nextSequence, sequence.symm ▸ read⟩
  · intro stream name s
    simp only [StoreHost.step, ConsumerManager.ack, Outcome.acked.injEq]
    cases found : host.manager.consumers.lookup (consumerKey stream name) with
    | none => simp
    | some consumer =>
      obtain ⟨account, -, settled⟩ := accounted.account found
      simp only [Option.some.injEq, exists_eq_left']
      rw [settled.pending]
      exact settled.ack_fst s

private def invoice (payload : Bytes) : StoreCall := ⟨"a".toList, none, payload, none, 0, 0⟩

private def twoDelivered : List StoreEvent :=
  [.createStream "s".toList .default, .storeMessage "s".toList (invoice [1]),
    .storeMessage "s".toList (invoice [2]), .storeMessage "s".toList (invoice [3]),
    .createConsumer ⟨"c".toList, "s".toList, none, .all, .explicit, 2⟩, .register 0,
    .nextForConsumer "s".toList "c".toList 0, .nextForConsumer "s".toList "c".toList 0,
    .ack "s".toList "c".toList 1]

private def twoDeliveredHost : StoreHost := (StoreHost.start.run twoDelivered).2

theorem third_message_is_next :
    (∃ account, accountOf (consumerKey "s".toList "c".toList)
        (StoreHost.start.run twoDelivered).1 = some account ∧
      (account.start, account.delivered, account.acked) = (1, [1, 2], [1]) ∧
      (twoDeliveredHost.step (.nextForConsumer "s".toList "c".toList 0)).1 =
        .next (.ok (some ⟨3, 0, "a".toList, none, [3], none⟩))) ∧
    (twoDeliveredHost.step (.ack "s".toList "c".toList 2)).1 = .acked true ∧
    (twoDeliveredHost.step (.ack "s".toList "c".toList 1)).1 ≠ .acked true := by
  obtain ⟨-, handed, -, acks⟩ := consumers_are_accounted twoDelivered
  refine ⟨?_, (acks _ _ 2).mpr ⟨_, rfl, by decide⟩, fun acked => ?_⟩
  · obtain ⟨account, booked, next⟩ := handed "s".toList "c".toList 0 _ rfl
    refine ⟨account, booked, ?_, ?_⟩
    · cases booked
      rfl
    · cases booked
      exact next
  · obtain ⟨consumer, found, pending⟩ := (acks _ _ 1).mp acked
    cases found
    exact absurd pending (by decide)

end ZetMQ.ConsumerRuns
