import ZetMQ.ConcurrentBroker

/-! `publish` in atomic steps. Each read of a map, of the trie or of the flag is one step,
and so are the turn of a queue group, each `deliver` and each counter; between them the
calls that subscribe and unsubscribe go on. The accumulators of the loop over the
matched ids are part of what is left of the call. -/
namespace ZetMQ.ConcurrentPublish
open Utf8Text SubjectGrammar WildcardTrie KeyedTable Routing Delivery Registry Broker Interleaving

/-- A subscription without a group, as the loop keeps it. -/
abbrev Target := SubscriptionId × ConnectionId × DeliveryHandle

structure Loop where
  rest : List SubscriptionId
  fanout : List Target
  members : List SubscriptionId
  lastKey : Option KeyArc

/-- What is left of a `publish`. -/
inductive Publishing where
  | start
  | exact
  | flag (ids : List SubscriptionId)
  | trie (ids : List SubscriptionId)
  | visit (id : SubscriptionId) (loop : Loop)
  -- a turn of a group, up to the call of `deliver`
  | pick (key : QueueGroupKey) (loop : Loop)
  | lookup (key : QueueGroupKey) (id : SubscriptionId) (loop : Loop)
  | send (target : Target) (loop : Loop)
  | count (status : DeliveryStatus) (loop : Loop)

namespace Loop

def fanning (loop : Loop) : Option Publishing :=
  match loop.fanout with
  | [] => none
  | target :: fanout => some (.send target { loop with fanout := fanout })

def resume (loop : Loop) : Option Publishing :=
  match loop.rest with
  | id :: rest => some (.visit id { loop with rest := rest })
  | [] =>
    match loop.lastKey with
    | none => loop.fanning
    | some arc =>
      let closed := { loop with members := [], lastKey := none }
      if loop.members.isEmpty then closed.fanning else some (.pick arc.key closed)

def enter (loop : Loop) (id : SubscriptionId) (arc : KeyArc) : Option Publishing :=
  match loop.lastKey with
  | none => { loop with members := loop.members ++ [id], lastKey := some arc }.resume
  | some last =>
    if last.addr == arc.addr then { loop with members := loop.members ++ [id] }.resume
    else
      let opened := { loop with members := [id], lastKey := some arc }
      if loop.members.isEmpty then opened.resume else some (.pick last.key opened)

end Loop

def next (env : DeliveryPolicy) (message : Message) (b : BrokerCore) :
    Publishing → BrokerCore × Option Publishing
  | .start => ({ b with metrics := b.metrics.incPublished }, some .exact)
  | .exact => (b, some (.flag ((b.router.exact.lookup message.subject.raw).getD [])))
  | .flag ids =>
    (b, if b.router.hasWildcards then some (.trie ids) else Loop.resume ⟨ids, [], [], none⟩)
  | .trie ids =>
    (b, Loop.resume ⟨ids ++ b.router.wildcardTrie.matchSubject message.subject, [], [], none⟩)
  | .visit id loop =>
    (b, match b.registry.getRef id with
      | none => loop.resume
      | some sub =>
        match sub.queueGroupKey with
        | none =>
          { loop with fanout := loop.fanout ++ [(id, sub.connectionId, sub.delivery)] }.resume
        | some arc => loop.enter id arc)
  | .pick key loop =>
    match b.queueGroups.lookup key with
    | none => (b, loop.resume)
    | some group =>
      if group.members.length = 0 then (b, loop.resume)
      else
        ({ b with
           queueGroups := b.queueGroups.insert key
             { group with currentIndex := (group.currentIndex + 1) % 2 ^ 64 } },
          match group.members[group.currentIndex % group.members.length]? with
          | none => loop.resume
          | some chosen => some (.lookup key chosen loop))
  | .lookup _ id loop =>
    (b, match b.registry.getRef id with
      | none => loop.resume
      | some sub => some (.send (id, sub.connectionId, sub.delivery) loop))
  | .send target loop =>
    let (b, status) := b.deliver env target.2.2 (message.deliveryTo target.1 target.2.1)
    (b, some (.count status loop))
  | .count status loop => (b.handleDeliveryStatus status, loop.resume)

/-! A publish that nothing interrupts does what the function of the broker does. -/

section
variable (env : DeliveryPolicy) (message : Message)

theorem finishes_send {b final : BrokerCore} {target : Target} {loop : Loop}
    (later : Ends (next env message)
      (b.deliverOne env target.2.2 (message.deliveryTo target.1 target.2.1)) loop.resume final) :
    Finishes (next env message) b (.send target loop) final :=
  .more rfl (.step _ rfl later)

theorem ends_fanning (fanout : List Target) (members : List SubscriptionId) (b : BrokerCore) :
    Ends (next env message) b (Loop.fanning ⟨[], fanout, members, none⟩)
      (fanout.foldl
        (fun b target => b.deliverOne env target.2.2 (message.deliveryTo target.1 target.2.1))
        b) := by
  induction fanout generalizing b with
  | nil => rfl
  | cons target fanout ih => exact finishes_send env message (ih _)

theorem finishes_pick {b final : BrokerCore} {key : QueueGroupKey} {members : List SubscriptionId}
    (filled : members.isEmpty = false) {loop : Loop}
    (later : Ends (next env message) (b.deliverQueueGroup env key members message)
      loop.resume final) :
    Finishes (next env message) b (.pick key loop) final := by
  rw [BrokerCore.deliverQueueGroup, filled, if_neg Bool.false_ne_true] at later
  cases found : b.queueGroups.lookup key with
  | none =>
    rw [found] at later
    exact .step _ (by rw [next, found]) later
  | some group =>
    by_cases empty : group.members.length = 0
    · simp only [found, if_pos empty] at later
      refine .step _ ?_ later
      simp only [next, found, if_pos empty]
    · simp only [found, if_neg empty] at later
      refine .step _ (by simp only [next, found, if_neg empty]; rfl) ?_
      cases chosen : group.members[group.currentIndex % group.members.length]? with
      | none =>
        simp only [chosen] at later
        exact later
      | some id =>
        simp only [chosen, BrokerCore.deliverToSubscriber] at later
        refine Finishes.step _ rfl ?_
        cases here : b.registry.getRef id with
        | none =>
          simp only [here] at later ⊢
          exact later
        | some sub =>
          simp only [here] at later ⊢
          exact finishes_send env message later

def closing (loop : MatchLoop) : BrokerCore :=
  (loop.flushGroup env message).fanout.foldl
    (fun b target => b.deliverOne env target.2.2 (message.deliveryTo target.1 target.2.1))
    (loop.flushGroup env message).broker

theorem ends_resume (rest : List SubscriptionId) (fanout : List Target)
    (members : List SubscriptionId) (lastKey : Option KeyArc) (b : BrokerCore) :
    Ends (next env message) b (Loop.resume ⟨rest, fanout, members, lastKey⟩)
      (closing env message
        (rest.foldl (MatchLoop.step env message) ⟨b, fanout, members, lastKey⟩)) := by
  induction rest generalizing fanout members lastKey b with
  | nil =>
    cases lastKey with
    | none => exact ends_fanning env message fanout members b
    | some arc =>
      rw [Loop.resume]
      cases empty : members.isEmpty with
      | true =>
        have unserved : b.deliverQueueGroup env arc.key members message = b := by
          rw [BrokerCore.deliverQueueGroup, empty, if_pos rfl]
        simp only [if_true, closing, MatchLoop.flushGroup, List.foldl_nil, unserved]
        exact ends_fanning env message fanout [] b
      | false =>
        simp only [Bool.false_eq_true, if_false]
        exact finishes_pick env message empty (ends_fanning env message fanout [] _)
  | cons id rest ih =>
    rw [List.foldl_cons]
    refine Finishes.step _ rfl ?_
    cases found : b.registry.getRef id with
    | none =>
      simp only [MatchLoop.step, found]
      exact ih ..
    | some sub =>
      cases key : sub.queueGroupKey with
      | none =>
        simp only [MatchLoop.step, found, key]
        exact ih ..
      | some arc =>
        simp only [MatchLoop.step, found, key]
        cases lastKey with
        | none =>
          simp only [Loop.enter, MatchLoop.flushGroup, Bool.false_eq_true, if_false]
          exact ih ..
        | some last =>
          cases same : last.addr == arc.addr with
          | true =>
            simp only [Loop.enter, same, if_true]
            exact ih ..
          | false =>
            simp only [Loop.enter, same, Bool.false_eq_true, if_false, MatchLoop.flushGroup,
              List.nil_append]
            cases empty : members.isEmpty with
            | true =>
              have unserved : b.deliverQueueGroup env last.key members message = b := by
                rw [BrokerCore.deliverQueueGroup, empty, if_pos rfl]
              rw [if_pos rfl, unserved]
              exact ih ..
            | false =>
              rw [if_neg Bool.false_ne_true]
              exact finishes_pick env message empty (ih ..)

theorem finishes_flag (b : BrokerCore) :
    Finishes (next env message) b
      (.flag ((b.router.exact.lookup message.subject.raw).getD []))
      (b.deliverMatches env message (b.router.matchSubject message.subject)) := by
  have done := ends_resume env message (b.router.matchSubject message.subject) [] [] none b
  rw [RoutingEngine.matchSubject] at done ⊢
  cases flag : b.router.hasWildcards with
  | true =>
    simp only [flag, if_true] at done
    have loaded (ids : List SubscriptionId) :
        next env message b (.flag ids) = (b, some (.trie ids)) := by
      rw [next, flag, if_pos rfl]
    exact .more (loaded _) (.step _ (by rw [next]) done)
  | false =>
    simp only [flag, Bool.false_eq_true, if_false] at done
    exact .step _ (by rw [next, flag, if_neg Bool.false_ne_true]) done

theorem finishes_publish (b : BrokerCore) :
    Finishes (next env message) b .start (b.publish env message) :=
  .more rfl (.more rfl (finishes_flag env message _))

end

end ZetMQ.ConcurrentPublish
