import ZetMQ.ConcurrentPublish
import ZetMQ.RegisteredIds
import Mathlib.Data.List.Induction

/-! One publish among calls that subscribe and unsubscribe. -/
namespace ZetMQ.PublishScene
open Utf8Text SubjectGrammar WildcardTrie KeyedTable Routing Delivery Registry Broker
open Interleaving ConcurrentBroker ConcurrentPublish DeliveryFrame RegisteredIds

structure Scene where
  shared : Shared BrokerCore Task
  publish : Option Publishing

/-- A call begins, a call in progress makes a step, or the publish does. -/
inductive Turn where
  | calls (event : Event Change)
  | publish

namespace Scene

def start : Scene := ⟨⟨.new, []⟩, some .start⟩

def broker (scene : Scene) : BrokerCore := scene.shared.state

def proceed (env : DeliveryPolicy) (message : Message) (scene : Scene) (left : Publishing) :
    Scene where
  shared := ⟨(ConcurrentPublish.next env message scene.broker left).1, scene.shared.pending⟩
  publish := (ConcurrentPublish.next env message scene.broker left).2

def step (env : DeliveryPolicy) (message : Message) (scene : Scene) : Turn → Scene
  | .calls event =>
    { scene with shared := scene.shared.step ConcurrentBroker.next (event.map Change.task) }
  | .publish =>
    match scene.publish with
    | none => scene
    | some left => scene.proceed env message left

/-- The ids that `deliver` was called with. -/
def called (scene : Scene) : List SubscriptionId :=
  scene.broker.calls.map (·.message.subscriptionId)

end Scene

def run (env : DeliveryPolicy) (message : Message) (turns : List Turn) : Scene :=
  turns.foldl (Scene.step env message) .start

variable {loop : Loop} {left : Publishing} {arc : KeyArc} (env : DeliveryPolicy) (message : Message)

theorem run_concat (turns : List Turn) (turn : Turn) :
    run env message (turns ++ [turn]) = (run env message turns).step env message turn := by
  rw [run, List.foldl_append]
  rfl

theorem step_calls (scene : Scene) (event : Event Change) {P : Scene → Prop}
    (begins : ∀ change : Change,
      P { scene with shared := ⟨scene.broker, scene.shared.pending ++ [change.task]⟩ })
    (advances : ∀ i call, scene.shared.pending[i]? = some call →
      P { scene with shared := scene.shared.advance ConcurrentBroker.next i call })
    (stays : P scene) : P (scene.step env message (.calls event)) := by
  cases event with
  | begin change => exact begins change
  | advance i =>
    rw [Scene.step, Event.map, Shared.step]
    cases found : scene.shared.pending[i]? with
    | none => exact stays
    | some call => exact advances i call found

theorem next_traffic {R : BrokerCore → BrokerCore → Prop} (traffic : Traffic R)
    (env : DeliveryPolicy) (message : Message) (b : BrokerCore) (left : Publishing) :
    R b (ConcurrentPublish.next env message b left).1 := by
  cases left with
  | start => exact traffic.counted b _ rfl rfl
  | pick key loop =>
    rw [ConcurrentPublish.next]
    cases found : b.queueGroups.lookup key with
    | none => exact traffic.refl b
    | some group =>
      dsimp only
      split_ifs with empty
      · exact traffic.refl b
      · exact traffic.advanced b key group _ found
  | send target loop => exact traffic.logged b _
  | count status loop => exact traffic.handleDeliveryStatus b status
  | _ => exact traffic.refl b

def lastKey : Publishing → Option KeyArc
  | .visit _ loop => loop.lastKey
  | .pick _ loop => loop.lastKey
  | .lookup _ _ loop => loop.lastKey
  | .send _ loop => loop.lastKey
  | .count _ loop => loop.lastKey
  | _ => none

theorem lastKey_fanning (goes : loop.fanning = some left) : lastKey left = loop.lastKey := by
  rw [Loop.fanning] at goes
  cases fanout : loop.fanout with
  | nil => simp [fanout] at goes
  | cons target rest =>
    simp only [fanout, Option.some.injEq] at goes
    rw [← goes, lastKey]

theorem lastKey_resume (goes : loop.resume = some left) (held : lastKey left = some arc) :
    loop.lastKey = some arc := by
  obtain ⟨rest, fanout, members, last⟩ := loop
  cases rest with
  | cons id rest =>
    cases goes
    exact held
  | nil =>
    cases last with
    | none => exact (lastKey_fanning goes).symm.trans held
    | some last =>
      simp only [Loop.resume] at goes
      split_ifs at goes
      · cases (lastKey_fanning goes).symm.trans held
      · cases goes
        cases held

theorem lastKey_enter {id : SubscriptionId} {last : KeyArc} (goes : loop.enter id arc = some left)
    (held : lastKey left = some last) : last = arc ∨ loop.lastKey = some last := by
  rw [Loop.enter] at goes
  cases there : loop.lastKey with
  | none =>
    simp only [there] at goes
    exact .inl (Option.some.inj (lastKey_resume goes held)).symm
  | some last' =>
    simp only [there] at goes
    split_ifs at goes
    · exact .inr (lastKey_resume goes held)
    · exact .inl (Option.some.inj (lastKey_resume goes held)).symm
    · cases goes
      exact .inl (Option.some.inj held).symm

theorem lastKey_next {env : DeliveryPolicy} {message : Message} {b : BrokerCore}
    {left' : Publishing} (goes : (ConcurrentPublish.next env message b left).2 = some left')
    (held : lastKey left' = some arc) :
    lastKey left = some arc ∨
      ∃ id sub, b.registry.getRef id = some sub ∧ sub.queueGroupKey = some arc := by
  cases left with
  | start | exact =>
    cases goes
    cases held
  | flag ids =>
    simp only [ConcurrentPublish.next] at goes
    split_ifs at goes
    · cases goes
      cases held
    · cases lastKey_resume goes held
  | trie ids => cases lastKey_resume goes held
  | visit id loop =>
    simp only [ConcurrentPublish.next] at goes
    cases found : b.registry.getRef id with
    | none =>
      simp only [found] at goes
      exact .inl (lastKey_resume goes held)
    | some sub =>
      cases key : sub.queueGroupKey with
      | none =>
        simp only [found, key] at goes
        have before := lastKey_resume goes held
        exact .inl before
      | some own =>
        simp only [found, key] at goes
        rcases lastKey_enter goes held with rfl | old
        · exact .inr ⟨id, sub, found, key⟩
        · exact .inl old
  | pick key loop =>
    rw [ConcurrentPublish.next] at goes
    cases found : b.queueGroups.lookup key with
    | none =>
      simp only [found] at goes
      exact .inl (lastKey_resume goes held)
    | some group =>
      simp only [found] at goes
      split_ifs at goes
      · exact .inl (lastKey_resume goes held)
      · cases chosen : group.members[group.currentIndex % group.members.length]? with
        | none =>
          simp only [chosen] at goes
          exact .inl (lastKey_resume goes held)
        | some id =>
          simp only [chosen, Option.some.injEq] at goes
          exact .inl (by rw [← held, ← goes]; rfl)
  | lookup key id loop =>
    simp only [ConcurrentPublish.next] at goes
    cases found : b.registry.getRef id with
    | none =>
      simp only [found] at goes
      exact .inl (lastKey_resume goes held)
    | some sub =>
      simp only [found, Option.some.injEq] at goes
      exact .inl (by rw [← held, ← goes]; rfl)
  | send target loop =>
    cases goes
    exact .inl held
  | count status loop => exact .inl (lastKey_resume goes held)

theorem lookup_key_next {b : BrokerCore} {call : Task} (proper : Proper b.router call)
    {key : QueueGroupKey} (interned : b.queueGroupKeys.lookup key = some arc) :
    (ConcurrentBroker.next b call).1.queueGroupKeys.lookup key = some arc := by
  cases proper with
  | intern sub own =>
    rw [ConcurrentBroker.next, BrokerCore.internKey]
    cases found : b.queueGroupKeys.lookup own with
    | some old => exact interned
    | none =>
      have other : key ≠ own := by
        rintro rfl
        cases found.symm.trans interned
      exact (AList.lookup_insert_ne other).trans interned
  | unsubscribe conn id =>
    rw [ConcurrentBroker.next]
    cases b.registry.subscriptions.lookup id <;> exact interned
  | _ => exact interned

structure Kept (scene : Scene) : Prop where
  sound : Sound scene.shared
  last : ∀ left arc, scene.publish = some left → lastKey left = some arc →
    scene.broker.queueGroupKeys.lookup arc.key = some arc

theorem Kept.step {scene : Scene} (kept : Kept scene) (env : DeliveryPolicy) (message : Message)
    (turn : Turn) : Kept (scene.step env message turn) := by
  cases turn with
  | calls event =>
    refine step_calls env message scene event (fun change => ?_) (fun i call found => ?_) kept
    · exact ⟨kept.sound.begin change, kept.last⟩
    · have proper := kept.sound.proper call (List.mem_of_getElem? found)
      exact ⟨kept.sound.advance found, fun left arc here held =>
        lookup_key_next proper (kept.last left arc here held)⟩
  | publish =>
    rw [Scene.step]
    cases here : scene.publish with
    | none => exact kept
    | some left =>
      have same : SameSubscriptions scene.broker (scene.proceed env message left).broker :=
        next_traffic SameSubscriptions.traffic env message scene.broker left
      refine ⟨kept.sound.frame same, fun left' arc goes held => ?_⟩
      rw [same.keys]
      rcases lastKey_next goes held with old | ⟨id, sub, found, own⟩
      · exact kept.last left arc here old
      · exact kept.sound.live_arc found own

theorem kept_run (turns : List Turn) : Kept (run env message turns) := by
  induction turns using List.reverseRecOn with
  | nil => exact ⟨sound_new, by rintro left arc ⟨⟩ ⟨⟩⟩
  | append_singleton turns turn ih =>
    rw [run_concat]
    exact ih.step env message turn

theorem publish_run_calls (before : List (Event Change)) :
    (run env message (before.map .calls)).publish = some .start := by
  induction before using List.reverseRecOn with
  | nil => rfl
  | append_singleton before event ih =>
    rw [List.map_append, List.map_singleton, run_concat]
    exact ih

end ZetMQ.PublishScene
