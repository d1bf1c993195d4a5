import ZetMQ.ClientTasks

/-! A client and the session it has at the server, over one connection. Each end is known by
its history: the frames that the client has handed to its write task and the session takes
in order, and the frames that the session has enqueued and the read task takes in
order. -/
namespace ZetMQ.ClientLink
open KeyedTable ClientConnection LockedTasks ClientTasks

variable {M : Type}

/-- A frame that the session has enqueued. A message is early if no `UNSUB` had been sent
for its subscription. -/
structure Enqueued (M : Type) where
  frame : Inbound M
  early : Bool

structure Link (M : Type) where
  client : Client M
  -- the session: how many frames it has taken, and the subscriptions it has made, with the
  -- correlation id and the channel of the `SUB`
  served : ℕ
  nextId : ℕ
  created : Table ℕ (ℕ × ℕ)
  -- the `SUBACK` that it is about to enqueue
  acking : Option (ℕ × ℕ)
  enqueued : List (Enqueued M)
  -- how many of these the read task has taken
  taken : ℕ
  -- the ids that were entered into the map of the client and removed again, and the frames
  -- that were forwarded, each with its channel
  entered : List ℕ
  removed : List ℕ
  forwarded : List (ℕ × ℕ)

/-- The session makes a subscription and then enqueues the `SUBACK`; what it enqueues is lost
without room in the outbound channel. Other connections take ids as well, and publish.
`emit` is for the frames that answer nothing. -/
inductive Event (M : Type) where
  | client (event : ClientTasks.Event M)
  | serve (accepted room : Bool)
  | ack (room : Bool)
  | elsewhere
  | deliver (subId : ℕ) (message : M)
  | emit (frame : Inbound M)
  | read

def enters : Stage → Option ℕ
  | .entering _ subId _ _ => some subId
  | _ => none

def removes : Stage → Option ℕ
  | .removing subId _ => some subId
  | _ => none

def plain : Inbound M → Bool
  | .ping => true
  | .other => true
  | _ => false

namespace Link

def start (opts : Options) : Link M := ⟨.start opts, 0, 1, ∅, none, [], 0, [], [], []⟩

def conn (l : Link M) : Connection M := l.client.state.conn

def enqueue (l : Link M) (room : Bool) (frame : Inbound M) (early : Bool) : Link M :=
  if room then { l with enqueued := l.enqueued ++ [⟨frame, early⟩] } else l

def next (l : Link M) : Option Sent :=
  if l.served < l.conn.written then l.conn.sent[l.served]? else none

def serve (l : Link M) (accepted room : Bool) : Link M :=
  if l.acking.isSome then l
  else match l.next with
    | none => l
    | some (.sub corrId channel) =>
      if accepted then
        { l with
          served := l.served + 1
          nextId := l.nextId + 1
          created := l.created.insert l.nextId (corrId, channel)
          acking := some (corrId, l.nextId) }
      else { l with served := l.served + 1 }
    | some (.ping _) => { l with served := l.served + 1 }.enqueue room (.pong 0) false
    | some _ => { l with served := l.served + 1 }

def ack (l : Link M) (room : Bool) : Link M :=
  match l.acking with
  | none => l
  | some (corrId, subId) => { l with acking := none }.enqueue room (.suback corrId subId) false

def deliver (l : Link M) (subId : ℕ) (message : M) : Link M :=
  match l.created.lookup subId with
  | none => l
  | some _ => l.enqueue true (.msg subId message) (decide (.unsub subId ∉ l.conn.sent))

def read (opts : Options) (l : Link M) : Link M :=
  match l.enqueued[l.taken]? with
  | none => l
  | some item =>
    if l.client.state.reading then
      { l with
        client := l.client.step opts (.net (.read item.frame))
        taken := l.taken + 1 }
    else l

def moved (l : Link M) (i : ℕ) (stage : Stage) (state : ClientState M) (stage' : Stage) : Link M :=
  { l with
    client := ⟨state, l.client.stages.set i stage'⟩
    entered := l.entered ++ (enters stage).toList
    removed := l.removed ++ (removes stage).toList }

def advance (opts : Options) (l : Link M) (i : ℕ) (choice : Choice) : Link M :=
  match l.client.next (program opts) i choice with
  | none => l
  | some (stage, state, stage') => l.moved i stage state stage'

def act (opts : Options) (l : Link M) : ClientTasks.Event M → Link M
  | .advance _ .accepted => l
  | .advance i choice => l.advance opts i choice
  | .net (.read _) => l
  | .net .forward =>
    { l with
      client := l.client.step opts (.net .forward)
      forwarded := l.forwarded ++
        ((l.client.state.passing opts).map (l.taken - 1, ·)).toList }
  | event => { l with client := l.client.step opts event }

def step (opts : Options) (l : Link M) : Event M → Link M
  | .client event => l.act opts event
  | .serve accepted room => l.serve accepted room
  | .ack room => l.ack room
  | .elsewhere => { l with nextId := l.nextId + 1 }
  | .deliver subId message => l.deliver subId message
  | .emit frame => if plain frame then l.enqueue true frame false else l
  | .read => l.read opts

def run (opts : Options) (l : Link M) (events : List (Event M)) : Link M :=
  events.foldl (step opts) l

end Link

theorem act_cases {opts : Options} {l : Link M} {motive : Link M → Prop}
    (event : ClientTasks.Event M) (same : motive l)
    (requests : ∀ r stage, l.client.first opts r = some stage →
      motive { l with client := { l.client with stages := l.client.stages ++ [stage] } })
    (cancels : ∀ (i : ℕ) stage, l.client.stages[i]? = some stage →
      motive { l with client :=
        ⟨{ l.client.state with dropped := l.client.state.dropped ++ stage.unclaimed.toList },
          l.client.stages.set i (.returned .cancelled)⟩ })
    (moves : ∀ i choice stage state stage', choice ≠ .accepted →
      l.client.next (program opts) i choice = some (stage, state, stage') →
      motive (l.moved i stage state stage'))
    (nets : ∀ event, (∀ frame, event ≠ .read frame) → motive (l.act opts (.net event))) :
    motive (l.act opts event) := by
  cases event with
  | request r =>
    change motive { l with client := l.client.request opts r }
    rw [Client.request]
    split
    · exact same
    · rename_i stage first
      split_ifs
      exacts [same, requests r stage first]
  | cancel i =>
    change motive { l with client := l.client.cancel opts i }
    rw [Client.cancel]
    split
    · exact same
    · rename_i stage found
      split_ifs
      exacts [same, cancels i stage found]
  | advance i choice =>
    have goes (chosen : choice ≠ .accepted) : motive (l.advance opts i choice) := by
      rw [Link.advance]
      cases step : l.client.next (program opts) i choice with
      | none => exact same
      | some result => exact moves i choice _ _ _ chosen step
    cases choice with
    | accepted => exact same
    | go | expire | refused | visit order => exact goes (by simp)
  | net event =>
    cases event with
    | read frame => exact same
    | _ => exact nets _ (by simp)

theorem act_net {opts : Options} (l : Link M) {event : Net M}
    (local_ : ∀ frame, event ≠ .read frame) (other : event ≠ .forward) :
    l.act opts (.net event) =
      { l with client := { l.client with state := l.client.state.net opts event } } := by
  cases event with
  | read frame => exact absurd rfl (local_ frame)
  | forward => exact absurd rfl other
  | _ => rfl

theorem step_advance {opts : Options} {l : Link M} {i : ℕ} {stage stage' : Stage}
    {s' : ClientState M}
    (step : l.client.next (program opts) i .go = some (stage, s', stage')) :
    l.step opts (.client (.advance i .go)) = l.moved i stage s' stage' := by
  change l.advance opts i .go = _
  rw [Link.advance, step]

theorem enqueue_client (l : Link M) (room early : Bool) (frame : Inbound M) :
    (l.enqueue room frame early).client = l.client := by
  rw [Link.enqueue]
  split_ifs <;> rfl

/-- What an event can do to a link, with the guards that it has passed. -/
inductive Stepped (opts : Options) (l : Link M) : Event M → Link M → Prop
  | rests (event : Event M) : Stepped opts l event l
  | acts (event : ClientTasks.Event M) : Stepped opts l (.client event) (l.act opts event)
  | creates (room : Bool) {corrId channel : ℕ} (next : l.next = some (.sub corrId channel)) :
    Stepped opts l (.serve true room) { l with
      served := l.served + 1
      nextId := l.nextId + 1
      created := l.created.insert l.nextId (corrId, channel)
      acking := some (corrId, l.nextId) }
  | answers (accepted room : Bool) {corrId : ℕ} (next : l.next = some (.ping corrId)) :
    Stepped opts l (.serve accepted room)
      ({ l with served := l.served + 1 }.enqueue room (.pong 0) false)
  | skips (accepted room : Bool) {frame : Sent} (next : l.next = some frame) :
    Stepped opts l (.serve accepted room) { l with served := l.served + 1 }
  | acks (room : Bool) {corrId subId : ℕ} (acking : l.acking = some (corrId, subId)) :
    Stepped opts l (.ack room)
      ({ l with acking := none }.enqueue room (.suback corrId subId) false)
  | elsewhere : Stepped opts l .elsewhere { l with nextId := l.nextId + 1 }
  | delivers {subId : ℕ} (message : M) {sub : ℕ × ℕ} (known : l.created.lookup subId = some sub) :
    Stepped opts l (.deliver subId message)
      (l.enqueue true (.msg subId message) (decide (.unsub subId ∉ l.conn.sent)))
  | emits {frame : Inbound M} (isPlain : plain frame = true) :
    Stepped opts l (.emit frame) (l.enqueue true frame false)
  | reads {item : Enqueued M} (known : l.enqueued[l.taken]? = some item)
    (reading : l.client.state.reading = true) :
    Stepped opts l .read { l with
      client := l.client.step opts (.net (.read item.frame))
      taken := l.taken + 1 }

theorem stepped (opts : Options) (l : Link M) (event : Event M) :
    Stepped opts l event (l.step opts event) := by
  cases event with
  | client event => exact .acts event
  | serve accepted room =>
    rw [Link.step, Link.serve]
    by_cases busy : l.acking.isSome = true
    · rw [if_pos busy]
      exact .rests _
    · rw [if_neg busy]
      split
      · exact .rests _
      · rename_i next
        cases accepted
        exacts [.skips _ _ next, .creates _ next]
      · rename_i next
        exact .answers _ _ next
      · rename_i next
        exact .skips _ _ next
  | ack room =>
    rw [Link.step, Link.ack]
    split
    · exact .rests _
    · rename_i acking
      exact .acks room acking
  | elsewhere => exact .elsewhere
  | deliver subId message =>
    rw [Link.step, Link.deliver]
    split
    · exact .rests _
    · rename_i known
      exact .delivers message known
  | emit frame =>
    rw [Link.step]
    split_ifs with isPlain
    exacts [.emits isPlain, .rests _]
  | read =>
    rw [Link.step, Link.read]
    split
    · exact .rests _
    · rename_i known
      split_ifs with reading
      exacts [.reads known reading, .rests _]

end ZetMQ.ClientLink
