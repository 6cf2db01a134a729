import Coordination.World

namespace Coordination

-- What the dispatch loop does next.
inductive Loop where
  | popping
  -- The event that was taken is dispatched.
  | holding (event : Event)
  -- After an event: does the connection run?
  | asking
  -- It does not: is anything queued?
  | looking
  | stopped
  deriving DecidableEq

def Loop.hand : Loop → List Event
  | holding e => [e]
  | _ => []

-- What the closing thread has done.
inductive Stage where
  | running
  -- The connection is no longer running.
  | lowered
  -- The marker is on the stream.
  | woken
  -- The delivery loop has been waited for.
  | joined
  -- The marker is in the queue.
  | marked
  -- The dispatch loop has been waited for, and the backend is released.
  | returned
  deriving DecidableEq

structure Pipeline (η : Type) where
  connection : Connection (Faulty Memory) η
  -- The event that the delivery loop has read and not queued yet.
  hand : Option Event := none
  loop : Loop := .popping
  stage : Stage := .running
  -- All events put on the stream so far, and those put there before the marker.
  emitted : List Event := []
  due : List Event := []
  dispatched : List Event := []
  -- The events queued since the dispatch loop stopped.
  late : List Event := []
  -- The events that the delivery loop left on the stream in front of the marker.
  abandoned : List Event := []

def Item.events (items : List Item) : List Event :=
  items.filterMap event?

-- The events in front of the marker; none once the marker is gone.
def Item.ahead : List Item → List Event
  | [] => []
  | .shutdown :: _ => []
  | .event e :: rest => if .shutdown ∈ rest then e :: ahead rest else []

namespace Pipeline

variable {η : Type}

inductive Move (η : Type)
  -- The backend has an event, or its stream breaks off.
  | emit (event : Event)
  | cut (failure : Error)
  -- Handlers are registered or forgotten.
  | register (f : Registry η → Registry η)
  -- The delivery loop.
  | receive
  | push
  -- The dispatch loop. Handlers return at once.
  | pop
  | dispatch (outcome : Outcome)
  | ask
  | look
  -- The closing thread.
  | close

def stream (p : Pipeline η) : List Item :=
  p.connection.backend.inner.channel.getD []

def queued (p : Pipeline η) : List Item :=
  (p.connection.queue.map Queue.toList).getD []

def receive (p : Pipeline η) : Pipeline η :=
  if p.connection.delivering && p.hand.isNone then
    match Backend.next p.connection.backend with
    | none => p
    | some (.ok (.event e), backend) => { p with connection.backend := backend, hand := some e }
    | some (_, backend) =>
      { p with connection := { p.connection with backend := backend, delivering := false } }
  else p

def push (p : Pipeline η) : Pipeline η :=
  match p.hand with
  | none => p
  | some e =>
    { p with
      connection := (p.connection.enqueue (.event e)).1
      hand := none
      late := if p.loop = .stopped then p.late ++ [e] else p.late }

def pop (p : Pipeline η) : Pipeline η :=
  match p.loop, p.connection.queue with
  | .popping, some q =>
    match q.pop with
    | (none, _) => p
    | (some (.event e), q) => { p with connection.queue := some q, loop := .holding e }
    | (some .shutdown, q) => { p with connection.queue := some q, loop := .stopped }
  | _, _ => p

def dispatch (outcome : Outcome) (p : Pipeline η) : Pipeline η :=
  match p.loop with
  | .holding e =>
    { p with
      connection.dispatcher :=
        match p.connection.dispatcher.start e with
        | (none, d) => d
        | (some i, d) => d.finish i outcome
      loop := .asking
      dispatched := p.dispatched ++ [e] }
  | _ => p

def ask (p : Pipeline η) : Pipeline η :=
  match p.loop with
  | .asking => { p with loop := if p.connection.running then .popping else .looking }
  | _ => p

def look (p : Pipeline η) : Pipeline η :=
  match p.loop with
  | .looking => { p with loop := if p.queued.isEmpty then .stopped else .popping }
  | _ => p

def close (p : Pipeline η) : Pipeline η :=
  match p.stage with
  | .running => { p with connection.running := false, stage := .lowered }
  | .lowered =>
    { p with
      connection.backend := Backend.wake p.connection.backend
      stage := .woken
      due := p.emitted }
  | .woken =>
    if p.connection.delivering then p
    else { p with stage := .joined, abandoned := Item.ahead p.stream }
  | .joined => { p with connection := (p.connection.enqueue .shutdown).1, stage := .marked }
  | .marked =>
    if p.loop = .stopped then
      { p with connection := p.connection.release.2.1, stage := .returned }
    else p
  | .returned => p

def step (p : Pipeline η) : Move η → Pipeline η
  | .emit event =>
    { p with
      connection.backend.inner := p.connection.backend.inner.emit event
      emitted := p.emitted ++ [event] }
  | .cut failure =>
    if p.connection.delivering then { p with connection.backend.cut := some failure } else p
  | .register f => { p with connection := p.connection.withRegistry f }
  | .receive => p.receive
  | .push => p.push
  | .pop => p.pop
  | .dispatch outcome => p.dispatch outcome
  | .ask => p.ask
  | .look => p.look
  | .close => p.close

def run (p : Pipeline η) (moves : List (Move η)) : Pipeline η :=
  moves.foldl step p

-- A session has just been started; its first events may be on the stream.
def opened (target : Target) (config : Config) (m : Memory) (global : Entry η)
    (timeout : Duration) : Pipeline η :=
  let idle := Connection.new target config ({ inner := m } : Faulty Memory) global
  let c := (idle.start timeout).2.1
  { connection := c, emitted := Item.events (c.backend.inner.channel.getD []) }

-- Undisturbed, the two steps of the delivery loop are one delivery.
theorem receive_push {p : Pipeline η} (h : p.hand = none) :
    ((p.step .receive).step .push).connection =
      (p.connection.deliverOne.map Prod.fst).getD p.connection := by
  simp only [step, receive, h, Option.isNone_none, Bool.and_true, Connection.deliverOne]
  cases p.connection.delivering
  case false => simp [push, h]
  case true =>
    simp only [if_true, Bool.not_true, Bool.false_eq_true, if_false]
    rcases Backend.next p.connection.backend with _ | ⟨_ | ⟨_ | _⟩, _⟩ <;> simp [push, h]

-- Undisturbed, the two questions of the dispatch loop are one.
theorem ask_look {p : Pipeline (Callback Receiver)} {w : World} {t : Thread}
    (hw : w.connection = p.connection) (ht : t.leftover = none) (hl : p.loop = .asking) :
    ((p.step .ask).step .look).loop = if w.goesOn t then .popping else .stopped := by
  simp only [step, ask, hl, World.goesOn, World.waiting, ht, hw]
  cases p.connection.running
  case true  => simp [look]
  case false => cases h : p.queued.isEmpty <;> simp_all [look, queued]

end Pipeline
end Coordination
