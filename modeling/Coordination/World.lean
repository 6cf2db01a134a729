import Coordination.Replies

namespace Coordination

-- An operation that an activation has begun and that has not been answered yet.
inductive Pending where
  -- The handler of a dispatched event runs.
  | dispatching
  -- Events are taken from the queue: how many more at most, how many so far, and whether the answer
  -- is a count or only tells whether there was one.
  | draining (left taken : Nat) (single : Bool)
  -- The connection is closing, to be opened again with a timeout or to stay closed.
  | closing (reopen : Option Duration)

-- Instructions under way: a handler's, or a single one of the application when there is no
-- invocation.
structure Activation where
  invocation : Option (Invocation (Callback Receiver))
  label : String
  script : List Instruction
  pending : Option Pending := none

structure Thread where
  number : Nat
  -- The handlers under way, the innermost first.
  frames : List Activation
  -- What is left of the queue of its session, once that is over; `none` while it reads the queue of
  -- the connection.
  leftover : Option (List Item)
  blocked : Bool

-- Who runs an activation.
inductive Party where
  | application
  | thread (number : Nat)
  deriving DecidableEq, Repr, Inhabited

namespace Party

def source : Party → Source
  | application => .application
  | thread _ => .dispatch

end Party

-- The party that is closing the connection waits for the dispatch thread.
structure Closing where
  party : Party
  -- Blocked threads are released while it waits.
  unblocking : Bool

structure World where
  connection : Connection (Faulty Memory) (Callback Receiver)
  application : List Activation := []
  -- The dispatch threads that have not stopped, the oldest first.
  threads : List Thread := []
  nextThread : Nat := 0
  closing : Option Closing := none
  -- The pipes of earlier sessions' queues, in order.
  pipes : List Pipe := []
  -- The session whose pipe each handle reads, counted like `pipes`.
  handles : List Nat := []
  -- The replies waited for, by number.
  replies : Replies := []
  -- The numbers of the replies that the application can still ask for, by name.
  slots : List (String × Nat) := []
  notes : List Note := []
  log : Log := []
  answer : Option Answer := none

namespace World

def ofConnection (c : Connection (Faulty Memory) (Callback Receiver)) : World :=
  { connection := c }

def registry (w : World) : Registry (Callback Receiver) :=
  w.connection.registry

def withRegistry (f : Registry (Callback Receiver) → Registry (Callback Receiver)) (w : World) :
    World :=
  { w with connection := w.connection.withRegistry f }

def withBackend (f : Faulty Memory → Faulty Memory) (w : World) : World :=
  { w with connection.backend := f w.connection.backend }

def counters (w : World) : Counters :=
  w.connection.dispatcher.counters

def record (source : Source) (records : List Record) (w : World) : World :=
  { w with log := w.log ++ records.map (source, ·) }

def note (n : Note) (w : World) : World :=
  { w with notes := w.notes ++ [n] }

-- Forgets what the last step left to be read.
def cleared (w : World) : World :=
  { w with
    notes := []
    log := []
    answer := none
    connection.dispatcher.counters := {} }

def thread? (number : Nat) (w : World) : Option Thread :=
  w.threads.find? (·.number = number)

-- The dispatch thread of the current session.
def current (w : World) : Option Thread :=
  w.threads.find? (·.leftover.isNone)

def modifyThread (number : Nat) (f : Thread → Thread) (w : World) : World :=
  { w with threads := w.threads.map fun t => if t.number = number then f t else t }

def removeThread (number : Nat) (w : World) : World :=
  { w with threads := w.threads.filter (·.number ≠ number) }

def spawn (w : World) : World :=
  { w with
    threads := w.threads ++ [⟨w.nextThread, [], none, false⟩]
    nextThread := w.nextThread + 1 }

def unblock (w : World) : World :=
  { w with threads := w.threads.map ({ · with blocked := false }) }

def frames (p : Party) (w : World) : List Activation :=
  match p with
  | .application => w.application
  | .thread n => ((w.thread? n).map Thread.frames).getD []

def setFrames (p : Party) (fs : List Activation) (w : World) : World :=
  match p with
  | .application => { w with application := fs }
  | .thread n => w.modifyThread n ({ · with frames := fs })

-- What a dispatch thread has not taken from its queue yet.
def waiting (t : Thread) (w : World) : List Item :=
  match t.leftover with
  | some items => items
  | none => (w.connection.queue.map Queue.toList).getD []

def pop (t : Thread) (w : World) : Option Item × World :=
  match t.leftover with
  | some [] => (none, w)
  | some (item :: rest) => (some item, w.modifyThread t.number ({ · with leftover := some rest }))
  | none =>
    match w.connection.queue with
    | none => (none, w)
    | some q =>
      let (item, q) := q.pop
      (item, { w with connection.queue := some q })

-- The loop of a dispatch thread goes on while the connection runs or items are left.
def goesOn (t : Thread) (w : World) : Bool :=
  w.connection.running || !(w.waiting t).isEmpty

def pipe? (slot : Nat) (w : World) : Option Pipe :=
  match w.handles[slot]? with
  | none => none
  | some session =>
    match w.pipes[session]? with
    | some p => some p
    | none => w.connection.queue.map Queue.pipe

def setPipe (slot : Nat) (p : Pipe) (w : World) : World :=
  match w.handles[slot]? with
  | none => w
  | some session =>
    if session < w.pipes.length then { w with pipes := w.pipes.set session p }
    else { w with connection.queue := w.connection.queue.map ({ · with pipe := p }) }

-- Asks for the reply under a name. Once it is there, or can no longer come, the name is gone.
def askFor (slot : String) (w : World) : Awaited × World :=
  match w.slots.find? (·.1 = slot) with
  | none => (.noSlot, w)
  | some (_, number) =>
    match w.replies.ask number w.registry with
    | .settled result => (.settled result, { w with slots := w.slots.filter (·.1 ≠ slot) })
    | awaited => (awaited, w)

def info (asker : Party) (w : World) : Info where
  running := w.connection.running
  closed := w.connection.closed
  state := w.connection.state
  session := w.connection.session
  backendSession := Backend.session w.connection.backend
  target := w.connection.target
  config := w.connection.config
  description := w.connection.describe
  dispatchState :=
    match asker with
    | .application => some (if w.current.isSome && w.closing.isNone then .draining else .stopped)
    | .thread _ => none

end World
end Coordination
