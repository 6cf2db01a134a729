import Coordination.Queue

namespace Coordination

inductive QueueStep where
  | push (event : Event) (times : Nat)
  -- Pushes watch events tagged with consecutive numbers.
  | pushIds (start : Int) (times : Nat)
  | pop (blocking : Bool)
  -- Pops up to a number of events and tells the first and the last tag.
  | popIds (max : Nat)
  | handle
  | consume (slot max : Nat)
  | ready (slot : Nat)
  | setClearReads (on : Bool)
  | close
  | describe
  deriving Inhabited

inductive QueueAnswer where
  | nothing
  | event (value : Option Event)
  -- Waiting on an empty queue would never end.
  | wouldBlock
  | ids (count : Nat) (first last : Option RequestId)
  | slot (value : Option Nat)
  | noHandle
  | count (value : Nat)
  | flag (value : Bool)
  | text (value : String)
  deriving Inhabited

-- A queue, the number of handles handed out, and the records written in the last step.
structure QueueBench where
  queue : Queue
  handles : Nat := 0
  records : List Record := []

namespace QueueBench

def push (event : Event) (b : QueueBench) : QueueBench :=
  { b with
    queue := b.queue.push (.event event)
    records := if b.queue.warns then b.records ++ [Pipe.fullRecord] else b.records }

def pushAll (events : List Event) (b : QueueBench) : QueueBench :=
  events.foldl (fun b e => b.push e) b

-- Pops until the queue is empty, but at most `n` times; the tags popped come latest first.
def popTags : Nat → List RequestId → QueueBench → List RequestId × QueueBench
  | 0, tags, b => (tags, b)
  | n + 1, tags, b =>
    match b.queue.popEvent with
    | (none, q) => (tags, { b with queue := q })
    | (some e, q) => popTags n (e.id :: tags) { b with queue := q }

def perform (step : QueueStep) (b : QueueBench) : QueueAnswer × QueueBench :=
  let b := { b with records := [] }
  match step with
  | .push event times => (.nothing, b.pushAll (List.replicate times event))
  | .pushIds start times =>
    let event (i : Nat) : Event := .watch ⟨⟨start + i⟩, .changed, .connected, none⟩
    (.nothing, b.pushAll ((List.range times).map event))
  | .pop blocking =>
    if blocking && b.queue.isEmpty then (.wouldBlock, b)
    else
      let (event, q) := b.queue.popEvent
      (.event event, { b with queue := q })
  | .popIds max =>
    let (tags, b) := b.popTags max []
    (.ids tags.length tags.getLast? tags.head?, b)
  | .handle =>
    match b.queue.handOut with
    | (true, q) => (.slot (some b.handles), { b with queue := q, handles := b.handles + 1 })
    | (false, q) => (.slot none, { b with queue := q })
  | .consume slot max =>
    if slot < b.handles then
      let (n, pipe) := b.queue.pipe.consumeUpTo max
      (.count n, { b with queue := { b.queue with pipe := pipe } })
    else (.noHandle, b)
  | .ready slot =>
    (if slot < b.handles then .flag b.queue.pipe.isReadable else .noHandle, b)
  | .setClearReads on => (.nothing, { b with queue := b.queue.setClearReads on })
  | .close => (.nothing, { b with queue := b.queue.close })
  | .describe => (.text b.queue.describe, b)

def performAll : List QueueStep → QueueBench → List (QueueAnswer × QueueBench)
  | [], _ => []
  | step :: rest, b =>
    let (answer, b) := b.perform step
    (answer, b) :: performAll rest b

end QueueBench
end Coordination
