import Coordination.Answer
import Coordination.Backend.Faults
import Coordination.Backend.Memory

namespace Coordination

inductive ServiceStep where
  | init (target : String) (timeout : Duration)
  -- Wakes the reader of the stream and reads to the marker.
  | drain
  | call (id : RequestId) (call : Call)
  | setState (state : ConnectionState)
  | inject (event : Event)
  | hold (on : Bool)
  | release (id : RequestId)
  | releaseAll
  | held
  | calls
  | nodeData (path : String)
  | connectOnInit (on : Bool)
  | wake
  | closeHandle
  | handleClosed
  | state
  | session
  deriving Inhabited

namespace Memory

-- The events at the head of the stream, and how it goes on: with a marker, or with a failure.
def readStream : Nat → Memory → List Event × Except Error Unit × Memory
  | 0, m => ([], .ok (), m)
  | n + 1, m =>
    match m.next with
    | none => ([], .ok (), m)
    | some (.error e, m) => ([], .error e, m)
    | some (.ok .shutdown, m) => ([], .ok (), m)
    | some (.ok (.event e), m) =>
      let (events, ending, m) := readStream n m
      (e :: events, ending, m)

def drain (m : Memory) : List Event × Except Error Unit × Memory :=
  let m := m.send .shutdown
  m.readStream (Backend.backlog m + 1)

def perform (step : ServiceStep) (m : Memory) : Answer × Memory :=
  match step with
  | .init target timeout =>
    match Target.parse target with
    | .error e => (.done (.error e), m)
    | .ok target =>
      let (result, m) := Backend.init target timeout m
      (.done result, m)
  | .drain =>
    let (events, ending, m) := m.drain
    (.stream events ending, m)
  | .call id call =>
    let (result, m) := m.issue id call
    (.result result, m)
  | .setState state => (.nothing, m.setState state)
  | .inject event => (.nothing, m.emit event)
  | .hold on => (.nothing, { m with holding := on })
  | .release id =>
    let (found, m) := m.release id
    (.flag found, m)
  | .releaseAll =>
    let (n, m) := m.releaseAll
    (.count n, m)
  | .held => (.count m.held.length, m)
  | .calls => (.calls m.calls, m)
  | .nodeData path => (.data (m.nodeData path), m)
  | .connectOnInit on => (.nothing, { m with connectOnInit := on })
  | .wake => (.nothing, m.send .shutdown)
  | .closeHandle => (.done (.ok ()), m.close)
  | .handleClosed => (.flag m.handleClosed, m)
  | .state => (.state m.state, m)
  | .session => (.session m.session, m)

def performAll : List ServiceStep → Memory → List Answer
  | [], _ => []
  | step :: rest, m =>
    let (answer, m) := m.perform step
    answer :: performAll rest m

end Memory

namespace Faulty

-- Steps reach the service as they are, but calls go through what can be made to fail.
def perform (step : ServiceStep) (f : Faulty Memory) : Answer × Faulty Memory :=
  match step with
  | .call id call =>
    let (result, f) := f.issue id call
    (.result result, f)
  | step =>
    let (answer, inner) := f.inner.perform step
    (answer, { f with inner := inner })

end Faulty
end Coordination
