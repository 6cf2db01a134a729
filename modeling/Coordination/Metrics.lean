namespace Coordination

inductive CollectorKind where
  | counter
  | gauge
  deriving DecidableEq, Repr, Inhabited

namespace CollectorKind

def name : CollectorKind → String
  | counter => "counter"
  | gauge => "gauge"

end CollectorKind

structure Collector where
  name : String
  help : String
  kind : CollectorKind
  labels : List String
  deriving DecidableEq, Repr, Inhabited

namespace Collector

-- All collectors, in the order of their names.
def all : List Collector := [
  ⟨"dispatched_events", "Events handed to a completion or watcher handler", .counter, ["kind"]⟩,
  ⟨"event_queue_depth", "Events waiting for the dispatch thread", .gauge, []⟩,
  ⟨"handler_failures", "Handlers that returned an error or panicked", .counter, ["reason"]⟩,
  ⟨"orphan_events", "Events without a registered handler", .counter, ["kind"]⟩,
  ⟨"session_rearms", "Entries restored after delivering a session event", .counter, ["kind"]⟩]

def published (lead : Option String) (c : Collector) : Collector :=
  match lead with
  | some lead => { c with name := lead ++ "_" ++ c.name }
  | none => c

end Collector

-- A place to publish collectors, with a word in front of their names.
structure Gatherer where
  lead : Option String
  collectors : List Collector := []

namespace Gatherer

def register (g : Gatherer) : Except String Gatherer :=
  if g.collectors.isEmpty then .ok { g with collectors := Collector.all.map (·.published g.lead) }
  else .error "Duplicate metrics collector registration attempted"

def registerTimes : Nat → Gatherer → List (Option String) × Gatherer
  | 0, g => ([], g)
  | n + 1, g =>
    match g.register with
    | .ok g =>
      let (rest, g) := registerTimes n g
      (none :: rest, g)
    | .error e =>
      let (rest, g) := registerTimes n g
      (some e :: rest, g)

end Gatherer
end Coordination
