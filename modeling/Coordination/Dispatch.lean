import Coordination.Log
import Coordination.Registry

namespace Coordination

inductive CallKind where
  -- With the answer to its request.
  | completion
  -- As the watcher of its request.
  | watch
  -- With a session notice, while its request still waits for the answer.
  | session
  deriving DecidableEq, Repr, Inhabited

namespace CallKind

def name : CallKind → String
  | completion => "completion"
  | watch => "watch"
  | session => "session"

end CallKind

inductive Outcome where
  | ok
  | failed (error : String)
  | panicked (panic : String)
  deriving DecidableEq, Repr, Inhabited

-- A handler about to run or running.
structure Invocation (η : Type) where
  kind : CallKind
  event : Event
  entry : Entry η

structure Counters where
  dispatchedCompletion : Nat := 0
  dispatchedWatch : Nat := 0
  dispatchedSession : Nat := 0
  orphanCompletion : Nat := 0
  orphanWatch : Nat := 0
  failureError : Nat := 0
  failurePanic : Nat := 0
  rearmWatch : Nat := 0
  rearmCompletion : Nat := 0
  deriving DecidableEq, Repr, Inhabited

namespace Counters

def dispatched (kind : CallKind) (c : Counters) : Counters :=
  match kind with
  | .completion => { c with dispatchedCompletion := c.dispatchedCompletion + 1 }
  | .watch => { c with dispatchedWatch := c.dispatchedWatch + 1 }
  | .session => { c with dispatchedSession := c.dispatchedSession + 1 }

def orphan (event : Event) (c : Counters) : Counters :=
  match event with
  | .completion _ => { c with orphanCompletion := c.orphanCompletion + 1 }
  | .watch _ => { c with orphanWatch := c.orphanWatch + 1 }

def ended (kind : CallKind) (outcome : Outcome) (c : Counters) : Counters :=
  match outcome with
  | .ok => c.dispatched kind
  | .failed _ => { c with failureError := c.failureError + 1 }
  | .panicked _ => { c with failurePanic := c.failurePanic + 1 }

-- The labelled values, in a fixed order.
def toList (c : Counters) : List (String × Nat) := [
  ("dispatched.completion", c.dispatchedCompletion),
  ("dispatched.watch", c.dispatchedWatch),
  ("dispatched.session", c.dispatchedSession),
  ("orphan.completion", c.orphanCompletion),
  ("orphan.watch", c.orphanWatch),
  ("failure.error", c.failureError),
  ("failure.panic", c.failurePanic),
  ("rearm.watch", c.rearmWatch),
  ("rearm.completion", c.rearmCompletion)]

end Counters

structure Dispatcher (η : Type) where
  registry : Registry η
  counters : Counters

namespace Dispatcher

variable {η : Type}

-- Finds the entry an event is for. A session notice for a request without a watcher goes to the
-- completion, which is looked at only.
def route (event : Event) (r : Registry η) : Option (CallKind × Entry η) × Registry η :=
  match event with
  | .completion c =>
    let (entry, r) := r.resolveCompletion c.id
    (entry.map (CallKind.completion, ·), r)
  | .watch w =>
    match r.resolveWatcher w.id w.type with
    | (some entry, r) => (some (.watch, entry), r)
    | (none, r) =>
      if w.type.isSession then ((r.peekCompletion w.id).map (CallKind.session, ·), r)
      else (none, r)

-- The first half of a dispatch: the handler to run, or `none` for an orphan.
def start (event : Event) (d : Dispatcher η) : Option (Invocation η) × Dispatcher η :=
  match route event d.registry with
  | (some (kind, entry), registry) => (some ⟨kind, event, entry⟩, { d with registry := registry })
  | (none, registry) => (none, ⟨registry, d.counters.orphan event⟩)

-- Puts the entry back that a session notice was handed to.
def rearm (i : Invocation η) (d : Dispatcher η) : Dispatcher η :=
  match i.kind with
  | .completion => d
  | .watch =>
    if i.event.isSession && !i.event.id.isGlobal then
      { registry := d.registry.restoreWatcher i.event.id i.entry
        counters := { d.counters with rearmWatch := d.counters.rearmWatch + 1 } }
    else d
  | .session =>
    { registry := d.registry.restoreCompletion i.event.id i.entry
      counters := { d.counters with rearmCompletion := d.counters.rearmCompletion + 1 } }

-- The second half of a dispatch, when the handler has ended.
def finish (i : Invocation η) (outcome : Outcome) (d : Dispatcher η) : Dispatcher η :=
  { d with counters := d.counters.ended i.kind outcome }.rearm i

end Dispatcher

def Event.orphanRecord (event : Event) : Record where
  level := .warn
  message := "Duplicate or unhandled event, dropping"
  fields := [
    ("req_id", toString event.id.number),
    ("kind", if event.isCompletion then "completion" else "watch"),
    ("path", event.path.getD "")]

def Invocation.record? {η : Type} (i : Invocation η) : Outcome → Option Record
  | .ok => none
  | .failed e => some ⟨.error, "handler returned an error",
      [("req_id", toString i.event.id.number), ("kind", i.kind.name), ("error", e)]⟩
  | .panicked p => some ⟨.error, "handler panicked",
      [("req_id", toString i.event.id.number), ("kind", i.kind.name), ("panic", p)]⟩

end Coordination
