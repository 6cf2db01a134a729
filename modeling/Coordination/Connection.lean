import Coordination.Backend
import Coordination.Config
import Coordination.Dispatch
import Coordination.Queue

namespace Coordination

structure Connection (β η : Type) where
  target : Target
  config : Config
  -- The watcher of the whole session, installed whenever one is started.
  global : Entry η
  dispatcher : Dispatcher η
  backend : β
  running : Bool
  closed : Bool
  -- The queue of the current session.
  queue : Option Queue
  -- Whether the stream of the backend is being read.
  delivering : Bool

namespace Connection

variable {β η : Type} [Backend β]

def new (target : Target) (config : Config) (backend : β) (global : Entry η) :
    Connection β η where
  target := target
  config := config
  global := global
  dispatcher := ⟨.empty, {}⟩
  backend := backend
  running := false
  closed := true
  queue := none
  delivering := false

def registry (c : Connection β η) : Registry η :=
  c.dispatcher.registry

def withRegistry (f : Registry η → Registry η) (c : Connection β η) : Connection β η :=
  { c with dispatcher.registry := f c.dispatcher.registry }

def state (c : Connection β η) : ConnectionState :=
  if c.closed then .closed else Backend.state c.backend

def isConnected (c : Connection β η) : Bool :=
  c.state == .connected

def session (c : Connection β η) : Option SessionInfo :=
  if c.closed then none else Backend.session c.backend

def assertOpen (c : Connection β η) : Except Error Unit :=
  if !c.running || c.closed then .error .shuttingDown
  else
    match Backend.state c.backend with
    | .connected => .ok ()
    | .expiredSession => .error .sessionExpired
    | _ => .error .notConnected

def describe (c : Connection β η) : String :=
  "Connection \x7b target: " ++ c.target.describe ++ ", running: " ++ toString c.running ++
    ", closed: " ++ toString c.closed ++ ", .. \x7d"

def enqueue (item : Item) (c : Connection β η) : Connection β η × List Record :=
  match c.queue with
  | none => (c, [])
  | some q =>
    ({ c with queue := some (q.push item) }, if q.warns then [Pipe.fullRecord] else [])

-- Moves the next item of the stream to the queue; the marker and a failure end the delivery. `none`
-- while there is nothing to do.
def deliverOne (c : Connection β η) : Option (Connection β η × List Record) :=
  if !c.delivering then none
  else
    match Backend.next c.backend with
    | none => none
    | some (.ok (.event e), backend) => some ({ c with backend := backend }.enqueue (.event e))
    | some (.ok .shutdown, backend) =>
      some ({ c with backend := backend, delivering := false }, [])
    | some (.error e, backend) =>
      some ({ c with backend := backend, delivering := false },
        if e.isHandleClosed then []
        else [⟨.error, "backend failed to deliver events", [("error", e.message)]⟩])

def deliverUpTo : Nat → Connection β η → Connection β η × List Record
  | 0, c => (c, [])
  | n + 1, c =>
    match c.deliverOne with
    | none => (c, [])
    | some (c, records) =>
      let (c, more) := deliverUpTo n c
      (c, records ++ more)

def deliver (c : Connection β η) : Connection β η × List Record :=
  deliverUpTo (Backend.backlog c.backend + 1) c

def droppedRecord (cleared : Cleared) : Record :=
  ⟨.info, "dropped registrations of the previous session",
    [("watchers", toString cleared.watchers), ("completions", toString cleared.completions)]⟩

def lateRecord (c : Connection β η) (state : ConnectionState) (timeout : Duration) : Record :=
  ⟨.warn, "session not connected after open timeout",
    [("target", c.target.raw), ("state", state.name), ("timeout", timeout.text)]⟩

def openedRecord (c : Connection β η) (state : ConnectionState) : Record :=
  ⟨.info, "connection opened",
    [("target", c.target.raw), ("state", state.name), ("mode", c.config.dispatchMode.name)]⟩

-- Starts a session. Waiting for it to connect is advisory: the state reached is the answer. A
-- failing backend leaves the connection closed, with its registrations already dropped.
def start (timeout : Duration) (c : Connection β η) :
    Except Error ConnectionState × Connection β η × List Record :=
  if c.running then (.error (.badArguments "connection is already open"), c, [])
  else
    let (cleared, registry) := c.registry.clear c.global
    let c := { c with dispatcher.registry := registry }
    let dropped :=
      if 0 < cleared.watchers || 0 < cleared.completions then [droppedRecord cleared] else []
    match Backend.init c.target c.config.sessionTimeout c.backend with
    | (.error e, backend) => (.error e, { c with backend := backend }, dropped)
    | (.ok (), backend) =>
      let state := Backend.state backend
      let late := if state = .connected then [] else [c.lateRecord state timeout]
      (.ok state,
        { c with
          backend := backend
          closed := false
          running := true
          delivering := true
          queue := some (.new c.config.clearReadsOnPop) },
        dropped ++ late ++ [c.openedRecord state])

def isIdle (c : Connection β η) : Bool :=
  c.closed && !c.running

-- The marker follows what is on the stream, the delivery ends, and the marker follows what is in
-- the queue. Records of the delivery come first.
def quiesce (c : Connection β η) : Connection β η × List Record × List Record :=
  let c := { c with running := false, backend := Backend.wake c.backend }
  let (c, delivery) := c.deliver
  let (c, own) := { c with delivering := false }.enqueue .shutdown
  (c, delivery, own)

def closedRecord (c : Connection β η) : Record :=
  ⟨.info, "connection closed", [("target", c.target.raw)]⟩

-- Releases the backend and gives up the queue.
def release (c : Connection β η) : Except Error Unit × Connection β η × List Record :=
  let (result, backend) :=
    if c.closed then (.ok (), c.backend) else Backend.close c.backend
  (result, { c with backend := backend, closed := true, queue := none }, [c.closedRecord])

-- Closes a connection nobody else dispatches for.
def stop (c : Connection β η) : Except Error Unit × Connection β η × List Record :=
  if c.isIdle then (.ok (), c, [])
  else
    let (c, delivery, own) := c.quiesce
    let (result, c, records) := c.release
    (result, c, delivery ++ own ++ records)

-- Closes, and starts the next session unless closing failed.
def restart (timeout : Duration) (c : Connection β η) :
    Except Error ConnectionState × Connection β η × List Record :=
  match c.stop with
  | (.error e, c, records) => (.error e, c, records)
  | (.ok (), c, records) =>
    let (result, c, more) := c.start timeout
    (result, c, records ++ more)

-- Takes the oldest event; nothing is taken while the connection is not running.
def nextEvent (c : Connection β η) : Option Event × Connection β η :=
  if !c.running then (none, c)
  else
    match c.queue with
    | none => (none, c)
    | some q =>
      let (event, q) := q.popEvent
      (event, { c with queue := some q })

def handOut (c : Connection β η) : Bool × Connection β η :=
  match c.queue with
  | none => (false, c)
  | some q =>
    let (given, q) := q.handOut
    (given, { c with queue := some q })

end Connection
end Coordination
