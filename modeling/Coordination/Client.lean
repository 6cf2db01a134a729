import Coordination.Connection

namespace Coordination

-- A handler of the application together with what the client does before it runs.
structure Callback (ε : Type) where
  receiver : ε
  -- The created path of a completion is stripped of the chroot of this target.
  stripping : Option Target := none
  -- The watcher of the request is forgotten once its completion shows that no watch was set; the
  -- flag tells whether the request asks for existence.
  watching : Option Bool := none
  deriving Inhabited

structure CallOptions (ε : Type) where
  callback : Option ε := none
  callbackContext : Option Context := none
  watcher : Option ε := none
  watcherContext : Option Context := none
  deriving Inhabited

namespace CallOptions

variable {ε : Type}

def isAsync (o : CallOptions ε) : Bool :=
  o.callback.isSome

def hasWatcher (o : CallOptions ε) : Bool :=
  o.watcher.isSome

def describe (o : CallOptions ε) : String :=
  "CallOptions \x7b callback: " ++ toString o.isAsync ++ ", watcher: " ++ toString o.hasWatcher ++
    " \x7d"

end CallOptions

structure Reply where
  id : RequestId
  rc : ResultCode
  payload : Payload
  deriving DecidableEq, Inhabited

namespace Reply

def ofCompletion (c : CompletionEvent) : Reply :=
  ⟨c.id, c.rc, c.payload⟩

-- The payload, or the error that a result code other than ok stands for.
def check (r : Reply) : Except Error Payload :=
  match r.rc.check with
  | .ok () => .ok r.payload
  | .error e => .error e

end Reply

-- A failed read sets no watch, except that existence of a missing node can be watched.
def watchWasSet (isExists : Bool) (rc : ResultCode) : Bool :=
  rc.isOk || (isExists && rc == .noNode)

def Payload.strip (target : Target) : Payload → Payload
  | .string (some path) => .string (some (target.stripChroot path))
  | p => p

namespace Callback

variable {ε : Type}

-- The event as the handler of the application sees it.
def view (cb : Callback ε) (event : Event) : Event :=
  match event, cb.stripping with
  | .completion c, some target => .completion { c with payload := c.payload.strip target }
  | e, _ => e

-- What the client does to the registry before the handler of the application runs.
def enter (cb : Callback ε) (event : Event) (r : Registry (Callback ε)) : Registry (Callback ε) :=
  match event, cb.watching with
  | .completion c, some isExists =>
    if watchWasSet isExists c.rc then r else r.discardWatcher c.id
  | _, _ => r

end Callback

namespace Client

variable {β ε : Type} [Backend β]

def describe (connection : String) : String :=
  "Client \x7b connection: " ++ connection ++ " \x7d"

def checkPath (path : String) : Except Error Unit :=
  if path.toList.head? = some '/' then .ok ()
  else .error (.badArguments ("path must start with /, got " ++ Text.quote path))

-- Everything that is refused before an identifier is given out.
def accept (op : Operation) (hasWatcher : Bool) (c : Connection β (Callback ε)) :
    Except Error Unit := do
  checkPath op.path
  if hasWatcher && !op.supportsWatch then
    throw (.badArguments (op.name ++ " does not accept a watcher"))
  c.assertOpen

def completionEntry (op : Operation) (target : Target) (o : CallOptions ε) :
    Option (Entry (Callback ε)) :=
  o.callback.map fun receiver => {
    handler := {
      receiver := receiver
      stripping := if op.isCreate && target.isChrooted then some target else none
      watching := if o.hasWatcher then some op.isExists else none }
    context := o.callbackContext }

def watcherEntry (o : CallOptions ε) : Option (Entry (Callback ε)) :=
  o.watcher.map fun receiver => ⟨{ receiver := receiver }, o.watcherContext⟩

-- Whether the answer to a call leaves its registrations in place.
def keeps (op : Operation) (o : CallOptions ε) (rc : ResultCode) : Bool :=
  if o.isAsync then rc.isOk else !o.hasWatcher || watchWasSet op.isExists rc

-- Registers the handlers, issues the call, and forgets the handlers that will not be called.
def submit (op : Operation) (o : CallOptions ε) (c : Connection β (Callback ε)) :
    Except Error Reply × Connection β (Callback ε) :=
  let op := op.watching o.hasWatcher
  match accept op o.hasWatcher c with
  | .error e => (.error e, c)
  | .ok () =>
    let (id, registry) := c.registry.allocate (completionEntry op c.target o) (watcherEntry o)
    let c := { c with dispatcher.registry := registry }
    let mode := if o.isAsync then .async else .sync
    match Backend.issue id ⟨op, mode⟩ c.backend with
    | (.error e, backend) => (.error e, { c with backend := backend }.withRegistry (·.discard id))
    | (.ok result, backend) =>
      let c := { c with backend := backend }
      let c := if keeps op o result.rc then c else c.withRegistry (·.discard id)
      let payload := if op.isCreate then result.payload.strip c.target else result.payload
      (.ok ⟨id, result.rc, payload⟩, c)

end Client

namespace Connection

variable {β ε : Type}

-- Routes an event. If somebody waits for it, what the client does before the handler of the
-- application runs is done.
def enter (event : Event) (c : Connection β (Callback ε)) :
    Option (Invocation (Callback ε)) × Connection β (Callback ε) :=
  match c.dispatcher.start event with
  | (none, dispatcher) => (none, { c with dispatcher := dispatcher })
  | (some i, dispatcher) =>
    (some i, { c with dispatcher := dispatcher }.withRegistry (i.entry.handler.enter i.event))

def leave (i : Invocation (Callback ε)) (outcome : Outcome) (c : Connection β (Callback ε)) :
    Connection β (Callback ε) :=
  { c with dispatcher := c.dispatcher.finish i outcome }

end Connection

structure ClientBuilder where
  target : String
  config : Config := {}
  deriving Inhabited

namespace ClientBuilder

variable {β ε : Type} [Backend β]

def build (b : ClientBuilder) (backend : β) (global : Entry (Callback ε)) :
    Except Error (Connection β (Callback ε)) × List Record :=
  match Target.parse b.target with
  | .error e => (.error e, [])
  | .ok target =>
    match b.config.validate with
    | .error e => (.error e, [])
    | .ok config =>
      match (Connection.new target config backend global).start config.connectTimeout with
      | (.error e, _, records) => (.error e, records)
      | (.ok _, c, records) => (.ok c, records)

end ClientBuilder
end Coordination
