import Coordination.Backend.Tree

namespace Coordination

-- Request `id` wants to hear of the next change at `path`.
structure Watch where
  path : String
  id : RequestId
  deriving DecidableEq, Inhabited

namespace Watch

-- The requests that wait at a path, in the order they came.
def idsAt (path : String) (ws : List Watch) : List RequestId :=
  ws.filterMap fun w => if w.path = path then some w.id else none

def elsewhere (path : String) (ws : List Watch) : List Watch :=
  ws.filter (·.path ≠ path)

end Watch

structure Memory where
  state : ConnectionState
  handleClosed : Bool
  -- The stream of events not yet handed out, while there is a session.
  channel : Option (List Item)
  target : Option Target
  nodes : Tree
  dataWatches : List Watch
  childWatches : List Watch
  -- Completions kept back, the oldest first.
  held : List CompletionEvent
  holding : Bool
  connectOnInit : Bool
  zxid : Int
  sessionId : Int
  -- The calls that reached the service, in order.
  calls : List (RequestId × Call)
  -- Milliseconds of the wall clock.
  clock : Int

namespace Memory

-- A service at time `clock` whose sessions connect as soon as they start.
def new (clock : Int) : Memory where
  state := .notConnected
  handleClosed := false
  channel := none
  target := none
  nodes := (∅ : Tree).insert "/" (Node.new ByteArray.empty Acl.openUnsafe 0 0 clock)
  dataWatches := []
  childWatches := []
  held := []
  holding := false
  connectOnInit := true
  zxid := 0
  sessionId := 0
  calls := []
  clock := clock

-- A service whose sessions stay in `connecting` until told otherwise.
def unreachable (clock : Int) : Memory :=
  { new clock with connectOnInit := false }

def send (item : Item) (m : Memory) : Memory :=
  { m with channel := m.channel.map (· ++ [item]) }

def emit (event : Event) (m : Memory) : Memory :=
  m.send (.event event)

def emitWatches (events : List WatchEvent) (m : Memory) : Memory :=
  events.foldl (fun m e => m.emit (.watch e)) m

def next (m : Memory) : Option (Except Error Item × Memory) :=
  if m.handleClosed then some (.error .handleClosed, m)
  else
    match m.channel with
    | none => some (.error .handleClosed, m)
    | some [] => none
    | some (item :: rest) => some (.ok item, { m with channel := some rest })

def fullPath (m : Memory) (path : String) : String :=
  match m.target with
  | none => path
  | some target => target.fullPath path

def clientPath (m : Memory) (path : String) : String :=
  match m.target with
  | none => path
  | some target => target.stripChroot path

-- The events that tell the requests `ids` of a change at a full path.
def notices (m : Memory) (ids : List RequestId) (type : EventType) (path : String) :
    List WatchEvent :=
  ids.map fun id => ⟨id, type, .connected, some (m.clientPath path)⟩

-- Uses up the watches on the node at a path.
def fireData (type : EventType) (path : String) (m : Memory) : List WatchEvent × Memory :=
  (m.notices (Watch.idsAt path m.dataWatches) type path,
    { m with dataWatches := Watch.elsewhere path m.dataWatches })

def fireChild (type : EventType) (path : String) (m : Memory) : List WatchEvent × Memory :=
  (m.notices (Watch.idsAt path m.childWatches) type path,
    { m with childWatches := Watch.elsewhere path m.childWatches })

def watchData (path : String) (id : RequestId) (m : Memory) : Memory :=
  { m with dataWatches := m.dataWatches ++ [⟨path, id⟩] }

def watchChildren (path : String) (id : RequestId) (m : Memory) : Memory :=
  { m with childWatches := m.childWatches ++ [⟨path, id⟩] }

-- The result of an operation and the watch events it sets off.
structure Outcome where
  rc : ResultCode
  payload : Payload
  fired : List WatchEvent := []
  deriving DecidableEq, Inhabited

def versionMatches (expected actual : Int) : Bool :=
  expected == anyVersion || expected == actual

def get (id : RequestId) (path : String) (watch : Bool) (m : Memory) : Outcome × Memory :=
  let full := m.fullPath path
  match m.nodes[full]? with
  | none => (⟨.noNode, .data none none, []⟩, m)
  | some node =>
    (⟨.ok, .data (some node.data) (some node.stat), []⟩,
      if watch then m.watchData full id else m)

def doesExist (id : RequestId) (path : String) (watch : Bool) (m : Memory) : Outcome × Memory :=
  let full := m.fullPath path
  let m' := if watch then m.watchData full id else m
  match m.nodes[full]? with
  | none => (⟨.noNode, .stat none, []⟩, m')
  | some node => (⟨.ok, .stat (some node.stat), []⟩, m')

def getChildren (id : RequestId) (path : String) (watch : Bool) (m : Memory) : Outcome × Memory :=
  let full := m.fullPath path
  match m.nodes[full]? with
  | none => (⟨.noNode, .children [] none, []⟩, m)
  | some node =>
    (⟨.ok, .children (m.nodes.children full) (some node.stat), []⟩,
      if watch then m.watchChildren full id else m)

def getAcl (path : String) (m : Memory) : Outcome × Memory :=
  match m.nodes[m.fullPath path]? with
  | none => (⟨.noNode, .acl [] none, []⟩, m)
  | some node => (⟨.ok, .acl node.acl (some node.stat), []⟩, m)

def set (path : String) (data : ByteArray) (version : Int) (m : Memory) : Outcome × Memory :=
  let full := m.fullPath path
  match m.nodes[full]? with
  | none => (⟨.noNode, .stat none, []⟩, m)
  | some node =>
    if !versionMatches version node.stat.version then (⟨.badVersion, .stat none, []⟩, m)
    else
      let zxid := m.zxid + 1
      let node := node.replaceData data zxid m.clock
      let m := { m with nodes := m.nodes.insert full node, zxid := zxid }
      let (fired, m) := m.fireData .changed full
      (⟨.ok, .stat (some node.stat), fired⟩, m)

def setAcl (path : String) (acl : List Acl) (version : Int) (m : Memory) : Outcome × Memory :=
  let full := m.fullPath path
  match m.nodes[full]? with
  | none => (⟨.noNode, .stat none, []⟩, m)
  | some node =>
    if !versionMatches version node.stat.aversion then (⟨.badVersion, .stat none, []⟩, m)
    else
      let node := node.replaceAcl acl
      (⟨.ok, .stat (some node.stat), []⟩, { m with nodes := m.nodes.insert full node })

-- Inserts a node whose parent is known to be there, and tells who watches.
def insertNode (parent path : String) (data : ByteArray) (acl : List Acl) (owner : Int)
    (m : Memory) : Outcome × Memory :=
  let zxid := m.zxid + 1
  let nodes := m.nodes.insert path (.new data acl zxid owner m.clock)
  let m := { m with nodes := nodes.modify parent (Node.childCreated zxid), zxid := zxid }
  let (created, m) := m.fireData .created path
  let (child, m) := m.fireChild .child parent
  (⟨.ok, .string (some path), created ++ child⟩, m)

-- The created path is reported with the chroot in front, as it stands in the tree.
def create (path : String) (data : ByteArray) (acl : List Acl) (flags : Nat) (m : Memory) :
    Outcome × Memory :=
  let full := m.fullPath path
  match Path.parent? full with
  | none => (⟨.badArguments, .string none, []⟩, m)
  | some parent =>
    match m.nodes[parent]? with
    | none => (⟨.noNode, .string none, []⟩, m)
    | some node =>
      if node.isEphemeral then (⟨.noChildrenForEphemerals, .string none, []⟩, m)
      else
        let isSequence := flags &&& createSequence ≠ 0
        let full := if isSequence then Path.withSequence full node.nextSequence else full
        let m :=
          if isSequence then
            { m with nodes := m.nodes.insert parent { node with nextSequence := node.nextSequence + 1 } }
          else m
        if full ∈ m.nodes then (⟨.nodeExists, .string none, []⟩, m)
        else
          let owner := if flags &&& createEphemeral ≠ 0 then m.sessionId else 0
          m.insertNode parent full data acl owner

-- The root of the tree and the root of the client cannot be deleted.
def isProtected (full : String) (m : Memory) : Bool :=
  full = "/" || (m.target.bind Target.chroot) = some full

def removeNode (path : String) (m : Memory) : Outcome × Memory :=
  let zxid := m.zxid + 1
  let parent := (Path.parent? path).getD "/"
  let nodes := (m.nodes.erase path).modify parent (Node.childDeleted zxid)
  let m := { m with nodes := nodes, zxid := zxid }
  let (deleted, m) := m.fireData .deleted path
  let (emptied, m) := m.fireChild .deleted path
  let (child, m) := m.fireChild .child parent
  (⟨.ok, .none, deleted ++ emptied ++ child⟩, m)

def delete (path : String) (version : Int) (m : Memory) : Outcome × Memory :=
  let full := m.fullPath path
  if m.isProtected full then (⟨.badArguments, .none, []⟩, m)
  else
    match m.nodes[full]? with
    | none => (⟨.noNode, .none, []⟩, m)
    | some node =>
      if !versionMatches version node.stat.version then (⟨.badVersion, .none, []⟩, m)
      else if !(m.nodes.children full).isEmpty then (⟨.notEmpty, .none, []⟩, m)
      else m.removeNode full

def execute (id : RequestId) (op : Operation) (m : Memory) : Outcome × Memory :=
  match op with
  | .get path watch => m.get id path watch
  | .exists path watch => m.doesExist id path watch
  | .getChildren path watch => m.getChildren id path watch
  | .getAcl path => m.getAcl path
  | .set path data version => m.set path data version
  | .create path data acl flags => m.create path data acl flags
  | .delete path version => m.delete path version
  | .setAcl path acl version => m.setAcl path acl version

-- Creates the node unless it is there; its parent's statistics are left alone.
def ensureNode (path : String) (m : Memory) : Memory :=
  if path ∈ m.nodes then m
  else
    let zxid := m.zxid + 1
    { m with
      nodes := m.nodes.insert path (.new ByteArray.empty Acl.openUnsafe zxid 0 m.clock)
      zxid := zxid }

def ensurePath (path : String) (m : Memory) : Memory :=
  (Path.steps path).foldl (fun m p => m.ensureNode p) m

-- Starts the next session: what belonged to the last one is gone, the chroot is there.
def init (target : Target) (m : Memory) : Memory :=
  let m := { m with
    sessionId := m.sessionId + 1
    handleClosed := false
    channel := some []
    target := some target
    dataWatches := []
    childWatches := []
    held := []
    nodes := m.nodes.sweep }
  let m := match target.chroot with
    | none => m
    | some chroot => m.ensurePath chroot
  if m.connectOnInit then
    { m with state := .connected }.emit (.watch (.session .connected))
  else { m with state := .connecting }

def close (m : Memory) : Memory :=
  { m with handleClosed := true, state := .closed, channel := none, held := [] }

-- A completion goes onto the stream, or is kept back while the service holds them.
def complete (c : CompletionEvent) (m : Memory) : Memory :=
  if m.holding then { m with held := m.held ++ [c] } else m.emit (.completion c)

def issue (id : RequestId) (call : Call) (m : Memory) : Except Error CallResult × Memory :=
  if m.handleClosed || m.channel.isNone then (.error .handleClosed, m)
  else
    let m := { m with calls := m.calls ++ [(id, call)] }
    if m.state ≠ .connected then (.ok ⟨.connectionLoss, .none⟩, m)
    else
      let (outcome, m) := m.execute id call.op
      let m := m.emitWatches outcome.fired
      match call.mode with
      | .sync => (.ok ⟨outcome.rc, outcome.payload⟩, m)
      | .async =>
        (.ok ⟨.ok, .none⟩, m.complete ⟨id, outcome.rc, some call.op.path, outcome.payload⟩)

-- There is a session to speak of once one was started, also after it has ended.
def session (m : Memory) : Option SessionInfo :=
  if 0 < m.sessionId then some ⟨m.sessionId⟩ else none

instance : Backend Memory where
  init target _ m := (.ok (), m.init target)
  next := next
  wake := send .shutdown
  close m := (.ok (), m.close)
  state := state
  issue := issue
  session := session
  backlog m := (m.channel.getD []).length

-- Moves the session to a state and tells the global watcher.
def setState (state : ConnectionState) (m : Memory) : Memory :=
  { m with state := state }.emit (.watch (.session state))

-- Hands out the oldest completion kept back for a request.
def release (id : RequestId) (m : Memory) : Bool × Memory :=
  match m.held.find? (·.id = id) with
  | none => (false, m)
  | some c =>
    (true, { m with held := m.held.eraseP (·.id = id) }.emit (.completion c))

-- Hands out everything kept back, in the order of the calls.
def releaseAll (m : Memory) : Nat × Memory :=
  (m.held.length, m.held.foldl (fun m c => m.emit (.completion c)) { m with held := [] })

def nodeData (path : String) (m : Memory) : Option ByteArray :=
  m.nodes[m.fullPath path]?.map Node.data

end Memory
end Coordination
