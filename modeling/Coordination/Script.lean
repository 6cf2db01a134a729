import Coordination.Backend.Script

namespace Coordination

structure HandlerOf (ι : Type) where
  label : String
  script : List ι
  deriving Inhabited

-- Which of the calls to the backend is to fail.
inductive FaultPoint where
  | init
  | issue
  | close
  deriving DecidableEq, Repr, Inhabited

inductive Instruction where
  -- Ends the handler with an error.
  | fail (error : String)
  -- Ends the handler with a panic.
  | panic (text : String)
  -- Stops the dispatch thread until it is unblocked.
  | block
  | unblock
  -- The registry.
  | allocate (completion watcher : Option (Entry (HandlerOf Instruction)))
  | resolveCompletion (id : RequestId)
  | peekCompletion (id : RequestId)
  | resolveWatcher (id : RequestId) (type : EventType)
  | restoreCompletion (id : RequestId) (entry : Entry (HandlerOf Instruction))
  | restoreWatcher (id : RequestId) (entry : Entry (HandlerOf Instruction))
  | installGlobal (entry : Entry (HandlerOf Instruction))
  | discard (id : RequestId)
  | discardWatcher (id : RequestId)
  | clear (entry : Entry (HandlerOf Instruction))
  | has (id : RequestId)
  | dispatchEvent (event : Event)
  -- The service and its faults.
  | service (step : ServiceStep)
  | setFault (point : FaultPoint) (message : Option String)
  | refuse (rc : Option ResultCode)
  | cutStream (failure : Error)
  | inits
  -- The life of the connection.
  | openSession (timeout : Duration)
  | reopen (timeout : Duration)
  -- The flag unblocks the dispatch thread while the connection is closing.
  | close (unblocking : Bool)
  | assertOpen
  | info
  | clientInfo
  -- The queue.
  | next
  | dispatchOne
  | dispatchUpTo (max : Nat)
  | readiness
  | consume (slot max : Nat)
  | ready (slot : Nat)
  -- The client.
  | submit (op : Operation) (options : CallOptions (HandlerOf Instruction))
      (awaitedAs : Option String) (checked : Bool)
  | awaitReply (slot : String)

instance : Inhabited Instruction := ⟨.block⟩

abbrev Handler := HandlerOf Instruction

-- Who receives a notification in the end.
inductive Receiver where
  | handler (handler : Handler)
  -- Settles the reply of this number with the first completion.
  | reply (number : Nat)
  -- Takes notice and does nothing.
  | silent
  deriving Inhabited

namespace Receiver

def label : Receiver → String
  | handler h => h.label
  | _ => ""

end Receiver

-- An entry with nothing between the registry and the handler.
def Entry.plain (e : Entry Handler) : Entry (Callback Receiver) :=
  ⟨{ receiver := .handler e.handler }, e.context⟩

def Entry.view (e : Entry (Callback Receiver)) : EntryView :=
  ⟨e.handler.receiver.label, e.context⟩

-- The watcher of a session nobody asked to watch.
def Entry.silent : Entry (Callback Receiver) :=
  ⟨{ receiver := .silent }, none⟩

-- Lines of the trace that handlers leave.
inductive Note where
  | called (label : String) (context : Option Context) (event : Event)
  | answered (label : String) (answer : Answer)
  deriving Inhabited

end Coordination
