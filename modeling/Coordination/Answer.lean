import Coordination.Client

namespace Coordination

inductive DispatchState where
  -- Spawned, not yet looping.
  | idle
  -- Popping and dispatching events.
  | draining
  | stopped
  deriving DecidableEq, Repr

namespace DispatchState

-- No thread has been spawned.
instance : Inhabited DispatchState := ⟨.stopped⟩

def name : DispatchState → String
  | idle => "Idle"
  | draining => "Draining"
  | stopped => "Stopped"

end DispatchState

structure Info where
  running : Bool
  closed : Bool
  state : ConnectionState
  session : Option SessionInfo
  backendSession : Option SessionInfo
  target : Target
  config : Config
  description : String
  -- Absent when a handler asks on a dispatch thread.
  dispatchState : Option DispatchState
  deriving Inhabited

-- What became of an awaited reply.
inductive Awaited where
  | noSlot
  | pending
  | settled (result : Except Error Reply)
  deriving Inhabited

structure EntryView where
  label : String
  context : Option Context
  deriving DecidableEq, Repr, Inhabited

inductive Answer where
  | nothing
  | flag (value : Bool)
  | flags (first second : Bool)
  | count (value : Nat)
  | id (value : RequestId)
  | entry (value : Option EntryView)
  | cleared (value : Cleared)
  | event (value : Option Event)
  | done (result : Except Error Unit)
  | reached (result : Except Error ConnectionState)
  | result (result : Except Error CallResult)
  -- A reply; the flag asks for its checked payload too.
  | reply (result : Except Error Reply) (checked : Bool)
  | awaited (value : Awaited)
  | slot (value : Option Nat)
  | readable (value : Option Bool)
  | state (value : ConnectionState)
  | session (value : Option SessionInfo)
  | data (value : Option ByteArray)
  | calls (value : List (RequestId × Call))
  | inits (value : List (Target × Duration))
  -- The events of a stream, and the marker or the failure it ended with.
  | stream (events : List Event) (ending : Except Error Unit)
  | info (value : Info)
  | clientInfo (value : Info)
  deriving Inhabited

end Coordination
