import Coordination.Duration
import Coordination.Event
import Coordination.Target

namespace Coordination

-- The operations a backend understands. `watch` asks for a watch event on the next change.
inductive Operation where
  | get (path : String) (watch : Bool)
  | exists (path : String) (watch : Bool)
  | getChildren (path : String) (watch : Bool)
  | getAcl (path : String)
  | set (path : String) (data : ByteArray) (version : Int)
  | create (path : String) (data : ByteArray) (acl : List Acl) (flags : Nat)
  | delete (path : String) (version : Int)
  | setAcl (path : String) (acl : List Acl) (version : Int)
  deriving DecidableEq, Inhabited

namespace Operation

def path : Operation → String
  | get p _ | .exists p _ | getChildren p _ | getAcl p | set p _ _ | create p _ _ _ | delete p _
  | setAcl p _ _ => p

def name : Operation → String
  | get .. => "get"
  | .exists .. => "exists"
  | getChildren .. => "get_children"
  | getAcl .. => "get_acl"
  | set .. => "set"
  | create .. => "create"
  | delete .. => "delete"
  | setAcl .. => "set_acl"

def supportsWatch : Operation → Bool
  | get .. | .exists .. | getChildren .. => true
  | _ => false

def isCreate : Operation → Bool
  | create .. => true
  | _ => false

def isExists : Operation → Bool
  | .exists .. => true
  | _ => false

def watching (watch : Bool) : Operation → Operation
  | get p _ => get p watch
  | .exists p _ => .exists p watch
  | getChildren p _ => getChildren p watch
  | op => op

end Operation

-- The version that matches every version of a node.
def anyVersion : Int := -1

-- The node goes away with the session that created it.
def createEphemeral : Nat := 1

-- The name of the node gets the next number of its parent.
def createSequence : Nat := 2

-- A synchronous call is answered at once, an asynchronous one by a completion event.
inductive CallMode where
  | sync
  | async
  deriving DecidableEq, Repr, Inhabited

structure Call where
  op : Operation
  mode : CallMode
  deriving DecidableEq, Inhabited

-- The direct answer to a call; that to an asynchronous call only says whether it was accepted.
structure CallResult where
  rc : ResultCode
  payload : Payload
  deriving DecidableEq, Inhabited

structure SessionInfo where
  id : Int
  deriving DecidableEq, Inhabited

namespace SessionInfo

-- The password of a session: its number in eight bytes, the highest first.
def passwd (s : SessionInfo) : List Nat :=
  (List.range 8).reverse.map fun i => (s.id.fmod UInt64.size).toNat / Nat.pow 256 i % 256

end SessionInfo

class Backend (β : Type) where
  -- Starts a session; called again for the next one.
  init : Target → Duration → β → Except Error Unit × β
  -- The next answer of the stream, or `none` while there is nothing to hand out.
  next : β → Option (Except Error Item × β)
  -- Puts the marker on the stream that stops its reader.
  wake : β → β
  -- Gives up everything the session holds.
  close : β → Except Error Unit × β
  state : β → ConnectionState
  issue : RequestId → Call → β → Except Error CallResult × β
  session : β → Option SessionInfo
  -- How many answers the stream still has at most before it is silent or ends.
  backlog : β → Nat

end Coordination
