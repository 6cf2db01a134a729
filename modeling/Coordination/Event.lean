import Coordination.ConnectionState
import Coordination.EventType
import Coordination.RequestId
import Coordination.ResultCode
import Coordination.Text.Quoted

namespace Coordination

structure Stat where
  czxid : Int := 0
  mzxid : Int := 0
  ctime : Int := 0
  mtime : Int := 0
  version : Int := 0
  cversion : Int := 0
  aversion : Int := 0
  ephemeralOwner : Int := 0
  dataLength : Int := 0
  numChildren : Int := 0
  pzxid : Int := 0
  deriving DecidableEq, Inhabited

-- Who may do what: `perms` adds up the permissions granted.
structure Acl where
  perms : Nat
  scheme : String
  id : String
  deriving DecidableEq, Repr, Inhabited

namespace Acl

def read : Nat := 1
def write : Nat := 2
def create : Nat := 4
def delete : Nat := 8
def admin : Nat := 16
def all : Nat := 31

-- Everything is allowed to everyone.
def openUnsafe : List Acl := [⟨all, "world", "anyone"⟩]

end Acl

-- One comparison of bytes, whatever else is imported.
instance (priority := high) decidableEqBytes : DecidableEq ByteArray :=
  ByteArray.instDecidableEq

inductive Payload where
  | none
  | data (data : Option ByteArray) (stat : Option Stat)
  | stat (stat : Option Stat)
  | children (children : List String) (stat : Option Stat)
  | acl (acl : List Acl) (stat : Option Stat)
  | string (string : Option String)
  deriving DecidableEq, Inhabited

namespace Payload

def stat? : Payload → Option Stat
  | data _ s | stat s | children _ s | acl _ s => s
  | none | string _ => .none

def data? : Payload → Option ByteArray
  | data d _ => d
  | _ => .none

def children? : Payload → Option (List String)
  | children cs _ => some cs
  | _ => .none

def acl? : Payload → Option (List Acl)
  | acl a _ => some a
  | _ => .none

def string? : Payload → Option String
  | string s => s
  | _ => .none

end Payload

structure CompletionEvent where
  id : RequestId
  rc : ResultCode
  path : Option String
  payload : Payload
  deriving DecidableEq, Inhabited

structure WatchEvent where
  id : RequestId
  type : EventType
  state : ConnectionState
  path : Option String
  deriving DecidableEq, Inhabited

namespace WatchEvent

-- The notice that the session has reached a state.
def session (state : ConnectionState) : WatchEvent :=
  ⟨.global, .session, state, none⟩

end WatchEvent

inductive Event where
  | completion (event : CompletionEvent)
  | watch (event : WatchEvent)
  deriving DecidableEq, Inhabited

namespace Event

def id : Event → RequestId
  | completion c => c.id
  | watch w => w.id

def path : Event → Option String
  | completion c => c.path
  | watch w => w.path

def isCompletion : Event → Bool
  | completion _ => true
  | watch _ => false

def isWatch (e : Event) : Bool :=
  !e.isCompletion

def isSession : Event → Bool
  | completion _ => false
  | watch w => w.type.isSession

end Event

-- What travels along a stream: events, and the marker that asks its reader to stop.
inductive Item where
  | event (event : Event)
  | shutdown
  deriving DecidableEq, Inhabited

namespace Item

def event? : Item → Option Event
  | event e => some e
  | shutdown => none

end Item
end Coordination
