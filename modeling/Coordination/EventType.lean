namespace Coordination

inductive EventType where
  | created
  | deleted
  | changed
  | child
  | session
  | notWatching
  deriving DecidableEq, Repr, Inhabited

namespace EventType

def code : EventType → Int
  | created => 1
  | deleted => 2
  | changed => 3
  | child => 4
  | session => -1
  | notWatching => -2

def name : EventType → String
  | created => "Created"
  | deleted => "Deleted"
  | changed => "Changed"
  | child => "Child"
  | session => "Session"
  | notWatching => "NotWatching"

def all : List EventType :=
  [created, deleted, changed, child, session, notWatching]

def ofCode? (n : Int) : Option EventType :=
  all.find? (·.code == n)

theorem ofCode?_code (t : EventType) : ofCode? t.code = some t := by
  cases t <;> rfl

-- Session notices consume no registration.
def isSession (t : EventType) : Bool :=
  t == session

end EventType
end Coordination
