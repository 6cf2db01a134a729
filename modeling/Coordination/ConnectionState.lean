namespace Coordination

inductive ConnectionState where
  | notConnected
  | connecting
  | associating
  | connected
  | closed
  | expiredSession
  | authFailed
  deriving DecidableEq, Repr, Inhabited

namespace ConnectionState

def code : ConnectionState → Int
  | notConnected => 999
  | connecting => 1
  | associating => 2
  | connected => 3
  | closed => 0
  | expiredSession => -112
  | authFailed => -113

def name : ConnectionState → String
  | notConnected => "NotConnected"
  | connecting => "Connecting"
  | associating => "Associating"
  | connected => "Connected"
  | closed => "Closed"
  | expiredSession => "ExpiredSession"
  | authFailed => "AuthFailed"

def all : List ConnectionState :=
  [notConnected, connecting, associating, connected, closed, expiredSession, authFailed]

def ofCode? (n : Int) : Option ConnectionState :=
  all.find? (·.code == n)

theorem ofCode?_code (s : ConnectionState) : ofCode? s.code = some s := by
  cases s <;> rfl

end ConnectionState
end Coordination
