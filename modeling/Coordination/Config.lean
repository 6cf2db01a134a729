import Coordination.Duration
import Coordination.Error

namespace Coordination

-- How events reach their handlers: by a dispatch thread, or when the owner asks for the next.
inductive DispatchMode where
  | thread
  | manual
  deriving DecidableEq, Repr, Inhabited

namespace DispatchMode

def word : DispatchMode → String
  | thread => "thread"
  | manual => "manual"

def name : DispatchMode → String
  | thread => "Thread"
  | manual => "Manual"

end DispatchMode

structure Config where
  -- How long opening waits for the session to connect.
  connectTimeoutMs : UInt64 := 10000
  sessionTimeoutMs : UInt64 := 10000
  -- How often opening looks at the state while it waits.
  connectPollIntervalMs : UInt64 := 100
  -- How long closing waits for the dispatch thread.
  dispatchJoinGraceMs : UInt64 := 3000
  dispatchMode : DispatchMode := .thread
  -- Whether a pop reads a byte from the readiness pipe.
  clearReadsOnPop : Bool := true
  deriving DecidableEq, Repr, Inhabited

namespace Config

def connectTimeout (c : Config) : Duration :=
  .ofMillis c.connectTimeoutMs.toNat

def sessionTimeout (c : Config) : Duration :=
  .ofMillis c.sessionTimeoutMs.toNat

def connectPollInterval (c : Config) : Duration :=
  .ofMillis c.connectPollIntervalMs.toNat

def dispatchJoinGrace (c : Config) : Duration :=
  .ofMillis c.dispatchJoinGraceMs.toNat

def complaint? (c : Config) : Option String :=
  if c.connectPollIntervalMs = 0 then some "connect_poll_interval_ms must be greater than 0"
  else if c.sessionTimeoutMs = 0 then some "session_timeout_ms must be greater than 0"
  else if c.connectPollIntervalMs > c.connectTimeoutMs && c.connectTimeoutMs > 0 then
    some ("connect_poll_interval_ms (" ++ toString c.connectPollIntervalMs.toNat ++
      ") exceeds connect_timeout_ms (" ++ toString c.connectTimeoutMs.toNat ++ ")")
  else if c.dispatchJoinGraceMs = 0 then some "dispatch_join_grace_ms must be greater than 0"
  else none

def validate (c : Config) : Except Error Config :=
  match c.complaint? with
  | some reason => .error (.config reason)
  | none => .ok c

-- The setters that take a length of time keep only 64 bits of its milliseconds.
def withConnectTimeout (d : Duration) (c : Config) : Config :=
  { c with connectTimeoutMs := d.millis.toUInt64 }

def withSessionTimeout (d : Duration) (c : Config) : Config :=
  { c with sessionTimeoutMs := d.millis.toUInt64 }

def withDispatchJoinGrace (d : Duration) (c : Config) : Config :=
  { c with dispatchJoinGraceMs := d.millis.toUInt64 }

end Config
end Coordination
