import Coordination.ResultCode
import Coordination.Text.Quoted

namespace Coordination

inductive Error where
  -- Settings that cannot be loaded or are rejected.
  | config (reason : String)
  | invalidTarget (target reason : String)
  -- Arguments refused before the backend is asked.
  | badArguments (reason : String)
  | notConnected
  | sessionExpired
  -- The connection is closed or about to be.
  | shuttingDown
  -- The backend has been released.
  | handleClosed
  -- A failure of the backend that is no result code.
  | backend (reason : String)
  | io (reason : String)
  -- A result code other than ok, turned into an error on request.
  | keeper (rc : ResultCode)
  deriving DecidableEq, Repr, Inhabited

namespace Error

def message : Error → String
  | config reason => reason
  | invalidTarget target reason =>
    "Invalid connection target " ++ Text.quote target ++ ": " ++ reason
  | badArguments reason => "Bad arguments: " ++ reason
  | notConnected => "Not connected"
  | sessionExpired => "Session expired"
  | shuttingDown => "Connection is shutting down"
  | handleClosed => "Backend handle closed"
  | backend reason => "Backend error: " ++ reason
  | io reason => reason
  | keeper rc => "Operation failed with " ++ rc.name

-- Readers take a closed handle for the end of the stream.
def isHandleClosed : Error → Bool
  | handleClosed => true
  | _ => false

end Error

-- A result code other than ok is an error for callers that ask for one.
def ResultCode.check (rc : ResultCode) : Except Error Unit :=
  if rc.isOk then .ok () else .error (.keeper rc)

end Coordination
