namespace Coordination

inductive ResultCode where
  | ok
  | systemError
  | runtimeInconsistency
  | dataInconsistency
  | connectionLoss
  | marshallingError
  | unimplemented
  | operationTimeout
  | badArguments
  | invalidState
  | apiError
  | noNode
  | noAuth
  | badVersion
  | noChildrenForEphemerals
  | nodeExists
  | notEmpty
  | sessionExpired
  | invalidCallback
  | invalidAcl
  | authFailed
  | closing
  | nothing
  | sessionMoved
  | unknown (code : Int)
  deriving DecidableEq, Repr, Inhabited

namespace ResultCode

-- The codes with a name: number, code, name.
def known : List (Int × ResultCode × String) := [
  (0, ok, "Ok"),
  (-1, systemError, "SystemError"),
  (-2, runtimeInconsistency, "RuntimeInconsistency"),
  (-3, dataInconsistency, "DataInconsistency"),
  (-4, connectionLoss, "ConnectionLoss"),
  (-5, marshallingError, "MarshallingError"),
  (-6, unimplemented, "Unimplemented"),
  (-7, operationTimeout, "OperationTimeout"),
  (-8, badArguments, "BadArguments"),
  (-9, invalidState, "InvalidState"),
  (-100, apiError, "ApiError"),
  (-101, noNode, "NoNode"),
  (-102, noAuth, "NoAuth"),
  (-103, badVersion, "BadVersion"),
  (-108, noChildrenForEphemerals, "NoChildrenForEphemerals"),
  (-110, nodeExists, "NodeExists"),
  (-111, notEmpty, "NotEmpty"),
  (-112, sessionExpired, "SessionExpired"),
  (-113, invalidCallback, "InvalidCallback"),
  (-114, invalidAcl, "InvalidAcl"),
  (-115, authFailed, "AuthFailed"),
  (-116, closing, "Closing"),
  (-117, nothing, "Nothing"),
  (-118, sessionMoved, "SessionMoved")]

def ofCode (n : Int) : ResultCode :=
  match known.find? (·.1 == n) with
  | some (_, rc, _) => rc
  | none => unknown n

def code (rc : ResultCode) : Int :=
  match rc, known.find? (·.2.1 == rc) with
  | unknown n, _ => n
  | _, some (n, _) => n
  | _, none => 0

def name (rc : ResultCode) : String :=
  match rc, known.find? (·.2.1 == rc) with
  | unknown n, _ => "Unknown(" ++ toString n ++ ")"
  | _, some (_, _, text) => text
  | _, none => ""

def isOk (rc : ResultCode) : Bool :=
  rc == ok

end ResultCode
end Coordination
