import Coordination.Config
import Coordination.Setting.Library

namespace Coordination.Config

open SettingsLibrary

variable [SettingsLibrary]

-- A field of 64 bits as a setting.
def countSetting (key : String) (n : UInt64) : Except LoadError (String × Setting) :=
  match ofCount? n with
  | some v => .ok (key, v)
  | none => .error (.outOfRange key)

-- The layer that a configuration gives: all of its fields.
def layer (c : Config) : Except LoadError Settings := do
  return [
    ← countSetting "connect_timeout_ms" c.connectTimeoutMs,
    ← countSetting "session_timeout_ms" c.sessionTimeoutMs,
    ← countSetting "connect_poll_interval_ms" c.connectPollIntervalMs,
    ← countSetting "dispatch_join_grace_ms" c.dispatchJoinGraceMs,
    ("dispatch_mode", ofWord c.dispatchMode.word),
    ("clear_reads_on_pop", ofSwitch c.clearReadsOnPop)]

-- The variables of the environment that are for the client: `ZK__SESSION_TIMEOUT_MS`, and the like.
def variableStyle : VariableStyle where
  lead := "ZK"
  separator := "__"
  ignoresEmpty := true
  parses := true

def mode? (v : Setting) : Option DispatchMode :=
  let modes := [DispatchMode.thread, .manual]
  (variant? (modes.map DispatchMode.word) v).bind fun word => modes.find? (·.word = word)

-- The field under a key, or its default if nothing is set for it.
def field {α : Type} (key : String) (decode : Setting → Option α) (default : α) (s : Settings) :
    Except LoadError α :=
  match s.get? key with
  | none => .ok default
  | some v => match decode v with
    | some a => .ok a
    | none => .error (.undecodable key)

-- The configuration that settings stand for. Keys that name no field do not count.
def ofSettings (s : Settings) : Except LoadError Config := do
  let c : Config := {}
  return {
    connectTimeoutMs := ← field "connect_timeout_ms" count? c.connectTimeoutMs s
    sessionTimeoutMs := ← field "session_timeout_ms" count? c.sessionTimeoutMs s
    connectPollIntervalMs := ← field "connect_poll_interval_ms" count? c.connectPollIntervalMs s
    dispatchJoinGraceMs := ← field "dispatch_join_grace_ms" count? c.dispatchJoinGraceMs s
    dispatchMode := ← field "dispatch_mode" mode? c.dispatchMode s
    clearReadsOnPop := ← field "clear_reads_on_pop" switch? c.clearReadsOnPop s }

-- Lays a file, if one is given, and the environment over a configuration.
def overlay (c : Config) (file : Option SettingsFile) (vars : List (String × String))
    (order : Nat → Order := fun _ => .asGiven) : Except LoadError Config := do
  let base ← c.layer
  let settings ← match file with
    | none => pure []
    | some f => read f
  ofSettings (merge order [base, settings, environment variableStyle vars])

-- The defaults with a file, if one is given, and the environment over them. Whether the values go
-- together is not looked at.
def load (file : Option SettingsFile) (vars : List (String × String))
    (order : Nat → Order := fun _ => .asGiven) : Except LoadError Config := do
  let mut sources := [← ({} : Config).layer]
  if let some f := file then
    sources := sources ++ [← read f]
  sources := sources ++ [environment variableStyle vars]
  ofSettings (merge order sources)

end Coordination.Config
