namespace Coordination

inductive Level where
  | info
  | warn
  | error
  deriving DecidableEq, Repr, Inhabited

namespace Level

def name : Level → String
  | info => "INFO"
  | warn => "WARN"
  | error => "ERROR"

end Level

structure Record where
  level : Level
  message : String
  fields : List (String × String) := []
  deriving DecidableEq, Repr, Inhabited

-- The threads that write records: the application's, the delivery thread, a dispatch thread.
inductive Source where
  | application
  | delivery
  | dispatch
  deriving DecidableEq, Repr, Inhabited

abbrev Log := List (Source × Record)

namespace Log

def ofSource (source : Source) (log : Log) : List Record :=
  log.filterMap fun (s, r) => if s = source then some r else none

-- All records: the application's first, then the delivery thread's, then the dispatch threads'.
def bySource (log : Log) : List Record :=
  log.ofSource .application ++ log.ofSource .delivery ++ log.ofSource .dispatch

end Log
end Coordination
