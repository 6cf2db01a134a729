import Coordination.Registry

namespace Coordination

namespace WatchEvent

def describe (w : WatchEvent) : String :=
  "WatchEvent \x7b req_id: RequestId(" ++ toString w.id.number ++ "), event_type: " ++ w.type.name ++
    ", state: " ++ w.state.name ++ ", path: " ++ Text.quoteOption w.path ++ " \x7d"

-- The notice with the context of its handler.
def describeNotification (w : WatchEvent) (context : Option Context) : String :=
  "Notification \x7b event: Watch(" ++ w.describe ++ "), has_context: " ++
    toString context.isSome ++ " \x7d"

end WatchEvent

-- An entry shows only whether it has a context.
def Entry.describe {η : Type} (e : Entry η) : String :=
  "HandlerEntry \x7b has_context: " ++ toString e.context.isSome ++ ", .. \x7d"

end Coordination
