import Coordination.Script

namespace Coordination

def Receiver.settles (number : Nat) : Receiver → Bool
  | .reply n => n = number
  | _ => false

-- Whether a callback that settles the reply is still registered.
def Registry.awaits (number : Nat) (r : Registry (Callback Receiver)) : Bool :=
  r.completions.toList.any fun (_, e) => e.handler.receiver.settles number

-- The options of a call as the client takes them, with this receiver of its callback.
def CallOptions.receivedBy (callback : Option Receiver) (o : CallOptions Handler) :
    CallOptions Receiver where
  callback := callback
  callbackContext := o.callbackContext
  watcher := o.watcher.map .handler
  watcherContext := o.watcherContext

abbrev Replies := List (Option Reply)

namespace Replies

-- Settles a reply with the first completion; session notices do not.
def settle (number : Nat) (event : Event) (rs : Replies) : Replies :=
  match event, rs[number]? with
  | .completion c, some none => rs.set number (some (.ofCompletion c))
  | _, _ => rs

def ask (number : Nat) (r : Registry (Callback Receiver)) (rs : Replies) : Awaited :=
  match rs[number]? with
  | some (some reply) => .settled (.ok reply)
  | _ => if r.awaits number then .pending else .settled (.error .shuttingDown)

end Replies
end Coordination
