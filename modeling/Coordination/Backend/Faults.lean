import Coordination.Backend

namespace Coordination

structure Faulty (β : Type) where
  inner : β
  failInit : Option String := none
  failIssue : Option String := none
  failClose : Option String := none
  -- Every call is refused with this code before it reaches the service.
  refusal : Option ResultCode := none
  -- The failure that ends the stream.
  cut : Option Error := none
  -- The sessions asked for, also those that failed to start.
  inits : List (Target × Duration) := []

namespace Faulty

variable {β : Type} [Backend β]

-- The call answers the failure that is set, else its own result.
def failing (failure : Option String) (result : Except Error Unit) : Except Error Unit :=
  match failure with
  | some reason => .error (.backend reason)
  | none => result

-- A failing start does not touch the service.
def init (target : Target) (timeout : Duration) (f : Faulty β) : Except Error Unit × Faulty β :=
  let f := { f with inits := f.inits ++ [(target, timeout)] }
  match f.failInit with
  | some reason => (.error (.backend reason), f)
  | none =>
    let (result, inner) := Backend.init target timeout f.inner
    (result, { f with inner := inner, cut := none })

def next (f : Faulty β) : Option (Except Error Item × Faulty β) :=
  match Backend.next f.inner, f.cut with
  | some (answer, inner), _ => some (answer, { f with inner := inner })
  | none, some e => some (.error e, { f with cut := none })
  | none, none => none

-- A failing close still releases the service.
def close (f : Faulty β) : Except Error Unit × Faulty β :=
  let (result, inner) := Backend.close f.inner
  (failing f.failClose result, { f with inner := inner })

def issue (id : RequestId) (call : Call) (f : Faulty β) : Except Error CallResult × Faulty β :=
  match f.failIssue, f.refusal with
  | some reason, _ => (.error (.backend reason), f)
  | none, some rc => (.ok ⟨rc, .none⟩, f)
  | none, none =>
    let (result, inner) := Backend.issue id call f.inner
    (result, { f with inner := inner })

instance : Backend (Faulty β) where
  init := init
  next := next
  wake f := { f with inner := Backend.wake f.inner }
  close := close
  state f := Backend.state f.inner
  issue := issue
  session f := Backend.session f.inner
  backlog f := Backend.backlog f.inner + 1

end Faulty
end Coordination
