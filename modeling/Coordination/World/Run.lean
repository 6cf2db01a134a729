import Coordination.World

/-!
Running scripts. `step` lets one party take one small step: the party that waits for a closing
connection lets its dispatch thread go first, else the application moves before the dispatch
threads, and older threads before newer ones. `run` repeats it until nobody can move.
-/
namespace Coordination
namespace World

def deliver (w : World) : World :=
  let (c, records) := w.connection.deliver
  { w with connection := c }.record .delivery records

-- Gives the innermost activation of a party its answer.
def reply (p : Party) (a : Answer) (w : World) : World :=
  match w.frames p with
  | [] => w
  | f :: rest =>
    let w := w.setFrames p ({ f with pending := none } :: rest)
    match f.invocation with
    | some _ => w.note (.answered f.label a)
    | none => { w with answer := some a }

def setPending (p : Party) (pending : Pending) (w : World) : World :=
  match w.frames p with
  | [] => w
  | f :: rest => w.setFrames p ({ f with pending := some pending } :: rest)

def enter (p : Party) (i : Invocation (Callback Receiver)) (w : World) : World :=
  let callback := i.entry.handler
  let view := callback.view i.event
  let (w, script) :=
    match callback.receiver with
    | .handler h => (w.note (.called h.label i.entry.context view), h.script)
    | .reply number => ({ w with replies := w.replies.settle number view }, [])
    | .silent => (w, [])
  w.setFrames p (⟨some i, callback.receiver.label, script, none⟩ :: w.frames p)

-- Routes an event; the flag tells whether there was a handler, which then is entered.
def dispatch (p : Party) (event : Event) (w : World) : Bool × World :=
  match w.connection.enter event with
  | (none, c) => (false, { w with connection := c }.record p.source [event.orphanRecord])
  | (some i, c) => (true, { w with connection := c }.enter p i)

-- After a handler of its own loop, a dispatch thread stops unless there is reason to go on.
def afterEvent (number : Nat) (w : World) : World :=
  match w.thread? number with
  | some t => if t.frames.isEmpty && !w.goesOn t then w.removeThread number else w
  | none => w

def leave (p : Party) (outcome : Outcome) (w : World) : World :=
  match w.frames p with
  | [] => w
  | f :: rest =>
    let w := w.setFrames p rest
    match f.invocation with
    | none => w
    | some i =>
      let w := { w with connection := w.connection.leave i outcome }
      let w := w.record p.source (i.record? outcome).toList
      match p with
      | .application => w
      | .thread number => w.afterEvent number

-- Opens the connection, with its dispatch thread.
def openFor (p : Party) (timeout : Duration) (w : World) : Answer × World :=
  let (result, c, records) := w.connection.start timeout
  let w := { w with connection := c }.record p.source records
  match result with
  | .error e => (.reached (.error e), w)
  | .ok state =>
    (.reached (.ok state), if c.config.dispatchMode = .thread then w.spawn else w)

-- The first half of closing; the rest follows when the dispatch thread has been waited for.
def beginClose (p : Party) (reopen : Option Duration) (unblocking : Bool) (w : World) : World :=
  if w.connection.isIdle then
    match reopen with
    | none => w.reply p (.done (.ok ()))
    | some timeout =>
      let (a, w) := w.openFor p timeout
      w.reply p a
  else
    let (c, delivery, own) := w.connection.quiesce
    let w := { w with connection := c }.record .delivery delivery
    let w := w.record p.source own
    { w with closing := some ⟨p, unblocking⟩ }.setPending p (.closing reopen)

-- The queue's pipe is left to its handles, and its items to a thread that still reads it.
def retireQueue (w : World) : World :=
  match w.connection.queue with
  | none => w
  | some q =>
    { w with
      pipes := w.pipes ++ [q.pipe]
      threads := w.threads.map fun t =>
        if t.leftover.isNone then { t with leftover := some q.toList } else t }

-- The second half of closing.
def endClose (p : Party) (w : World) : World :=
  let w := { w.retireQueue with closing := none }
  let (result, c, records) := w.connection.release
  let w := { w with connection := c }.record p.source records
  match w.frames p with
  | { pending := some (.closing (some timeout)), .. } :: _ =>
    match result with
    | .error e => w.reply p (.reached (.error e))
    | .ok () =>
      let (a, w) := w.openFor p timeout
      w.reply p a
  | _ => w.reply p (.done result)

def detachRecord (w : World) : Record :=
  ⟨.warn, "dispatch thread did not stop within the grace period, detaching it",
    [("grace_ms", toString w.connection.config.dispatchJoinGraceMs.toNat)]⟩

-- Instructions that have to wait while another party is closing the connection.
def isLifecycle : Instruction → Bool
  | .openSession _ | .reopen _ | .close _ => true
  | _ => false

def register (f : Registry (Callback Receiver) → Registry (Callback Receiver)) (w : World) :
    Answer × World :=
  (.nothing, w.withRegistry f)

def setFault (point : FaultPoint) (message : Option String) (w : World) : World :=
  match point with
  | .init => w.withBackend ({ · with failInit := message })
  | .issue => w.withBackend ({ · with failIssue := message })
  | .close => w.withBackend ({ · with failClose := message })

-- The receiver of a callback: the handler, or the reply that waits under a new name.
def receiverFor (callback : Option Handler) (awaitedAs : Option String) (w : World) :
    Option Receiver × World :=
  match awaitedAs with
  | none => (callback.map .handler, w)
  | some slot =>
    let number := w.replies.length
    (some (.reply number), { w with
      replies := w.replies ++ [none]
      slots := (slot, number) :: w.slots.filter (·.1 ≠ slot) })

def submit (op : Operation) (o : CallOptions Handler) (awaitedAs : Option String) (w : World) :
    Except Error Reply × World :=
  let (callback, w) := w.receiverFor o.callback awaitedAs
  let (result, c) := Client.submit op (o.receivedBy callback) w.connection
  (result, { w with connection := c })

-- Instructions that are answered at once.
def answerTo (p : Party) (i : Instruction) (w : World) : Answer × World :=
  match i with
  | .unblock => (.nothing, w.unblock)
  | .allocate completion watcher =>
    let (id, registry) := w.registry.allocate (completion.map (·.plain)) (watcher.map (·.plain))
    (.id id, w.withRegistry fun _ => registry)
  | .resolveCompletion id =>
    let (entry, registry) := w.registry.resolveCompletion id
    (.entry (entry.map Entry.view), w.withRegistry fun _ => registry)
  | .peekCompletion id => (.entry ((w.registry.peekCompletion id).map Entry.view), w)
  | .resolveWatcher id type =>
    let (entry, registry) := w.registry.resolveWatcher id type
    (.entry (entry.map Entry.view), w.withRegistry fun _ => registry)
  | .restoreCompletion id entry => w.register (·.restoreCompletion id entry.plain)
  | .restoreWatcher id entry => w.register (·.restoreWatcher id entry.plain)
  | .installGlobal entry => w.register (·.installGlobal entry.plain)
  | .discard id => w.register (·.discard id)
  | .discardWatcher id => w.register (·.discardWatcher id)
  | .clear entry =>
    let (dropped, registry) := w.registry.clear entry.plain
    (.cleared dropped, w.withRegistry fun _ => registry)
  | .has id => (.flags (w.registry.hasCompletion id) (w.registry.hasWatcher id), w)
  | .service step =>
    let (a, backend) := w.connection.backend.perform step
    (a, w.withBackend fun _ => backend)
  | .setFault point message => (.nothing, w.setFault point message)
  | .refuse rc => (.nothing, w.withBackend ({ · with refusal := rc }))
  | .cutStream failure =>
    (.nothing, if w.connection.delivering then w.withBackend ({ · with cut := some failure }) else w)
  | .inits => (.inits w.connection.backend.inits, w)
  | .openSession timeout => w.openFor p timeout
  | .assertOpen => (.done w.connection.assertOpen, w)
  | .info => (.info (w.info p), w)
  | .clientInfo => (.clientInfo (w.info p), w)
  | .next =>
    let (event, c) := w.connection.nextEvent
    (.event event, { w with connection := c })
  | .readiness =>
    let (given, c) := w.connection.handOut
    if given then
      (.slot (some w.handles.length),
        { w with connection := c, handles := w.handles ++ [w.pipes.length] })
    else (.slot none, { w with connection := c })
  | .consume slot max =>
    match w.pipe? slot with
    | none => (.slot none, w)
    | some pipe =>
      let (n, pipe) := pipe.consumeUpTo max
      (.slot (some n), w.setPipe slot pipe)
  | .ready slot => (.readable ((w.pipe? slot).map Pipe.isReadable), w)
  | .submit op options awaitedAs checked =>
    let (result, w) := w.submit op options awaitedAs
    (.reply result checked, w)
  | .awaitReply slot =>
    let (awaited, w) := w.askFor slot
    (.awaited awaited, w)
  | .fail _ | .panic _ | .block | .reopen _ | .close _ | .dispatchEvent _ | .dispatchOne
  | .dispatchUpTo _ => (.nothing, w)

def perform (p : Party) (i : Instruction) (w : World) : World :=
  match i with
  | .fail e => w.leave p (.failed e)
  | .panic text => w.leave p (.panicked text)
  | .block =>
    match p with
    | .application => w
    | .thread number => w.modifyThread number ({ · with blocked := true })
  | .close unblocking => w.beginClose p none unblocking
  | .reopen timeout => w.beginClose p (some timeout) false
  | .dispatchOne => w.setPending p (.draining 1 0 true)
  | .dispatchUpTo max => w.setPending p (.draining max 0 false)
  | .dispatchEvent event =>
    let (found, w) := (w.setPending p .dispatching).dispatch p event
    if found then w else w.reply p (.flag false)
  | i =>
    let (a, w) := w.answerTo p i
    w.reply p a

def resume (p : Party) (pending : Pending) (w : World) : World :=
  match pending with
  | .dispatching => w.reply p (.flag true)
  | .closing _ => w
  | .draining left taken single =>
    let answer : Answer := if single then .flag (0 < taken) else .count taken
    match left with
    | 0 => w.reply p answer
    | left + 1 =>
      match w.connection.nextEvent with
      | (none, c) => { w with connection := c }.reply p answer
      | (some event, c) =>
        let w := { w with connection := c }.setPending p (.draining left (taken + 1) single)
        (w.dispatch p event).2

def stepFrame (p : Party) (f : Activation) (rest : List Activation) (w : World) : World :=
  match f.pending, f.script with
  | some pending, _ => w.resume p pending
  | none, [] => w.leave p .ok
  | none, i :: script => (w.setFrames p ({ f with script := script } :: rest)).perform p i

-- A dispatch thread between two handlers takes the next item.
def stepLoop (t : Thread) (w : World) : World :=
  match w.pop t with
  | (none, w) => w
  | (some .shutdown, w) => w.removeThread t.number
  | (some (.event event), w) => (w.dispatch (.thread t.number) event).2.afterEvent t.number

def stepThread (t : Thread) (w : World) : World :=
  match t.frames with
  | [] => w.stepLoop t
  | f :: rest => w.stepFrame (.thread t.number) f rest

-- Whether an activation can take a step.
def isReady (f : Activation) (w : World) : Bool :=
  match f.pending, f.script with
  | some (.closing _), _ => false
  | some _, _ => true
  | none, i :: _ => !(isLifecycle i && w.closing.isSome)
  | none, [] => true

def canStep (t : Thread) (w : World) : Bool :=
  match t.frames with
  | [] => !(w.waiting t).isEmpty
  | f :: _ => !t.blocked && w.isReady f

-- The party that is closing waits for the dispatch thread, unless it is that thread.
def stepClosing (closing : Closing) (w : World) : World :=
  match w.current with
  | none => w.endClose closing.party
  | some t =>
    if closing.party = .thread t.number then w.endClose closing.party
    else if w.canStep t then w.stepThread t
    else if closing.unblocking then
      { w.unblock with closing := some { closing with unblocking := false } }
    else (w.record closing.party.source [w.detachRecord]).endClose closing.party

-- One small step; `none` when nobody can move.
def step (w : World) : Option World :=
  match w.closing, w.application with
  | some closing, _ => some (w.stepClosing closing).deliver
  | none, f :: rest => some (w.stepFrame .application f rest).deliver
  | none, [] =>
    match w.threads.find? (w.canStep ·) with
    | none => none
    | some t => some (w.stepThread t).deliver

def run : Nat → World → World
  | 0, w => w
  | n + 1, w =>
    match w.step with
    | none => w
    | some w => run n w

-- The application carries out one instruction, and what follows from it happens.
def execute (fuel : Nat) (i : Instruction) (w : World) : World :=
  run fuel { w.cleared with application := [⟨none, "", [i], none⟩] }

def ofBuilder (fuel : Nat) (b : ClientBuilder) (backend : Faulty Memory)
    (global : Entry (Callback Receiver)) : Except (Error × List Record) World :=
  match b.build backend global with
  | (.error e, records) => .error (e, records)
  | (.ok c, records) =>
    let w := (ofConnection c).record .application records
    .ok (run fuel (if c.config.dispatchMode = .thread then w.spawn else w).deliver)

end World
end Coordination
