import Coordination.Proofs.Client.Awaited
import Coordination.Proofs.Client.Settling

namespace Coordination

namespace Memory

variable {m : Memory} {id : RequestId} {calls : List (RequestId × Call)}

-- The service with these calls written down.
def recording (calls : List (RequestId × Call)) (m : Memory) : Memory :=
  { m with calls := calls }

-- No operation looks at the calls before it.
theorem execute_recording (calls : List (RequestId × Call)) (op : Operation) :
    (m.recording calls).execute id op =
      ((m.execute id op).1, (m.execute id op).2.recording calls) := by
  have hn : (m.recording calls).nodes = m.nodes := rfl
  have hf (path : String) : (m.recording calls).fullPath path = m.fullPath path := rfl
  cases op
  case «exists» path watch =>
    simp only [execute, doesExist, hf]
    cases watch <;> simp only [Bool.false_eq_true, if_false, if_true, hn] <;> split <;> rfl
  case get path watch | getChildren path watch =>
    simp only [execute, get, getChildren, hf, hn]
    split <;> cases watch <;> rfl
  case getAcl =>
    simp only [execute, getAcl, hf, hn]
    split <;> rfl
  case set | setAcl =>
    simp only [execute, set, setAcl, hf, hn]
    repeat' split
    all_goals rfl
  case create | delete =>
    simp only [execute, create, delete, hf, hn]
    repeat' split
    all_goals first | rfl | contradiction

theorem emitWatches_recording (events : List WatchEvent) :
    (m.recording calls).emitWatches events = (m.emitWatches events).recording calls := by
  unfold emitWatches
  induction events generalizing m
  case nil               => rfl
  case cons event rest ih => exact ih (m := m.emit (.watch event))

-- Both ways the operation runs its course and what it has set off is reported. Then it depends on
-- the way how the call is answered, and what is written down of it.
theorem issue_modes (h : m.IsOpen) (hs : m.state = .connected) (prompt : m.holding = false)
    (id : RequestId) (op : Operation) :
    ∃ (outcome : Outcome) (next : Memory),
      Emits m (outcome.fired.map .watch) next ∧
      m.issue id ⟨op, .sync⟩ = (.ok ⟨outcome.rc, outcome.payload⟩, next) ∧
      m.issue id ⟨op, .async⟩ = (.ok ⟨.ok, .none⟩,
        (next.emit (.completion ⟨id, outcome.rc, some op.path, outcome.payload⟩)).recording
          (m.calls ++ [(id, ⟨op, .async⟩)])) := by
  have he := m.execute_executes id op
  have hl (mode : CallMode) :
      m.logged id ⟨op, mode⟩ = m.recording (m.calls ++ [(id, ⟨op, mode⟩)]) := rfl
  let outcome := (m.execute id op).1
  let executed := (m.execute id op).2
  let next := (executed.emitWatches outcome.fired).recording (m.calls ++ [(id, ⟨op, .sync⟩)])
  have hh : (executed.emitWatches outcome.fired).holding = false := by
    rw [(Talks.emitWatches outcome.fired).eq]
    exact he.holding.trans prompt
  refine ⟨outcome, next, ?_, ?_, ?_⟩
  case refine_1 => exact (Emits.of_channel he.channel).trans (.emitWatches outcome.fired)
  case refine_2 =>
    simp only [issue_eq h hs, hl, execute_recording, answered, emitWatches_recording]
    rfl
  case refine_3 =>
    simp only [issue_eq h hs, hl, execute_recording, answered, emitWatches_recording, complete]
    exact congrArg (Prod.mk _) (if_neg <| Bool.eq_false_iff.mp hh)

end Memory

-- `r'` waits for the answer to a request that `r` has got already. The watcher of the request is
-- gone from `r`, unless it is kept.
structure Registry.Owing {ε : Type} (id : RequestId) (entry : Entry (Callback ε)) (kept : Bool)
    (r r' : Registry (Callback ε)) : Prop where
  nextId : r'.nextId = r.nextId
  owed   : r'.get? (.completion id) = some entry
  rest   : ∀ s, r.get? s =
    if s = .completion id ∨ s = .watcher id ∧ kept = false then none else r'.get? s

variable {ε : Type}

namespace Registry

theorem Bounded.owing {r : Registry (Callback ε)} (b : r.Bounded) (entry : Entry (Callback ε))
    (watcher : Option (Entry (Callback ε))) (kept : Bool) :
    Owing r.nextId entry kept (r.enroll none watcher kept) (r.enroll (some entry) watcher true) := by
  have hc : r.get? (.completion r.nextId) = none := b.absent rfl
  have hw : r.get? (.watcher r.nextId) = none := b.absent rfl
  constructor
  case nextId => rw [b.enroll_eq, b.enroll_eq]
  case owed   => rw [get?_enroll_completion hc, if_pos rfl, if_pos rfl]
  case rest =>
    intro s
    cases s
    case completion id =>
      rw [get?_enroll_completion hc, get?_enroll_completion hc]
      by_cases h : id = r.nextId <;> simp [h]
    case watcher id =>
      rw [get?_enroll_watcher hw b.isGlobal_nextId, get?_enroll_watcher hw b.isGlobal_nextId]
      by_cases h : id = r.nextId <;> cases kept <;> simp [h]

namespace Owing

variable {id : RequestId} {entry : Entry (Callback ε)} {kept : Bool}
  {d d' : Dispatcher (Callback ε)}

theorem serve (h : Owing id entry kept d.registry d'.registry) {event : Event}
    (he : event.answers id = false) :
    Owing id entry kept (d.serve event).2.registry (d'.serve event).2.registry := by
  have forgotten (s : Slot) : (d.start event).1.any (·.entry.handler.forgets event s) =
      (d'.start event).1.any (·.entry.handler.forgets event s) := by
    cases event
    case watch => simp [Callback.forgets]
    case completion c =>
      have hc : c.id ≠ id := by simpa [Event.answers] using he
      have hg := h.rest (.completion c.id)
      rw [if_neg (by simp [hc])] at hg
      rw [Dispatcher.start_completion, Dispatcher.start_completion, hg]
  constructor
  case nextId => rw [Dispatcher.serve_nextId, Dispatcher.serve_nextId, h.nextId]
  case owed =>
    have hs : event.spends (.completion id) = false := by
      cases event
      case watch        => rfl
      case completion c => simpa [Event.answers, Event.spends, eq_comm] using he
    rw [Dispatcher.get?_serve, hs, h.owed]
    simp [Callback.forgets_completion]
  case rest =>
    intro s
    rw [Dispatcher.get?_serve, Dispatcher.get?_serve, forgotten, h.rest s]
    split <;> split <;> rfl

theorem serveAll (h : Owing id entry kept d.registry d'.registry) {events : List Event}
    (he : ∀ e ∈ events, e.answers id = false) :
    Owing id entry kept (d.serveAll events).2.registry (d'.serveAll events).2.registry := by
  induction events generalizing d d'
  case nil => exact h
  case cons event events ih =>
    have ⟨he, hr⟩ := List.forall_mem_cons.mp he
    exact ih (h.serve he) hr

theorem answered (h : Owing id entry kept d.registry d'.registry) {answer : CompletionEvent}
    (hid : answer.id = id) (hf : ∀ s, entry.handler.forgets (.completion answer) s =
      (s = .watcher id && !kept)) :
    (d'.serve (.completion answer)).1 = some ⟨.completion, .completion answer, entry⟩ ∧
      (d'.serve (.completion answer)).2.registry = d.registry := by
  have hs : (d'.start (.completion answer)).1 =
      some ⟨.completion, .completion answer, entry⟩ := by
    rw [Dispatcher.start_completion, hid, h.owed, Option.map_some]
  refine ⟨Dispatcher.serve_fst.trans hs, ext_get? ?_ fun s => ?_⟩
  case refine_1 => rw [Dispatcher.serve_nextId, h.nextId]
  case refine_2 =>
    rw [Dispatcher.get?_serve, hs, h.rest s]
    simp [hf, Event.spends, hid]

end Owing

end Registry

namespace Connection

variable {c c' : Connection Memory (Callback ε)} {answer : CompletionEvent}
  {entry : Entry (Callback ε)} {kept : Bool}

-- `c'` lags behind `c` by the answer to a request, which is the last event on its way.
structure Lags (answer : CompletionEvent) (entry : Entry (Callback ε)) (kept : Bool)
    (c c' : Connection Memory (Callback ε)) : Prop where
  flowing    : c.Flowing
  flowing'   : c'.Flowing
  upcoming   : c'.upcoming = c.upcoming ++ [.completion answer]
  unanswered : ∀ e ∈ c.upcoming, e.answers answer.id = false
  owing      : Registry.Owing answer.id entry kept c.registry c'.registry
  backend    : { c'.backend with channel := c.backend.channel } =
    c.backend.recording c'.backend.calls

-- Two clients have come to rest in the same state, but for what their services have written down of
-- the calls. The second has dispatched the same events as the first, and then made the call `i`.
structure Meets (i : Invocation (Callback ε))
    (x x' : List (Event × Option (Invocation (Callback ε))) × Connection Memory (Callback ε)) :
    Prop where
  called   : ∃ before, x'.1 = before ++ [(i.event, some i)] ∧
    before.map Prod.fst = x.1.map Prod.fst ∧ ∀ call ∈ before, call.1.answers i.event.id = false
  drained  : x.2.upcoming = [] ∧ x'.2.upcoming = []
  registry : x'.2.registry = x.2.registry
  backend  : x'.2.backend = x.2.backend.recording x'.2.backend.calls

theorem Flowing.settle_upcoming (f : c.Flowing) : c.settle.2.upcoming = [] := by
  have ⟨q, hq, hs⟩ := f.settle_eq
  rw [hs]
  simp [upcoming, queued, hq]

theorem Lags.meets (l : Lags answer entry kept c c')
    (hf : ∀ s, entry.handler.forgets (.completion answer) s = (s = .watcher answer.id && !kept)) :
    Meets ⟨.completion, .completion answer, entry⟩ c.settle c'.settle := by
  have ⟨_, _, hs⟩ := l.flowing.settle_eq
  have ⟨_, _, hs'⟩ := l.flowing'.settle_eq
  -- The events before the answer leave the difference as it is, and the answer takes it away.
  rw [l.upcoming, Dispatcher.serveAll_append, Dispatcher.serveAll_singleton] at hs'
  have ⟨hc, hr⟩ := (l.owing.serveAll l.unanswered).answered rfl hf
  constructor
  case called =>
    refine ⟨(c'.dispatcher.serveAll c.upcoming).1, ?_, ?_, fun call h => ?_⟩
    case refine_1 => rw [hs', hc]
    case refine_2 => rw [hs, Dispatcher.serveAll_events, Dispatcher.serveAll_events]
    case refine_3 =>
      have he : (c'.dispatcher.serveAll c.upcoming).1.map Prod.fst = c.upcoming :=
        Dispatcher.serveAll_events
      apply l.unanswered
      rw [← he]
      exact List.mem_map_of_mem h
  case drained  => exact ⟨l.flowing.settle_upcoming, l.flowing'.settle_upcoming⟩
  case registry => rw [hs, hs']; exact hr
  case backend =>
    rw [hs, hs']
    exact congrArg (fun m : Memory => { m with channel := some [] }) l.backend

end Connection

-- The call made without a callback, and with one.
def CallOptions.sync (o : CallOptions ε) : CallOptions ε :=
  { o with callback := none }

def CallOptions.async (receiver : ε) (o : CallOptions ε) : CallOptions ε :=
  { o with callback := some receiver }

namespace Client

open Connection (Turn Orderly Accounted Lags Meets)

variable {c : Connection Memory (Callback ε)} {op : Operation} {o : CallOptions ε} {receiver : ε}

-- The reply to a synchronous call, and the call of the callback for the same call made
-- asynchronously. The answer of the service is stripped once for either.
structure Agrees (op : Operation) (o : CallOptions ε) (receiver : ε)
    (c : Connection Memory (Callback ε)) (reply : Reply) (i : Invocation (Callback ε)) : Prop where
  replied  : (submit op o.sync c).1 = .ok reply
  accepted : (submit op (o.async receiver) c).1 = .ok ⟨reply.id, .ok, .none⟩
  kind     : i.kind = .completion
  entry    : i.entry.handler.receiver = receiver ∧ i.entry.context = o.callbackContext
  seen     : i.entry.handler.view i.event =
    .completion ⟨reply.id, reply.rc, some op.path, reply.payload⟩
  stripped : ∃ payload, i.event = .completion ⟨reply.id, reply.rc, some op.path, payload⟩ ∧
    reply.payload = if op.isCreate then payload.strip c.target else payload
  meets    : Meets i (submit op o.sync c).2.settle (submit op (o.async receiver) c).2.settle

-- What the callback makes the client forget is what a synchronous call forgets at once.
theorem forgets_completionEntry {answer : CompletionEvent} {target : Target}
    {entry : Entry (Callback ε)} (h : completionEntry op target (o.async receiver) = some entry)
    (hg : answer.id.isGlobal = false) (s : Slot) :
    entry.handler.forgets (.completion answer) s =
      (s = .watcher answer.id && !keeps op o.sync answer.rc) := by
  cases h
  have hk : keeps op o.sync answer.rc = (!o.hasWatcher || watchWasSet op.isExists answer.rc) := rfl
  have hw : (o.async receiver).hasWatcher = o.hasWatcher := rfl
  rw [hk]
  by_cases hs : s = .watcher answer.id
  case neg => cases ho : o.hasWatcher <;> simp [Callback.forgets, hw, ho, hs]
  case pos =>
    subst hs
    cases ho : o.hasWatcher <;> simp [Callback.forgets, hw, ho, Slot.isSingleUse, hg]

theorem accept_of_toOption {hasWatcher : Bool} (h : (accept op hasWatcher c).toOption = some ()) :
    accept op hasWatcher c = .ok () := by
  cases ha : accept op hasWatcher c
  case error => rw [ha] at h; cases h
  case ok    => rfl

theorem submit_sync {result : CallResult} {next : Memory}
    (accepted : accept (op.watching o.hasWatcher) o.hasWatcher c = .ok ())
    (h : c.backend.issue c.registry.nextId ⟨op.watching o.hasWatcher, .sync⟩ = (.ok result, next)) :
    submit op o.sync c =
      (.ok (reply (op.watching o.hasWatcher) c.registry.nextId c.target result), { c with
        backend := next
        dispatcher.registry := c.registry.enroll none (watcherEntry o)
          (keeps (op.watching o.hasWatcher) o.sync result.rc) }) := by
  have hi : Backend.issue c.registry.nextId (call op o.sync) c.backend = _ := h
  rw [submit_accepted (o := o.sync) accepted, hi]
  rfl

theorem submit_async_ok {next : Memory} {entry : Entry (Callback ε)}
    (accepted : accept (op.watching o.hasWatcher) o.hasWatcher c = .ok ())
    (h : c.backend.issue c.registry.nextId ⟨op.watching o.hasWatcher, .async⟩ =
      (.ok ⟨.ok, .none⟩, next))
    (he : completionEntry (op.watching o.hasWatcher) c.target (o.async receiver) = some entry) :
    submit op (o.async receiver) c = (.ok ⟨c.registry.nextId, .ok, .none⟩, { c with
      backend := next
      dispatcher.registry := c.registry.enroll (some entry) (watcherEntry o) true }) := by
  have hi : Backend.issue c.registry.nextId (call op (o.async receiver)) c.backend = _ := h
  have hr : reply (op.watching o.hasWatcher) c.registry.nextId c.target ⟨.ok, .none⟩ =
      ⟨c.registry.nextId, .ok, .none⟩ := by
    unfold reply
    split <;> rfl
  rw [submit_accepted (o := o.async receiver) accepted, hi, ← hr, ← he]
  rfl

-- After the call, the client that waits for the callback lags behind by the answer.
theorem submit_lags (f : c.Flowing) (b : c.registry.Bounded)
    (unanswered : ∀ e ∈ c.upcoming, e.answers c.registry.nextId = false)
    (accepted : accept (op.watching o.hasWatcher) o.hasWatcher c = .ok ())
    (prompt : c.backend.holding = false) {entry : Entry (Callback ε)}
    (he : completionEntry (op.watching o.hasWatcher) c.target (o.async receiver) = some entry) :
    ∃ result : CallResult,
      (submit op o.sync c).1 =
        .ok (reply (op.watching o.hasWatcher) c.registry.nextId c.target result) ∧
      (submit op (o.async receiver) c).1 = .ok ⟨c.registry.nextId, .ok, .none⟩ ∧
      Lags ⟨c.registry.nextId, result.rc, some op.path, result.payload⟩ entry
        (keeps (op.watching o.hasWatcher) o.sync result.rc) (submit op o.sync c).2
        (submit op (o.async receiver) c).2 := by
  have ⟨_, _, connected⟩ := Connection.assertOpen_ok (accept_ok accepted).right
  have ⟨outcome, next, emits, hs, ha⟩ := Memory.issue_modes f.isOpen connected prompt
    c.registry.nextId (op.watching o.hasWatcher)
  have fs := f.submit op o.sync
  have fa := f.submit op (o.async receiver)
  rw [submit_sync accepted hs] at fs ⊢
  rw [submit_async_ok accepted ha he] at fa ⊢
  rw [Operation.watching_path] at fa ⊢
  have us := f.upcoming_emits emits
  refine ⟨⟨outcome.rc, outcome.payload⟩, rfl, rfl, ?_⟩
  constructor
  case flowing  => exact fs
  case flowing' => exact fa
  case owing    => exact b.owing ..
  case backend  => rfl
  case upcoming =>
    have ua := f.upcoming_emits <| emits.trans <| .emit <|
      .completion ⟨c.registry.nextId, outcome.rc, some op.path, outcome.payload⟩
    rw [← List.append_assoc, ← us] at ua
    exact ua
  case unanswered =>
    intro e h
    rcases List.mem_append.mp <| us ▸ h with h | h
    case inl => exact unanswered e h
    case inr =>
      obtain ⟨_, _, rfl⟩ := List.mem_map.mp h
      rfl

theorem reply_watching {watch : Bool} {id : RequestId} {target : Target} {result : CallResult} :
    reply (op.watching watch) id target result = reply op id target result := by
  have h : (op.watching watch).isCreate = op.isCreate := by cases op <;> rfl
  rw [reply, reply, h]

theorem agree_of_flowing (f : c.Flowing) (b : c.registry.Bounded)
    (accepted : accept (op.watching o.hasWatcher) o.hasWatcher c = .ok ())
    (prompt : c.backend.holding = false)
    (unanswered : ∀ e ∈ c.upcoming, e.answers c.registry.nextId = false) :
    ∃ reply i, Agrees op o receiver c reply i := by
  have ⟨entry, he, hr, hv⟩ :
      ∃ entry, completionEntry (op.watching o.hasWatcher) c.target (o.async receiver) = some entry ∧
        entry.handler.receiver = receiver ∧ ∀ answer : CompletionEvent,
          entry.handler.reply answer =
            reply op answer.id c.target ⟨answer.rc, answer.payload⟩ :=
    of_completionEntry rfl rfl
  have ⟨result, hs, ha, lags⟩ := submit_lags f b unanswered accepted prompt he
  have hc : entry.context = o.callbackContext := by cases he; rfl
  rw [reply_watching] at hs
  refine ⟨_, _, hs, ha, rfl, ⟨hr, hc⟩, ?_, ⟨result.payload, rfl, rfl⟩,
    lags.meets (forgets_completionEntry he b.isGlobal_nextId)⟩
  rw [Callback.view_completion, hv]
  rfl

-- Whatever a client has been through, a call comes to the same whichever way it is made, if
-- completions are not kept back and nothing on the way to the client claims to be the answer.
theorem modes_agree {target : Target} {config : Config} {m : Memory}
    {global : Entry (Callback ε)} {past : List (Turn ε)} :
    let c := (Connection.new target config m global).turns past
    Orderly [] (.new target config m global) past →
    accept (op.watching o.hasWatcher) o.hasWatcher c = .ok () → c.backend.holding = false →
    (∀ e ∈ c.upcoming, e.answers c.registry.nextId = false) →
    ∃ reply i, Agrees op o receiver c reply i := by
  intro c orderly accepted prompt unanswered
  obtain ⟨running, opened, _⟩ := Connection.assertOpen_ok (accept_ok accepted).right
  have flowing : c.Flowing := Connection.turns_flowing past running opened
  have arises : c.registry.Arises := Accounted.new.turns orderly
  exact agree_of_flowing flowing arises.bounded accepted prompt unanswered

-- A session below a chroot in which the children of the root are watched.
def listing : Connection Memory (Callback Unit) :=
  (Connection.new ⟨"localhost/app", ["localhost"], some "/app"⟩ {} (.new 0)
    ⟨{ receiver := () }, none⟩).turns past
where
  past : List (Turn Unit) := [
    .open ⟨0⟩,
    .act (.submit (.getChildren "/" true) { callback := some (), watcher := some () }),
    .act .deliver,
    .act .dispatch]

theorem modes_agree_chrooted :
    accept (.create "/x" ByteArray.empty Acl.openUnsafe 0) false listing = .ok () ∧
      listing.backend.holding = false ∧
      (∀ e ∈ listing.upcoming, e.answers listing.registry.nextId = false) ∧
      ∃ i, Agrees (.create "/x" ByteArray.empty Acl.openUnsafe 0)
        { callbackContext := some (.number 7) } () listing
        ⟨⟨2⟩, .ok, .string (some "/x")⟩ i := by
  have orderly : Orderly [] (Connection.new ⟨"localhost/app", ["localhost"], some "/app"⟩ {}
      (Memory.new 0) ⟨{ receiver := () }, none⟩) listing.past :=
    .of_ne_finish (by simp [listing.past])
  have accepted : accept (.create "/x" ByteArray.empty Acl.openUnsafe 0) false listing = .ok () :=
    accept_of_toOption (by decide +kernel)
  have prompt : listing.backend.holding = false := by decide +kernel
  have unanswered : ∀ e ∈ listing.upcoming, e.answers listing.registry.nextId = false := by
    decide +kernel
  have ⟨reply, i, agrees⟩ : ∃ reply i, Agrees (.create "/x" ByteArray.empty Acl.openUnsafe 0)
      { callbackContext := some (.number 7) } () listing reply i :=
    modes_agree orderly accepted prompt unanswered
  have replied : (submit (.create "/x" ByteArray.empty Acl.openUnsafe 0)
      { callbackContext := some (.number 7) } listing).1.toOption =
        some ⟨⟨2⟩, .ok, .string (some "/x")⟩ := by decide +kernel
  refine ⟨accepted, prompt, unanswered, i, ?_⟩
  have hr : some reply = some _ := (congrArg Except.toOption agrees.replied).symm.trans replied
  exact Option.some.inj hr ▸ agrees

-- The service is made to send an answer to a call that is yet to be made.
def forged : Connection Memory (Callback Unit) :=
  (Connection.new ⟨"localhost", ["localhost"], none⟩ {} (.new 0) ⟨{ receiver := () }, none⟩).turns
    past
where
  past : List (Turn Unit) := [
    .open ⟨0⟩,
    .act (.hook (.inject (.completion ⟨⟨1⟩, .noNode, some "/", .data none none⟩)) rfl)]

-- The callback takes that answer for its own.
theorem forged_answer_seen :
    Orderly [] (Connection.new ⟨"localhost", ["localhost"], none⟩ {} (Memory.new 0)
        ⟨{ receiver := () }, none⟩) forged.past ∧
      accept (.get "/" false) false forged = .ok () ∧ forged.backend.holding = false ∧
      (submit (.get "/" false) {} forged).1.toOption.map Reply.rc = some .ok ∧
      (submit (.get "/" false) { callback := some () } forged).2.settle.1.filterMap
        (fun call => call.2.map fun i => (i.kind, i.entry.handler.view i.event)) =
        [(.watch, .watch (.session .connected)),
          (.completion, .completion ⟨⟨1⟩, .noNode, some "/", .data none none⟩)] := by
  refine ⟨.of_ne_finish (by simp [forged.past]), accept_of_toOption ?_, ?_, ?_, ?_⟩
  all_goals decide +kernel

end Client
end Coordination
