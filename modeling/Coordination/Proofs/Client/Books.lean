import Coordination.Proofs.Client.Ledger
import Coordination.Proofs.Connection.Session

namespace Coordination

open scoped List

theorem Queue.filterMap_toList (q : Queue) :
    q.toList.filterMap Item.event? =
      q.popEvent.1.toList ++ q.popEvent.2.toList.filterMap Item.event? := by
  rw [q.toList_pop, List.filterMap_append]
  rcases h : q.pop with ⟨_ | item, q'⟩
  case none => simp [popEvent, h]
  case some => cases item <;> simp [popEvent, h, Item.event?]

theorem watchWasSet_eq {op : Operation} (h : op.asksWatch) (rc : ResultCode) :
    watchWasSet op.isExists rc = op.setsWatch rc := by
  simp [watchWasSet, Operation.setsWatch, h, ResultCode.isOk]

-- Where the one who waits for an event is registered.
def Event.slot : Event → Slot
  | completion c => .completion c.id
  | watch w => .watcher w.id

-- The handler that is called with an event is the one that waited for it, and the client forgets
-- just what is of no more use.
structure Ledger.Serves {ε : Type} (l : Ledger ε) (e : Event) (i : Invocation (Callback ε)) :
    Prop where
  slot        : i.slot = e.slot
  rearms      : ∀ s, i.rearms s = false
  consumes    : i.slot.isSingleUse → i.consumes i.slot
  completions : ∀ id, (i.consumes (.completion id) ||
    i.entry.handler.forgets e (.completion id)) = e.answers id
  watchers    : ∀ id, (i.consumes (.watcher id) ||
    i.entry.handler.forgets e (.watcher id)) = e.endsWatch l.calls id

theorem Ledger.Balanced.serves {ε : Type} {l : Ledger ε} {d : Dispatcher (Callback ε)} {e : Event}
    (b : l.Balanced) (h : e ∈ l.inFlight) (hd : d.registry = l.registry) :
    ∃ i, (d.start e).1 = some i ∧ l.Serves e i := by
  cases e
  case completion c =>
    obtain ⟨op, entry, ho, he, hs⟩ := b.linked c h
    have hg := b.isGlobal_of_answer h
    have hi : (d.start (.completion c)).1 = some ⟨.completion, .completion c, entry⟩ := by
      rw [Dispatcher.start_completion, hd, he]
      rfl
    refine ⟨_, hi, ?_⟩
    constructor
    case slot        => rfl
    case rearms      => simp [Invocation.rearms]
    case consumes    => simp [Invocation.slot, Event.id]
    case completions => cases ha : op.asksWatch <;> simp [Callback.forgets, hs, ha, Event.answers]
    case watchers =>
      intro id
      by_cases hid : c.id = id
      case neg =>
        cases ha : op.asksWatch <;>
          simp [Callback.forgets, hs, ha, Event.endsWatch, Event.notifies, Event.failsWatch, hid,
            Ne.symm hid]
      case pos =>
        subst hid
        cases ha : op.asksWatch <;>
          simp [Callback.forgets, hs, ha, Event.endsWatch, Event.notifies, Event.failsWatch, ho,
            Slot.isSingleUse, hg, watchWasSet_eq]
  case watch w =>
    have hk : Registry.keepsWatcher w.id w.type = w.id.isGlobal := by
      rw [Registry.keepsWatcher, b.notices w h, Bool.or_self]
    obtain ⟨entry, he⟩ := Option.isSome_iff_exists.mp <| b.isSome_of_notice h
    refine ⟨⟨.watch, .watch w, entry⟩, by rw [Dispatcher.start_watch, hd, he], ?_⟩
    constructor
    case slot        => rfl
    case rearms      => simp [Invocation.rearms, Event.isSession, Event.id, b.notices w h]
    case consumes    => simp [Invocation.slot, Event.id, hk, Slot.isSingleUse]
    case completions => simp [Callback.forgets, Event.answers]
    case watchers    =>
      simp [Callback.forgets, Event.endsWatch, Event.notifies, Event.failsWatch, hk]

namespace Client

variable {ε : Type} {op : Operation} {o : CallOptions ε} {outcome : Memory.Outcome}

theorem kept_result :
    kept (op.watching o.hasWatcher) o (.ok ((call op o).result outcome)) =
      (o.isAsync || !o.hasWatcher ||
        watchWasSet (op.watching o.hasWatcher).isExists outcome.rc) := by
  cases h : o.isAsync <;> simp only [kept, keeps, call, Call.result, h] <;> rfl

theorem isSome_completionEntry {target : Target} :
    (completionEntry (op.watching o.hasWatcher) target o).isSome =
      ((call op o).mode = .async : Bool) := by
  rw [completionEntry, Option.isSome_map, ← CallOptions.isAsync]
  cases h : o.isAsync <;> simp [call, h]

-- A callback is registered if the call is asynchronous, and then the service has accepted it.
theorem completionEntry_kept {target : Target} :
    (if kept (op.watching o.hasWatcher) o (.ok ((call op o).result outcome)) then
      completionEntry (op.watching o.hasWatcher) target o else none) =
        completionEntry (op.watching o.hasWatcher) target o := by
  rw [kept_result]
  cases h : o.isAsync
  case true  => simp
  case false =>
    have hn : o.callback = none :=
      Option.not_isSome_iff_eq_none.mp <| by simpa [CallOptions.isAsync] using h
    simp [completionEntry, hn]

theorem isSome_watcherEntry (ha : (op.watching o.hasWatcher).asksWatch = o.hasWatcher) :
    (if kept (op.watching o.hasWatcher) o (.ok ((call op o).result outcome)) then
      watcherEntry o else none).isSome = (call op o).keepsWatcher outcome.rc := by
  have hw : (watcherEntry o).isSome = o.hasWatcher := Option.isSome_map
  have hk : (call op o).keepsWatcher outcome.rc =
      if o.isAsync then (op.watching o.hasWatcher).asksWatch
      else (op.watching o.hasWatcher).setsWatch outcome.rc := by
    cases h : o.isAsync <;> simp [Call.keepsWatcher, call, h]
  rw [kept_result, hk]
  cases hh : o.hasWatcher <;> rw [hh] at ha hw
  case false =>
    have hs : (op.watching false).setsWatch outcome.rc = false := by simp [Operation.setsWatch, ha]
    cases o.isAsync <;> simp [hw, ha, hs]
  case true =>
    rw [watchWasSet_eq ha]
    cases o.isAsync
    case true  => simp [hw, ha]
    case false => cases (op.watching true).setsWatch outcome.rc <;> simp [hw]

end Client

namespace Connection

variable {ε : Type} {c c' : Connection Memory (Callback ε)} {e : Event}
  {i : Invocation (Callback ε)}

def queued (c : Connection Memory (Callback ε)) : List Event :=
  ((c.queue.map Queue.toList).getD []).filterMap Item.event?

def inFlight (c : Connection Memory (Callback ε)) : List Event :=
  c.backend.inFlight ++ c.queued

def ledger (c : Connection Memory (Callback ε)) : Ledger ε where
  registry := c.registry
  inFlight := c.inFlight
  watched  := c.backend.watched
  calls    := c.backend.calls

structure Sound (c : Connection Memory (Callback ε)) : Prop where
  running  : c.running
  closed   : c.closed = false
  isOpen   : c.backend.IsOpen
  queue    : c.queue.isSome
  balanced : c.ledger.Balanced
  orphans  : c.dispatcher.orphans = (0, 0)

section

variable {rest : List Item} {q : Queue}

theorem deliverOne_nil (h : c.backend.IsOpen) (hc : c.backend.channel = some []) :
    c.deliverOne = none := by
  simp [deliverOne, Memory.next_nil h hc]

theorem deliverOne_event (hd : c.delivering) (h : c.backend.IsOpen)
    (hc : c.backend.channel = some (.event e :: rest)) (hq : c.queue = some q) :
    c.deliverOne.map (·.1) = some { c with
      backend := { c.backend with channel := some rest }, queue := some (q.push (.event e)) } := by
  simp [deliverOne, hd, Memory.next_cons h hc, enqueue, hq]

theorem deliverOne_shutdown (hd : c.delivering) (h : c.backend.IsOpen)
    (hc : c.backend.channel = some (.shutdown :: rest)) :
    c.deliverOne.map (·.1) =
      some { c with backend := { c.backend with channel := some rest }, delivering := false } := by
  simp [deliverOne, hd, Memory.next_cons h hc]

end

-- A delivery has moved an event to the queue, or has come upon the marker.
theorem Sound.deliverOne_cases {records : List Record} (h : c.Sound)
    (hd : c.deliverOne = some (c', records)) :
    (∃ e rest q, c.backend.channel = some (.event e :: rest) ∧ c.queue = some q ∧
      c' = { c with
        backend := { c.backend with channel := some rest }, queue := some (q.push (.event e)) }) ∨
    (∃ rest, c.backend.channel = some (.shutdown :: rest) ∧
      c' = { c with backend := { c.backend with channel := some rest }, delivering := false }) := by
  have ⟨q, hq⟩ := Option.isSome_iff_exists.mp h.queue
  have ⟨items, hc⟩ := Option.isSome_iff_exists.mp h.isOpen.channel
  have hr : c.delivering := by
    cases hr : c.delivering
    case true  => rfl
    case false => simp [deliverOne, hr] at hd
  have hm : c.deliverOne.map (·.1) = some c' := congrArg (Option.map (·.1)) hd
  rcases items with _ | ⟨e | _, rest⟩
  case nil => exact nomatch (deliverOne_nil h.isOpen hc).symm.trans hd
  case cons.event =>
    rw [deliverOne_event hr h.isOpen hc hq] at hm
    exact .inl ⟨e, rest, q, hc, hq, (Option.some.inj hm).symm⟩
  case cons.shutdown =>
    rw [deliverOne_shutdown hr h.isOpen hc] at hm
    exact .inr ⟨rest, hc, (Option.some.inj hm).symm⟩

namespace Sound

-- Events may move about, and notices for the whole session may come in.
theorem of_moves (h : c.Sound) (es : List Event) (m : Moves c c') (ho : c'.backend.IsOpen)
    (hq : c'.queue.isSome) (hi : c'.inFlight ~ c.inFlight ++ es)
    (hw : c'.backend.watched = c.backend.watched) (hc : c'.backend.calls = c.backend.calls)
    (he : ∀ e ∈ es, ∃ state, e = .watch (.session state)) : c'.Sound where
  running  := m.running.trans h.running
  closed   := m.closed.trans h.closed
  isOpen   := ho
  queue    := hq
  orphans  := m.dispatcher ▸ h.orphans
  balanced := h.balanced.of_perm (congrArg Dispatcher.registry m.dispatcher) hi (.of_eq hw) hc he

theorem withBackend {m : Memory} {es : List Event} (h : c.Sound) (s : c.backend.Sends m es)
    (he : ∀ e ∈ es, ∃ state, e = .watch (.session state)) : Sound { c with backend := m } := by
  refine h.of_moves es ⟨rfl, rfl, rfl⟩ s.isOpen h.queue ?_ s.watched s.calls he
  calc m.inFlight ++ c.queued
    _ ~ c.backend.inFlight ++ es ++ c.queued := s.inFlight.append_right _
    _ ~ c.backend.inFlight ++ c.queued ++ es := by
      simp only [List.append_assoc]
      exact List.perm_append_comm.append_left _

theorem deliverOne_inFlight {records : List Record} (h : c.Sound)
    (hd : c.deliverOne = some (c', records)) : c'.inFlight ~ c.inFlight := by
  rcases h.deliverOne_cases hd with ⟨e, rest, q, hc, hq, rfl⟩ | ⟨rest, hc, rfl⟩
  case inl =>
    simp only [inFlight, queued, Memory.inFlight, hc, hq, Option.map_some, Option.getD_some,
      Queue.toList_push, List.filterMap_append, List.filterMap_cons, List.filterMap_nil,
      Item.event?, List.append_assoc]
    refine List.Perm.append_left _ ?_
    rw [← List.append_assoc]
    exact List.perm_append_singleton _ _
  case inr =>
    refine .of_eq ?_
    simp only [inFlight, queued, Memory.inFlight, hc, Option.getD_some, List.filterMap_cons,
      Item.event?]

theorem deliverOne {records : List Record} (h : c.Sound)
    (hd : c.deliverOne = some (c', records)) : c'.Sound := by
  have hm := deliverOne_moves hd
  have hi := (h.deliverOne_inFlight hd).trans (.of_eq (List.append_nil _).symm)
  rcases h.deliverOne_cases hd with ⟨_, _, _, _, _, rfl⟩ | ⟨_, _, rfl⟩
  case inl => exact h.of_moves [] hm ⟨rfl, h.isOpen.handle⟩ rfl hi rfl rfl (by simp)
  case inr => exact h.of_moves [] hm ⟨rfl, h.isOpen.handle⟩ h.queue hi rfl rfl (by simp)

theorem nextEvent_inFlight (h : c.Sound) :
    c.inFlight ~ c.nextEvent.1.toList ++ c.nextEvent.2.inFlight := by
  have ⟨q, hq⟩ := Option.isSome_iff_exists.mp h.queue
  have hr : (!c.running) = false := by simp [h.running]
  simp only [nextEvent, hr, Bool.false_eq_true, if_false, hq, inFlight, queued, Option.map_some,
    Option.getD_some, q.filterMap_toList]
  exact List.perm_append_comm_assoc _ _ _

theorem leave (h : c.Sound) (hi : ∀ s, i.rearms s = false) (outcome : Outcome) :
    (c.leave i outcome).Sound := by
  have hr : (c.leave i outcome).registry = c.registry := Dispatcher.finish_registry hi outcome
  constructor
  case running  => exact h.running
  case closed   => exact h.closed
  case isOpen   => exact h.isOpen
  case queue    => exact h.queue
  case orphans  => exact Dispatcher.finish_orphans i outcome |>.trans h.orphans
  case balanced =>
    have : (c.leave i outcome).ledger = c.ledger := by rw [ledger, hr]; rfl
    exact this ▸ h.balanced

theorem nextEvent_backend (h : c.Sound) :
    c.nextEvent.2.backend = c.backend ∧ c.nextEvent.2.queue.isSome := by
  have ⟨q, hq⟩ := Option.isSome_iff_exists.mp h.queue
  have hr : (!c.running) = false := by simp [h.running]
  simp [nextEvent, hr, hq]

theorem nextEvent_none (h : c.Sound) (hn : c.nextEvent.1 = none) : c.nextEvent.2.Sound := by
  have hi := h.nextEvent_inFlight
  have ⟨hb, hq⟩ := h.nextEvent_backend
  rw [hn] at hi
  refine h.of_moves [] nextEvent_moves (hb ▸ h.isOpen) hq ?_ (by rw [hb]) (by rw [hb]) ?_
  · simpa using hi.symm
  · simp

-- An event is taken from the queue and handed to the one who waits for it.
theorem enter (h : c.Sound) (hn : c.nextEvent.1 = some e) :
    ∃ i, (c.nextEvent.2.enter e).1 = some i ∧ c.ledger.Serves e i ∧
      (c.nextEvent.2.enter e).2.Sound := by
  have hi := h.nextEvent_inFlight
  have hm : Moves c c.nextEvent.2 := nextEvent_moves
  have ⟨hb, hq⟩ := h.nextEvent_backend
  rw [hn] at hi
  have ⟨i, hs, sv⟩ := h.balanced.serves (hi.symm.subset <| .head _)
    (congrArg Dispatcher.registry hm.dispatcher)
  rw [← enter_fst] at hs
  refine ⟨i, hs, sv, ?_⟩
  have he := enter_orphans hs
  have hr (s : Slot) := get?_enter (c := c.nextEvent.2) (e := e) (s := s)
  have hid := enter_nextId (c := c.nextEvent.2) (e := e)
  rw [enter_snd]
  simp only [hs, Option.any_some, registry, hm.dispatcher] at hr hid
  constructor
  case running => exact hm.running.trans h.running
  case closed  => exact hm.closed.trans h.closed
  case isOpen  => exact hb ▸ h.isOpen
  case queue   => exact hq
  case orphans => exact he.trans <| (congrArg Dispatcher.orphans hm.dispatcher).trans h.orphans
  case balanced =>
    have b := h.balanced.receive hi hid (fun id => sv.completions id ▸ hr _)
      (fun id => sv.watchers id ▸ hr _)
    change Ledger.Balanced ⟨_, _, c.backend.watched, c.backend.calls⟩ at b
    rw [← hb] at b
    exact b

theorem submit (h : c.Sound) (op : Operation) (o : CallOptions ε) :
    (Client.submit op o c).2.Sound ∧ c.registry.Precedes (Client.submit op o c).2.registry := by
  cases ha : Client.accept (op.watching o.hasWatcher) o.hasWatcher c
  case error => rw [Client.submit_rejected ha]; exact ⟨h, .refl⟩
  case ok =>
    have ⟨hw, hopen⟩ := Client.accept_ok ha
    have ⟨_, _, hs⟩ := assertOpen_ok hopen
    have hask : (op.watching o.hasWatcher).asksWatch = o.hasWatcher := by
      rw [Operation.asksWatch_watching]
      cases hh : o.hasWatcher <;> simp_all
    have ⟨outcome, m, hi, an⟩ :=
      Memory.issue_answers h.isOpen hs c.registry.nextId (Client.call op o)
    have hi : Backend.issue c.registry.nextId (Client.call op o) c.backend = _ := hi
    rw [Client.submit_accepted ha, hi]
    refine ⟨?_, Registry.enroll_precedes⟩
    constructor
    case running => exact h.running
    case closed  => exact h.closed
    case isOpen  => exact an.isOpen
    case queue   => exact h.queue
    case orphans => exact h.orphans
    case balanced =>
      have hf : m.inFlight ++ c.queued ~ c.inFlight ++ outcome.fired.map .watch ++
          (Client.call op o).answer c.registry.nextId outcome := by
        refine (an.inFlight.append_right _).trans ?_
        simp only [inFlight, List.append_assoc]
        refine List.Perm.append_left _ ?_
        rw [← List.append_assoc]
        exact List.perm_append_comm
      have b := h.balanced
      have hg : c.registry.nextId.isGlobal = false := b.isGlobal_nextId
      have hnc : c.registry.get? (.completion c.registry.nextId) = none := b.absent rfl rfl
      have hnw : c.registry.get? (.watcher c.registry.nextId) = none :=
        b.absent (by simp [Slot.isSingleUse, hg]) rfl
      have hl : ∀ e ∈ Client.completionEntry (op.watching o.hasWatcher) c.target o,
          e.handler.watching = if (Client.call op o).op.asksWatch then
            some (Client.call op o).op.isExists else none := by
        intro e he
        obtain ⟨_, -, rfl⟩ := Option.map_eq_some_iff.mp he
        simp only [Client.call, hask]
      let ce := Client.completionEntry (op.watching o.hasWatcher) c.target o
      let k := Client.kept (op.watching o.hasWatcher) o (.ok ((Client.call op o).result outcome))
      have hrc (id : RequestId) :
          (c.registry.enroll ce (Client.watcherEntry o) k).get? (.completion id) = _ :=
        Registry.get?_enroll_completion hnc
      have hrw (id : RequestId) :
          (c.registry.enroll ce (Client.watcherEntry o) k).get? (.watcher id) = _ :=
        Registry.get?_enroll_watcher hnw hg
      simp only [k, ce, Client.completionEntry_kept] at hrc
      have := b.submit hf an.watched an.changes Registry.enroll_nextId hrc hrw
        Client.isSome_completionEntry hl (Client.isSome_watcherEntry hask)
      simpa only [ledger, an.calls]

end Sound
theorem started_sound (hn : 0 < c.registry.nextId.number) (ho : c.dispatcher.orphans = (0, 0)) :
    c.started.Sound := by
  have ⟨hopen, hw, hf⟩ := c.backend.init_fresh c.target
  constructor
  case running => rfl
  case closed  => rfl
  case isOpen  => exact hopen
  case queue   => rfl
  case orphans => exact ho
  case balanced =>
    refine .fresh rfl hn (fun e he => ⟨.connected, hf e ?_⟩) hw
    simpa [ledger, inFlight, queued, started] using he

theorem Sound.restart (h : c.Sound) (timeout : Duration) :
    (c.restart timeout).2.1.Sound ∧ c.registry.Precedes (c.restart timeout).2.1.registry := by
  have hd : c.stop.2.1.dispatcher = c.dispatcher := stop_dispatcher
  have hr : c.stop.2.1.registry = c.registry := congrArg Dispatcher.registry hd
  have hp := c.stop.2.1.registry.clear_precedes c.stop.2.1.global
  rw [restart_eq]
  exact ⟨started_sound (hr ▸ h.balanced.started) (hd ▸ h.orphans), hr ▸ hp⟩

end Connection
end Coordination
