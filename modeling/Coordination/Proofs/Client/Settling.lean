import Coordination.Proofs.Client.Enrollment
import Coordination.Proofs.Client.Isolation
import Coordination.Proofs.Client.Parallel
import Coordination.Proofs.Dispatch.Routing

namespace Coordination

theorem Item.map_event {items : List Item} (h : Item.shutdown ∉ items) :
    items = (items.filterMap Item.event?).map .event := by
  induction items
  case nil => rfl
  case cons item items ih =>
    cases item
    case shutdown => exact absurd List.mem_cons_self h
    case event e  => simpa [Item.event?] using ih (h <| List.mem_cons_of_mem _ ·)

namespace Dispatcher

variable {ε : Type} {d : Dispatcher (Callback ε)} {event : Event} {events : List Event} {s : Slot}

-- The event goes to a handler that does nothing, if somebody waits for it.
def serve (event : Event) (d : Dispatcher (Callback ε)) :
    Option (Invocation (Callback ε)) × Dispatcher (Callback ε) :=
  match d.start event with
  | (none, d) => (none, d)
  | (some i, d) =>
    (some i, { d with registry := i.entry.handler.enter i.event d.registry }.finish i .ok)

-- The events one by one, each with the handler it went to.
def serveAll : List Event → Dispatcher (Callback ε) →
    List (Event × Option (Invocation (Callback ε))) × Dispatcher (Callback ε)
  | [], d => ([], d)
  | event :: events, d =>
    let (i, d) := d.serve event
    let (calls, d) := serveAll events d
    ((event, i) :: calls, d)

theorem serve_fst : (d.serve event).1 = (d.start event).1 := by
  unfold serve
  split <;> simp_all

theorem serve_nextId : (d.serve event).2.registry.nextId = d.registry.nextId := by
  have h := d.start_nextId event
  unfold serve
  split
  case h_1 hd => rw [hd] at h; exact h
  case h_2 hd =>
    rw [hd] at h
    exact (finish_nextId ..).trans <| Callback.enter_nextId.trans h

-- What is put back when a handler ends has been there all the time.
theorem kept_of_rearms {i : Invocation (Callback ε)} (h : (d.start event).1 = some i)
    (hr : i.rearms s) : d.registry.get? s = some i.entry ∧ i.consumes s = false ∧
      i.entry.handler.forgets event s = false := by
  refine ⟨Invocation.slot_of_rearms hr ▸ get?_of_start h,
    Invocation.consumes_eq_false_of_rearms hr, ?_⟩
  cases event
  case watch => rfl
  case completion c =>
    rw [start_completion, Option.map_eq_some_iff] at h
    obtain ⟨_, _, rfl⟩ := h
    simp [Invocation.rearms] at hr

theorem get?_serve_start :
    (d.serve event).2.registry.get? s =
      if (d.start event).1.any (fun i => i.consumes s || i.entry.handler.forgets event s) then none
      else d.registry.get? s := by
  have hs := d.get?_start (s := s) event
  rcases hd : d.start event with ⟨_ | i, d'⟩ <;> rw [hd] at hs
  case none => simpa [serve, hd] using hs
  case some =>
    have hi : (d.start event).1 = some i := by rw [hd]
    simp only [serve, hd, get?_finish, Callback.get?_enter, hs, start_event hi, Option.any_some]
    split
    case isTrue hr =>
      have ⟨hg, hc, hf⟩ := kept_of_rearms hi hr
      simp [hg, hc, hf]
    case isFalse => by_cases hc : i.consumes s <;> simp [hc]

-- Besides what the event uses up, what its handler makes the client forget is gone.
theorem get?_serve :
    (d.serve event).2.registry.get? s =
      if event.spends s || (d.start event).1.any (·.entry.handler.forgets event s) then none
      else d.registry.get? s := by
  rw [get?_serve_start]
  cases hs : d.registry.get? s
  case none => simp
  case some =>
    rw [← consumes_eq_spends hs]
    cases (d.start event).1 <;> rfl

theorem serveAll_events : (d.serveAll events).1.map Prod.fst = events := by
  induction events generalizing d
  case nil              => rfl
  case cons e events ih => rw [serveAll, List.map_cons, ih]

theorem serveAll_singleton :
    d.serveAll [event] = ([(event, (d.serve event).1)], (d.serve event).2) :=
  rfl

theorem serveAll_append {events' : List Event} :
    d.serveAll (events ++ events') =
      ((d.serveAll events).1 ++ ((d.serveAll events).2.serveAll events').1,
        ((d.serveAll events).2.serveAll events').2) := by
  induction events generalizing d
  case nil              => rfl
  case cons e events ih => simp [serveAll, ih]

end Dispatcher

namespace Connection

open Memory (Emits)

variable {ε : Type} {c c' : Connection Memory (Callback ε)} {event : Event} {events : List Event}
  {items : List Item} {q : Queue}

def handle (event : Event) (c : Connection Memory (Callback ε)) :
    Option (Invocation (Callback ε)) × Connection Memory (Callback ε) :=
  match c.enter event with
  | (none, c) => (none, c)
  | (some i, c) => (some i, c.leave i .ok)

-- At most `n` events of the queue are dispatched, each with the handler it goes to.
def dispatchUpTo : Nat → Connection Memory (Callback ε) →
    List (Event × Option (Invocation (Callback ε))) × Connection Memory (Callback ε)
  | 0, c => ([], c)
  | n + 1, c =>
    match c.nextEvent with
    | (none, c) => ([], c)
    | (some event, c) =>
      let (i, c) := c.handle event
      let (calls, c) := dispatchUpTo n c
      ((event, i) :: calls, c)

-- Everything on the stream is delivered, and everything in the queue is dispatched.
def settle (c : Connection Memory (Callback ε)) :
    List (Event × Option (Invocation (Callback ε))) × Connection Memory (Callback ε) :=
  let c := c.deliver.1
  dispatchUpTo c.queued.length c

-- What is in the queue, and behind it what is on the stream.
def pending (c : Connection Memory (Callback ε)) : List Item :=
  (c.queue.map Queue.toList).getD [] ++ c.backend.channel.getD []

-- A session whose events get through, since nothing but events is on the way.
structure Flowing (c : Connection Memory (Callback ε)) : Prop where
  running    : c.running
  delivering : c.delivering
  isOpen     : c.backend.IsOpen
  queue      : c.queue.isSome
  unmarked   : Item.shutdown ∉ c.pending

theorem upcoming_eq : c.upcoming = c.pending.filterMap Item.event? := by
  simp [upcoming, pending, queued]

theorem handle_eq : c.handle event =
    ((c.dispatcher.serve event).1, { c with dispatcher := (c.dispatcher.serve event).2 }) := by
  rcases hd : c.dispatcher.start event with ⟨_ | i, d⟩ <;>
    simp [handle, enter, Dispatcher.serve, hd, leave, withRegistry]

theorem deliverUpTo_eq {n : Nat} (hd : c.delivering) (ho : c.backend.IsOpen)
    (hq : c.queue = some q) (hc : c.backend.channel = some items) (hm : Item.shutdown ∉ items)
    (hn : items.length ≤ n) :
    ∃ q', q'.toList = q.toList ++ items ∧ (deliverUpTo n c).1 =
      { c with backend := { c.backend with channel := some [] }, queue := some q' } := by
  induction n generalizing c q items
  case zero =>
    cases List.length_eq_zero_iff.mp (Nat.le_zero.mp hn)
    refine ⟨q, (List.append_nil _).symm, ?_⟩
    rw [← hc, ← hq]
    rfl
  case succ n ih =>
    unfold deliverUpTo
    cases items
    case nil =>
      rw [deliverOne_nil ho hc]
      refine ⟨q, (List.append_nil _).symm, ?_⟩
      rw [← hc, ← hq]
    case cons item rest =>
      cases item
      case shutdown => exact absurd List.mem_cons_self hm
      case event e =>
        obtain ⟨⟨c', records⟩, h, he⟩ := Option.map_eq_some_iff.mp (deliverOne_event hd ho hc hq)
        have hr : Item.shutdown ∉ rest := fun h => hm (List.mem_cons_of_mem _ h)
        subst he
        obtain ⟨q', hl, hi⟩ := ih (c := { c with
          backend := { c.backend with channel := some rest }, queue := some (q.push (.event e)) })
          hd ⟨rfl, ho.handle⟩ rfl rfl hr (Nat.le_of_succ_le_succ hn)
        rw [h]
        exact ⟨q', by simpa using hl, hi⟩

-- Induction on the events of the queue.
theorem dispatchUpTo_eq (hr : c.running) (hq : c.queue = some q)
    (hl : q.toList = events.map .event) :
    ∃ q', q'.toList = [] ∧ dispatchUpTo events.length c =
      ((c.dispatcher.serveAll events).1,
        { c with queue := some q', dispatcher := (c.dispatcher.serveAll events).2 }) := by
  induction events generalizing c q
  case nil =>
    refine ⟨q, hl, ?_⟩
    rw [← hq]
    rfl
  case cons e events ih =>
    have ht := (Queue.popEvent_cons hl).right
    have hn := nextEvent_cons hr hq hl
    obtain ⟨q', hq', hi⟩ := ih (c := { c with
      queue := some q.popEvent.2, dispatcher := (c.dispatcher.serve e).2 }) hr rfl ht
    refine ⟨q', hq', ?_⟩
    rw [List.length_cons, dispatchUpTo, hn]
    simp only [handle_eq]
    rw [hi]
    rfl

-- Nothing is left of what was on the way, and all of it was dispatched.
theorem Flowing.settle_eq (f : c.Flowing) :
    ∃ q, q.toList = [] ∧ c.settle =
      ((c.dispatcher.serveAll c.upcoming).1, { c with
        backend := { c.backend with channel := some [] }
        queue := some q
        dispatcher := (c.dispatcher.serveAll c.upcoming).2 }) := by
  obtain ⟨q, hq⟩ := Option.isSome_iff_exists.mp f.queue
  obtain ⟨items, hc⟩ := Option.isSome_iff_exists.mp f.isOpen.channel
  have hp : c.pending = q.toList ++ items := by simp [pending, hq, hc]
  have hm := hp ▸ f.unmarked
  have hb : items.length ≤ Backend.backlog c.backend + 1 := by simp [Backend.backlog, hc]
  obtain ⟨q', hl, hd⟩ := deliverUpTo_eq f.delivering f.isOpen hq hc
    (fun h => hm (List.mem_append_right _ h)) hb
  have hu : q'.toList = c.upcoming.map .event := by
    rw [upcoming_eq, ← Item.map_event f.unmarked, hp, hl]
  have hn : c.deliver.1.queued.length = c.upcoming.length := by
    rw [deliver, hd]
    simp [queued, hu, List.filterMap_map, Function.comp_def, Item.event?]
  obtain ⟨q'', hl'', hs⟩ := dispatchUpTo_eq (c := c.deliver.1) (q := q')
    (by rw [deliver, hd]; exact f.running) (by rw [deliver, hd]) hu
  refine ⟨q'', hl'', ?_⟩
  rw [settle, hn, hs, deliver, hd]

namespace Flowing

-- Nothing but events has come on the way, or nothing at all.
theorem of_pending (f : c.Flowing) (hr : c'.running) (hd : c'.delivering = c.delivering)
    (ho : c'.backend.IsOpen) (hq : c'.queue.isSome)
    (hp : ∀ item ∈ c'.pending, item ∈ c.pending ∨ item ≠ .shutdown) : c'.Flowing where
  running    := hr
  delivering := hd.trans f.delivering
  isOpen     := ho
  queue      := hq
  unmarked h := (hp _ h).elim f.unmarked fun hn => hn rfl

theorem of_emits (f : c.Flowing) (hr : c'.running) (hd : c'.delivering = c.delivering)
    (ho : c'.backend.IsOpen) (hq : c'.queue = c.queue)
    (e : Emits c.backend events c'.backend) : c'.Flowing := by
  refine f.of_pending hr hd ho (hq ▸ f.queue) fun item h => ?_
  obtain ⟨items, hc⟩ := Option.isSome_iff_exists.mp f.isOpen.channel
  have hc' : c'.backend.channel = some (items ++ events.map .event) := by rw [e, hc]; rfl
  simp only [pending, hq, hc', Option.getD_some, List.mem_append, List.mem_map] at h
  rcases h with h | h | ⟨e, _, rfl⟩
  · exact .inl <| List.mem_append_left _ h
  · exact .inl <| List.mem_append_right _ <| by rwa [hc]
  · exact .inr nofun

theorem upcoming_emits (f : c.Flowing) {backend : Memory} (e : Emits c.backend events backend) :
    upcoming { c with backend := backend } = c.upcoming ++ events := by
  have flows : Flows events [] c { c with backend := backend } :=
    .of_emits ⟨f.queue, f.isOpen.channel⟩ rfl e
  exact flows.events

-- The dispatcher has no part in it.
theorem withDispatcher (f : c.Flowing) (d : Dispatcher (Callback ε)) :
    Flowing { c with dispatcher := d } :=
  ⟨f.running, f.delivering, f.isOpen, f.queue, f.unmarked⟩

theorem withQueue (f : c.Flowing) (hq : c.queue = some q) {q' : Queue}
    (h : ∀ item ∈ q'.toList, item ∈ q.toList) : Flowing { c with queue := some q' } := by
  refine f.of_pending f.running rfl f.isOpen rfl fun item hi => ?_
  refine .inl <| List.mem_append.mpr <| (List.mem_append.mp hi).imp (fun hi => ?_) id
  rw [hq]
  exact h item hi

theorem enter (f : c.Flowing) (event : Event) : (c.enter event).2.Flowing := by
  rw [enter_snd]
  exact f.withDispatcher _

theorem popped (f : c.Flowing) : c.popped.2.Flowing := by
  obtain ⟨q, hq⟩ := Option.isSome_iff_exists.mp f.queue
  have hp : c.popped.2 = { c with queue := some q.popEvent.2 } := by rw [Connection.popped, hq]
  rw [hp]
  apply f.withQueue hq
  intro item h
  rw [q.toList_pop]
  exact List.mem_append_right _ h

theorem nextEvent (f : c.Flowing) : c.nextEvent.2.Flowing := by
  have hn : c.nextEvent = c.popped := by
    have hr : (!c.running) = false := by simp [f.running]
    unfold Connection.nextEvent Connection.popped
    rw [hr]
    rfl
  exact hn ▸ f.popped

theorem passOn {taken : Option Event × Connection Memory (Callback ε)} (f : taken.2.Flowing) :
    (passOn taken).Flowing := by
  rcases taken with ⟨_ | event, taken⟩
  case none => exact f
  case some => exact f.enter event

theorem deliverOne {records : List Record} (f : c.Flowing)
    (h : c.deliverOne = some (c', records)) : c'.Flowing := by
  obtain ⟨q, hq⟩ := Option.isSome_iff_exists.mp f.queue
  obtain ⟨items, hc⟩ := Option.isSome_iff_exists.mp f.isOpen.channel
  rcases items with _ | ⟨e | _, rest⟩
  case nil => exact nomatch (deliverOne_nil f.isOpen hc).symm.trans h
  case cons.shutdown => exact absurd (by simp [pending, hc]) f.unmarked
  case cons.event =>
    have hm := deliverOne_event f.delivering f.isOpen hc hq
    rw [h] at hm
    cases hm
    refine f.of_pending f.running rfl ⟨rfl, f.isOpen.handle⟩ rfl fun item hi => ?_
    left
    simpa [pending, hq, hc] using hi

theorem hook {step : ServiceStep} (f : c.Flowing) (h : step.isHook) :
    Flowing { c with backend := (c.backend.perform step).2 } := by
  refine f.of_emits f.running rfl ?_ rfl (.hook h)
  cases step
  case init | drain | call | wake | closeHandle => cases h
  case setState state   => exact (Memory.setState_sends f.isOpen state).isOpen
  case inject event     => exact (Memory.emit_sends f.isOpen event).isOpen
  case hold on          => exact (Memory.hold_sends f.isOpen on).isOpen
  case connectOnInit on => exact (Memory.connectOnInit_sends f.isOpen on).isOpen
  case release id       => exact (Memory.release_sends f.isOpen id).isOpen
  case releaseAll       => exact (Memory.releaseAll_sends f.isOpen).isOpen
  all_goals exact f.isOpen

theorem submit (f : c.Flowing) (op : Operation) (o : CallOptions ε) :
    (Client.submit op o c).2.Flowing := by
  cases ha : Client.accept (op.watching o.hasWatcher) o.hasWatcher c
  case error => rwa [Client.submit_rejected ha]
  case ok =>
    have ⟨_, _, hs⟩ := assertOpen_ok (Client.accept_ok ha).right
    have ⟨_, m, hi, answers⟩ :=
      Memory.issue_answers f.isOpen hs c.registry.nextId (Client.call op o)
    have ho : (c.backend.issue c.registry.nextId (Client.call op o)).2.IsOpen :=
      hi ▸ answers.isOpen
    rw [Client.submit_accepted ha]
    exact f.of_emits f.running rfl ho rfl (.issue ..)

-- A session that is not closing goes on.
theorem act (f : c.Flowing) (a : Act ε) (h : (c.act a).running) : (c.act a).Flowing := by
  cases a
  case submit op o    => exact f.submit op o
  case hook step hook => exact f.hook hook
  case allocate       => exact f.withDispatcher _
  case finish         => exact f.withDispatcher _
  case tick           =>
    exact ⟨f.running, f.delivering, ⟨f.isOpen.channel, f.isOpen.handle⟩, f.queue, f.unmarked⟩
  case deliver        => exact deliver_keeps f fun _ _ => f.deliverOne
  case take           => exact f.nextEvent
  case dispatch       => exact f.nextEvent.passOn
  case pop            => exact f.popped.passOn
  case quiesce        => exact nomatch quiesce_moves.running.symm.trans h
  case handOut =>
    obtain ⟨q, hq⟩ := Option.isSome_iff_exists.mp f.queue
    rw [Connection.act, handOut_of_queue hq]
    exact f.withQueue hq fun _ h => Queue.toList_handOut ▸ h
  case read bytes =>
    obtain ⟨q, hq⟩ := Option.isSome_iff_exists.mp f.queue
    rw [Connection.act, hq]
    exact f.withQueue hq fun _ h => h

end Flowing

theorem act_closed (a : Act ε) : (c.act a).closed = c.closed := by
  cases a
  case submit op o =>
    rw [act]
    cases ha : Client.accept (op.watching o.hasWatcher) o.hasWatcher c
    case error => rw [Client.submit_rejected ha]
    case ok    => rw [Client.submit_accepted ha]
  case deliver =>
    apply deliver_keeps (P := fun x => x.closed = c.closed) rfl
    exact fun _ _ h => (deliverOne_moves h).closed
  case take     => rw [act, Attends.nextEvent.eq]
  case dispatch => rw [act, (Attends.passOn .nextEvent).eq]
  case pop      => rw [act, (Attends.passOn .popped).eq]
  case handOut  => rw [act, Attends.handOut.eq]
  case quiesce  => exact quiesce_moves.closed
  all_goals rfl

theorem started_flowing (c : Connection Memory (Callback ε)) : c.started.Flowing where
  running    := rfl
  delivering := rfl
  isOpen     := (c.backend.init_fresh c.target).left
  queue      := rfl
  unmarked h := by
    have ⟨events, hc⟩ := c.backend.init_channel c.target
    have hp : c.started.pending = events.map .event :=
      congrArg (fun channel => [] ++ channel.getD []) hc
    rw [hp, List.mem_map] at h
    obtain ⟨_, _, h⟩ := h
    cases h

theorem turn_flowing (f : c.running → c.closed = false → c.Flowing) (t : Turn ε) :
    (c.turn t).running → (c.turn t).closed = false → (c.turn t).Flowing := by
  intro hr hc
  cases t
  case «open» timeout =>
    cases h : c.running
    case true =>
      rw [turn, start_running timeout h] at hc ⊢
      exact f h hc
    case false =>
      rw [turn, start_eq timeout h]
      exact started_flowing c
  case act a => exact (f (act_running a hr) (act_closed a ▸ hc)).act a hr
  case release => cases hc
  case stray event =>
    have a := Attends.enter (c := c) event
    refine (f (a.running ▸ hr) ?_).enter event
    rwa [turn, a.eq] at hc

-- Whatever a client has been through, the events of an open session get through.
theorem turns_flowing {target : Target} {config : Config} {m : Memory}
    {global : Entry (Callback ε)} (past : List (Turn ε)) :
    let c := (new target config m global).turns past
    c.running → c.closed = false → c.Flowing := by
  suffices h : ∀ c : Connection Memory (Callback ε), (c.running → c.closed = false → c.Flowing) →
      (c.turns past).running → (c.turns past).closed = false → (c.turns past).Flowing from
    h _ nofun
  induction past
  case nil          => exact fun _ f => f
  case cons t ts ih => exact fun c f => ih (c.turn t) (turn_flowing f t)

-- The calls of handlers that begin with a turn.
def calling (c : Connection Memory (Callback ε)) : Turn ε → List (Invocation (Callback ε))
  | .act .dispatch => (c.nextEvent.1.bind fun event => (c.nextEvent.2.enter event).1).toList
  | .act .pop      => (c.popped.1.bind fun event => (c.popped.2.enter event).1).toList
  | .stray event   => (c.enter event).1.toList
  | _ => []

-- No handler ends that has not been called.
def Orderly (called : List (Invocation (Callback ε))) (c : Connection Memory (Callback ε)) :
    List (Turn ε) → Prop
  | [] => True
  | t :: ts =>
    (∀ i outcome, t = .act (.finish i outcome) → i ∈ called) ∧
      Orderly (c.calling t ++ called) (c.turn t) ts

theorem Orderly.of_ne_finish {called : List (Invocation (Callback ε))} {ts : List (Turn ε)}
    (h : ∀ t ∈ ts, ∀ i outcome, t ≠ .act (.finish i outcome)) : Orderly called c ts := by
  induction ts generalizing c called
  case nil => trivial
  case cons t ts ih =>
    have ⟨ht, hts⟩ := List.forall_mem_cons.mp h
    exact ⟨fun i outcome he => absurd he (ht i outcome), ih hts⟩

-- The registry came about by its own means, and the handlers that were called have numbers that
-- were given out.
structure Accounted (called : List (Invocation (Callback ε)))
    (c : Connection Memory (Callback ε)) : Prop where
  arises : c.registry.Arises
  given  : ∀ i ∈ called, i.event.id.number < c.registry.nextId.number

theorem arises_passOn {taken : Option Event × Connection Memory (Callback ε)}
    (h : taken.2.registry.Arises) : (passOn taken).registry.Arises := by
  rcases taken with ⟨_ | event, taken⟩
  case none => exact h
  case some => exact arises_enter h event

theorem given_of_taken {taken : Option Event × Connection Memory (Callback ε)}
    {i : Invocation (Callback ε)} (h : taken.2.registry.Arises)
    (hi : i ∈ (taken.1.bind fun event => (taken.2.enter event).1).toList) :
    i.event.id.number < taken.2.registry.nextId.number := by
  rw [Option.mem_toList, Option.bind_eq_some_iff] at hi
  obtain ⟨event, _, hi⟩ := hi
  exact given_of_enter h.bounded hi

theorem popped_registry (c : Connection Memory (Callback ε)) :
    c.popped.2.registry = c.registry := by
  unfold popped
  cases c.queue <;> rfl

theorem nextEvent_registry (c : Connection Memory (Callback ε)) :
    c.nextEvent.2.registry = c.registry := by
  unfold nextEvent
  repeat' split
  all_goals rfl

theorem Accounted.act {called : List (Invocation (Callback ε))} (h : Accounted called c) (a : Act ε)
    (orderly : ∀ i outcome, a = .finish i outcome → i ∈ called) : (c.act a).registry.Arises := by
  cases a
  case submit op o                => exact arises_submit h.arises op o
  case allocate completion watcher => exact h.arises.allocate completion watcher
  case hook | tick | read         => exact h.arises
  case finish i outcome =>
    exact arises_leave h.arises (h.given i (orderly i outcome rfl)) outcome
  case deliver =>
    refine deliver_keeps (P := fun x => x.registry.Arises) h.arises fun _ _ hd => ?_
    rw [registry, (deliverOne_moves hd).dispatcher]
    exact h.arises
  case take     => exact c.nextEvent_registry ▸ h.arises
  case dispatch => exact arises_passOn <| c.nextEvent_registry ▸ h.arises
  case pop      => exact arises_passOn <| c.popped_registry ▸ h.arises
  case handOut =>
    have hr : c.handOut.2.registry = c.registry := by
      unfold Connection.handOut
      split <;> rfl
    exact hr ▸ h.arises
  case quiesce =>
    rw [Connection.act, registry, quiesce_moves.dispatcher]
    exact h.arises

theorem Accounted.turn {called : List (Invocation (Callback ε))} (h : Accounted called c)
    (t : Turn ε) (orderly : ∀ i outcome, t = .act (.finish i outcome) → i ∈ called) :
    Accounted (c.calling t ++ called) (c.turn t) where
  arises := by
    cases t
    case «open» timeout => exact arises_start h.arises timeout
    case act a          => exact h.act a fun i outcome ha => orderly i outcome (congrArg _ ha)
    case release        => exact h.arises
    case stray event    => exact arises_enter h.arises event
  given i hi := by
    refine Int.lt_of_lt_of_le ?_ (turn_proceeds t).numbered
    rcases List.mem_append.mp hi with hi | hi
    case inr => exact h.given i hi
    case inl =>
      unfold calling at hi
      split at hi
      case h_1 =>
        have hr := c.nextEvent_registry
        exact hr ▸ given_of_taken (hr ▸ h.arises) hi
      case h_2 =>
        have hr := c.popped_registry
        exact hr ▸ given_of_taken (hr ▸ h.arises) hi
      case h_3 => exact given_of_enter h.arises.bounded <| Option.mem_toList.mp hi
      case h_4 => exact absurd hi List.not_mem_nil

theorem Accounted.new {target : Target} {config : Config} {m : Memory}
    {global : Entry (Callback ε)} : Accounted [] (new target config m global) where
  arises    := .empty
  given _ h := absurd h List.not_mem_nil

theorem Accounted.turns {called : List (Invocation (Callback ε))} {ts : List (Turn ε)}
    (h : Accounted called c) (orderly : Orderly called c ts) : (c.turns ts).registry.Arises := by
  induction ts generalizing c called
  case nil          => exact h.arises
  case cons t ts ih => exact ih (h.turn t orderly.left) orderly.right

end Connection
end Coordination
