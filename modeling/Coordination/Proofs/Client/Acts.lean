import Coordination.Proofs.Client.Books
import Coordination.Proofs.Memory.Steps

namespace Coordination

open Memory (Still Emits)
open Coordination.Path (IsAbsolute)

-- The step is one by which the service is driven beside the connection.
def ServiceStep.isHook : ServiceStep → Bool
  | .init .. | .drain | .call .. | .wake | .closeHandle => false
  | _ => true

namespace Memory

variable {m : Memory} {step : ServiceStep}

theorem Still.hook (h : step.isHook) : Still m (m.perform step).2 := by
  refine .perform ?_
  cases step <;> first | rfl | cases h

theorem Emits.hook (h : step.isHook) : Emits m (m.emission step) (m.perform step).2 := by
  cases step
  case init | drain | call | wake | closeHandle => cases h
  case setState   => rfl
  case inject     => rfl
  case release    => exact .release _
  case releaseAll => exact .releaseAll
  all_goals exact .of_channel rfl

end Memory

theorem Queue.toList_handOut {q : Queue} : q.handOut.2.toList = q.toList := by
  unfold handOut
  split <;> rfl

namespace Connection

-- What goes on in a session until its handle is given up.
inductive Act (ε : Type)
  | submit (op : Operation) (o : CallOptions ε)
  -- An identifier for handlers that the application registers itself.
  | allocate (completion watcher : Option (Entry (Callback ε)))
  | hook (step : ServiceStep) (isHook : step.isHook)
  | tick (now : Int)
  -- One item goes from the stream to the queue.
  | deliver
  -- The application takes the next event.
  | take
  -- The application dispatches the next event.
  | dispatch
  -- The dispatch thread takes the next item and dispatches it.
  | pop
  | finish (i : Invocation (Callback ε)) (outcome : Outcome)
  | handOut
  -- Whoever holds the read end of the pipe reads some bytes.
  | read (bytes : Nat)
  -- The first half of a closing.
  | quiesce

section

variable {ε : Type}

-- Takes the oldest event of the queue, also while the connection is closing.
def popped (c : Connection Memory (Callback ε)) :
    Option Event × Connection Memory (Callback ε) :=
  match c.queue with
  | none => (none, c)
  | some q => (q.popEvent.1, { c with queue := some q.popEvent.2 })

def passOn : Option Event × Connection Memory (Callback ε) → Connection Memory (Callback ε)
  | (none, c) => c
  | (some event, c) => (c.enter event).2

def act (c : Connection Memory (Callback ε)) : Act ε → Connection Memory (Callback ε)
  | .submit op o => (Client.submit op o c).2
  | .allocate completion watcher => c.withRegistry fun r => (r.allocate completion watcher).2
  | .hook step _ => { c with backend := (c.backend.perform step).2 }
  | .tick now => { c with backend := c.backend.tick now }
  | .deliver => (c.deliverOne.map Prod.fst).getD c
  | .take => c.nextEvent.2
  | .dispatch => passOn c.nextEvent
  | .pop => passOn c.popped
  | .finish i outcome => c.leave i outcome
  | .handOut => c.handOut.2
  | .read bytes =>
    { c with queue := c.queue.map fun q => { q with pipe := (q.pipe.consumeUpTo bytes).2 } }
  | .quiesce => c.quiesce.1

def acts (c : Connection Memory (Callback ε)) (as : List (Act ε)) :
    Connection Memory (Callback ε) :=
  as.foldl act c

-- The events that the service puts on the stream.
def emitting (c : Connection Memory (Callback ε)) : Act ε → List Event
  | .submit op o =>
    match Client.accept (op.watching o.hasWatcher) o.hasWatcher c with
    | .ok () => c.backend.emission (.call c.registry.nextId (Client.call op o))
    | .error _ => []
  | .hook step _ => c.backend.emission step
  | _ => []

-- The events that come out of the queue, to be dispatched.
def hearing (c : Connection Memory (Callback ε)) : Act ε → List Event
  | .take | .dispatch => c.nextEvent.1.toList
  | .pop => c.popped.1.toList
  | _ => []

def emitted : List (Act ε) → Connection Memory (Callback ε) → List Event
  | [], _ => []
  | a :: as, c => c.emitting a ++ emitted as (c.act a)

def heard : List (Act ε) → Connection Memory (Callback ε) → List Event
  | [], _ => []
  | a :: as, c => c.hearing a ++ heard as (c.act a)

-- The events in the queue, and behind them those on the stream.
def upcoming (c : Connection Memory (Callback ε)) : List Event :=
  c.queued ++ (c.backend.channel.getD []).filterMap Item.event?

end

variable {ε : Type} {c c' c'' : Connection Memory (Callback ε)}

-- Events are taken and handled: queue and dispatcher change, but no identifier is given out.
structure Attends (c c' : Connection Memory (Callback ε)) : Prop where
  eq     : c' = { c with queue := c'.queue, dispatcher := c'.dispatcher }
  nextId : c'.registry.nextId = c.registry.nextId

namespace Attends

theorem trans (h : Attends c c') (h' : Attends c' c'') : Attends c c'' :=
  ⟨h'.eq.trans (by rw [h.eq]), h'.nextId.trans h.nextId⟩

theorem popped : Attends c c.popped.2 := by
  unfold Connection.popped
  cases c.queue <;> exact ⟨rfl, rfl⟩

theorem nextEvent : Attends c c.nextEvent.2 := by
  unfold Connection.nextEvent
  split <;> try split
  all_goals exact ⟨rfl, rfl⟩

theorem handOut : Attends c c.handOut.2 := by
  unfold Connection.handOut
  split <;> exact ⟨rfl, rfl⟩

theorem enter (event : Event) : Attends c (c.enter event).2 := by
  have he : (c.enter event).2 = { c with dispatcher := (c.enter event).2.dispatcher } := enter_snd
  have hq : (c.enter event).2.queue = c.queue := by rw [he]
  exact ⟨he.trans (by rw [hq]), enter_nextId⟩

theorem passOn {taken : Option Event × Connection Memory (Callback ε)} (h : Attends c taken.2) :
    Attends c (passOn taken) := by
  rcases taken with ⟨_ | event, taken⟩
  case none => exact h
  case some => exact h.trans <| enter event

theorem leave (i : Invocation (Callback ε)) (outcome : Outcome) : Attends c (c.leave i outcome) :=
  ⟨rfl, Dispatcher.finish_nextId i outcome⟩

theorem kin (h : Attends c c') : Kin c c' := by
  rw [h.eq]
  exact ⟨rfl, rfl, rfl⟩

theorem running (h : Attends c c') : c'.running = c.running := by
  rw [h.eq]

theorem backend (h : Attends c c') : c'.backend = c.backend := by
  rw [h.eq]

end Attends

theorem handOut_of_queue {q : Queue} (hq : c.queue = some q) :
    c.handOut.2 = { c with queue := some q.handOut.2 } := by
  rw [handOut, hq]

theorem deliver_keeps {P : Connection Memory (Callback ε) → Prop} (h : P c)
    (step : ∀ c' records, c.deliverOne = some (c', records) → P c') : P (c.act .deliver) := by
  simp only [act]
  cases hd : c.deliverOne
  case none       => exact h
  case some moved => exact step moved.1 moved.2 hd

theorem quiesce_still : Still c.backend c.quiesce.1.backend := by
  let woken := { c with running := false, backend := Backend.wake c.backend }
  have h₁ : Still c.backend woken.backend := ⟨rfl, rfl, rfl, rfl, rfl, rfl⟩
  have h₂ : Still woken.backend woken.deliver.1.backend :=
    deliverUpTo_keeps (P := fun x => Still woken.backend x.backend)
      (fun _ _ _ s h => have ⟨_, hn⟩ := deliverOne_next h; s.trans (.next hn)) _ .refl
  have h₃ : c.quiesce.1.backend = woken.deliver.1.backend := enqueue_backend _
  exact h₃ ▸ h₁.trans h₂

-- The nodes and the watches are touched by the calls alone that are accepted.
theorem act_backend (a : Act ε) : Still c.backend (c.act a).backend ∨
    ∃ call, c.running ∧ IsAbsolute call.op.path ∧
      (c.act a).backend = (c.backend.issue c.registry.nextId call).2 := by
  cases a
  case submit op o =>
    simp only [act]
    cases h : Client.accept (op.watching o.hasWatcher) o.hasWatcher c
    case error => rw [Client.submit_rejected h]; exact .inl .refl
    case ok =>
      have ⟨hr, _⟩ := assertOpen_ok (Client.accept_ok h).right
      rw [Client.submit_accepted h]
      exact .inr ⟨Client.call op o, hr, Client.accept_path h, rfl⟩
  case hook step h => exact .inl <| .hook h
  case deliver =>
    refine .inl <| deliver_keeps (P := fun x => Still c.backend x.backend) .refl fun _ _ h => ?_
    have ⟨_, hn⟩ := deliverOne_next h
    exact .next hn
  case quiesce         => exact .inl quiesce_still
  case allocate | tick => exact .inl ⟨rfl, rfl, rfl, rfl, rfl, rfl⟩
  case take            => rw [act, Attends.nextEvent.backend]; exact .inl .refl
  case dispatch        => rw [act, (Attends.passOn .nextEvent).backend]; exact .inl .refl
  case pop             => rw [act, (Attends.passOn .popped).backend]; exact .inl .refl
  case handOut         => rw [act, Attends.handOut.backend]; exact .inl .refl
  case finish | read   => exact .inl .refl

theorem act_running (a : Act ε) (h : (c.act a).running) : c.running := by
  cases a
  case submit op o =>
    simp only [act] at h
    cases ha : Client.accept (op.watching o.hasWatcher) o.hasWatcher c
    case error => rwa [Client.submit_rejected ha] at h
    case ok    => rwa [Client.submit_accepted ha] at h
  case deliver =>
    revert h
    exact deliver_keeps (P := fun x => x.running → c.running) id fun _ _ h hr =>
      (deliverOne_moves h).running ▸ hr
  case quiesce  => exact nomatch quiesce_moves.running.symm.trans h
  case take     => exact Attends.nextEvent.running ▸ h
  case dispatch => exact (Attends.passOn .nextEvent).running ▸ h
  case pop      => exact (Attends.passOn .popped).running ▸ h
  case handOut  => exact Attends.handOut.running ▸ h
  case allocate | hook | tick | finish | read => exact h

-- While the connection is closing, no call is accepted.
theorem acts_still (h : c.running = false) (as : List (Act ε)) :
    (c.acts as).running = false ∧ Still c.backend (c.acts as).backend := by
  induction as generalizing c
  case nil => exact ⟨h, .refl⟩
  case cons a as ih =>
    have ha : (c.act a).running = false := Bool.eq_false_iff.mpr fun hr =>
      nomatch h.symm.trans (act_running a hr)
    have ⟨hr, hs⟩ := ih ha
    refine ⟨hr, Still.trans ?_ hs⟩
    rcases act_backend (c := c) a with hs | ⟨_, hr, _⟩
    · exact hs
    · exact nomatch h.symm.trans hr

-- There is a stream, and a queue that it flows into.
structure Streams (c : Connection Memory (Callback ε)) : Prop where
  queue   : c.queue.isSome
  channel : c.backend.channel.isSome

structure Flows (put out : List Event) (c c' : Connection Memory (Callback ε)) : Prop where
  streams : c'.Streams
  events  : out ++ c'.upcoming = c.upcoming ++ put

namespace Flows

variable {put put' out out' : List Event}

theorem refl (s : c.Streams) : Flows [] [] c c :=
  ⟨s, (List.append_nil _).symm⟩

theorem trans (f : Flows put out c c') (f' : Flows put' out' c' c'') :
    Flows (put ++ put') (out ++ out') c c'' where
  streams := f'.streams
  events  := by
    rw [List.append_assoc, f'.events, ← List.append_assoc, f.events, List.append_assoc]

theorem of_items {q q' : Queue} {items items' : List Item} (hq : c.queue = some q)
    (hc : c.backend.channel = some items) (hq' : c'.queue = some q')
    (hc' : c'.backend.channel = some items')
    (h : out ++ (q'.toList ++ items').filterMap Item.event? =
      (q.toList ++ items).filterMap Item.event? ++ put) : Flows put out c c' := by
  refine ⟨⟨by rw [hq']; rfl, by rw [hc']; rfl⟩, ?_⟩
  simpa [upcoming, queued, hq, hc, hq', hc'] using h

theorem of_emits (s : c.Streams) (hq : c'.queue = c.queue)
    (e : Emits c.backend put c'.backend) : Flows put [] c c' := by
  have ⟨q, hc⟩ := Option.isSome_iff_exists.mp s.queue
  have ⟨items, hi⟩ := Option.isSome_iff_exists.mp s.channel
  have hp : (put.map Item.event).filterMap Item.event? = put := by
    simp [List.filterMap_map, Function.comp_def, Item.event?]
  have hi' : c'.backend.channel = some (items ++ put.map .event) := by rw [e, hi]; rfl
  exact .of_items hc hi (hq.trans hc) hi' (by simp [hp])

theorem popped (s : c.Streams) : Flows [] c.popped.1.toList c c.popped.2 := by
  have ⟨q, hq⟩ := Option.isSome_iff_exists.mp s.queue
  have ⟨items, hc⟩ := Option.isSome_iff_exists.mp s.channel
  have hp : c.popped = (q.popEvent.1, { c with queue := some q.popEvent.2 }) := by
    rw [Connection.popped, hq]
  rw [hp]
  exact .of_items hq hc rfl hc (by simp [q.filterMap_toList])

theorem nextEvent (s : c.Streams) : Flows [] c.nextEvent.1.toList c c.nextEvent.2 := by
  have hn : c.nextEvent = if c.running then c.popped else (none, c) := by
    unfold Connection.nextEvent Connection.popped
    cases c.running <;> rfl
  rw [hn]
  split
  case isTrue  => exact popped s
  case isFalse => exact refl s

theorem passOn {taken : Option Event × Connection Memory (Callback ε)}
    (f : Flows put out c taken.2) : Flows put out c (passOn taken) := by
  rcases taken with ⟨_ | event, taken⟩
  case none => exact f
  case some =>
    rw [Connection.passOn, enter_snd]
    exact ⟨⟨f.streams.queue, f.streams.channel⟩, f.events⟩

theorem handOut (s : c.Streams) : Flows [] [] c c.handOut.2 := by
  have ⟨q, hq⟩ := Option.isSome_iff_exists.mp s.queue
  have ⟨items, hc⟩ := Option.isSome_iff_exists.mp s.channel
  rw [handOut_of_queue hq]
  exact .of_items hq hc rfl hc (by simp [Queue.toList_handOut])

-- The oldest item of the stream becomes the newest of the queue.
theorem deliverOne {records : List Record} (s : c.Streams)
    (h : c.deliverOne = some (c', records)) : Flows [] [] c c' := by
  have ⟨q, hq⟩ := Option.isSome_iff_exists.mp s.queue
  rcases deliverOne_cases h with ⟨e, m, hn, rfl⟩ | ⟨answer, m, hn, ha, rfl⟩
  case inl =>
    rcases Memory.next_cases hn with ⟨item, rest, hc, hi, rfl⟩ | ⟨⟨_, he⟩, _⟩
    case inr => cases he
    case inl =>
      cases hi
      simp only [Connection.enqueue, hq]
      exact .of_items hq hc rfl rfl (by simp [Item.event?])
  case inr =>
    rcases Memory.next_cases hn with ⟨item, rest, hc, rfl, rfl⟩ | ⟨_, rfl⟩
    case inr => exact .of_emits s rfl (.of_channel rfl)
    case inl =>
      cases item
      case event e  => exact absurd rfl (ha e)
      case shutdown => exact .of_items hq hc hq rfl (by simp [List.filterMap_cons, Item.event?])

theorem quiesce (s : c.Streams) : Flows [] [] c c.quiesce.1 := by
  let woken := { c with running := false, backend := Backend.wake c.backend }
  let left := { woken.deliver.1 with delivering := false }
  have f₁ : Flows [] [] c woken := by
    have ⟨q, hq⟩ := Option.isSome_iff_exists.mp s.queue
    have ⟨items, hc⟩ := Option.isSome_iff_exists.mp s.channel
    have hw : woken.backend.channel = some (items ++ [.shutdown]) := congrArg (Option.map _) hc
    exact .of_items hq hc hq hw (by simp [Item.event?])
  have f₂ : Flows [] [] woken woken.deliver.1 := deliverUpTo_keeps (P := Flows [] [] woken)
    (fun _ _ _ f h => f.trans <| deliverOne f.streams h) _ (refl f₁.streams)
  have f₃ : Flows [] [] woken.deliver.1 left := .of_emits f₂.streams rfl (.of_channel rfl)
  have f₄ : Flows [] [] left c.quiesce.1 := by
    have ⟨q, hq⟩ := Option.isSome_iff_exists.mp f₃.streams.queue
    have ⟨items, hc⟩ := Option.isSome_iff_exists.mp f₃.streams.channel
    have he : c.quiesce.1 = { left with queue := some (q.push .shutdown) } := by
      change (left.enqueue .shutdown).1 = _
      simp only [Connection.enqueue, hq]
    rw [he]
    exact .of_items hq hc rfl hc (by simp [List.filterMap_cons, Item.event?])
  exact f₁.trans f₂ |>.trans f₃ |>.trans f₄

end Flows

theorem act_flows (s : c.Streams) (a : Act ε) : Flows (c.emitting a) (c.hearing a) c (c.act a) := by
  cases a
  case submit op o =>
    simp only [emitting, hearing, act]
    cases h : Client.accept (op.watching o.hasWatcher) o.hasWatcher c
    case error => rw [Client.submit_rejected h]; exact .refl s
    case ok =>
      rw [Client.submit_accepted h]
      exact .of_emits s rfl (.issue ..)
  case hook step h => exact .of_emits s rfl (.hook h)
  case tick        => exact .of_emits s rfl (.of_channel rfl)
  case deliver =>
    exact deliver_keeps (P := Flows [] [] c) (.refl s) fun _ _ h => .deliverOne s h
  case take     => exact .nextEvent s
  case dispatch => exact .passOn <| .nextEvent s
  case pop      => exact .passOn <| .popped s
  case quiesce  => exact .quiesce s
  case allocate | finish => exact .of_emits s rfl (.of_channel rfl)
  case handOut => exact .handOut s
  case read bytes =>
    have ⟨q, hq⟩ := Option.isSome_iff_exists.mp s.queue
    have ⟨items, hc⟩ := Option.isSome_iff_exists.mp s.channel
    exact .of_items hq hc (congrArg (Option.map _) hq) hc (List.append_nil _).symm

theorem acts_flows (s : c.Streams) (as : List (Act ε)) :
    Flows (emitted as c) (heard as c) c (c.acts as) := by
  induction as generalizing c
  case nil => exact .refl s
  case cons a as ih =>
    have f := act_flows s a
    exact f.trans <| ih f.streams

end Connection
end Coordination
