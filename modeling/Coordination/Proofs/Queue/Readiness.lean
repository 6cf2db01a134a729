import Coordination.Queue

namespace Coordination

-- A queue and the producers that push to it.
structure Feed where
  queue : Queue
  -- The producers that have sent their event and not signalled yet.
  pending : List Nat
  -- The events sent so far, in order.
  sent : List Event

namespace Feed

-- The first step of a push. A producer that has not finished its last push cannot take it.
def send (producer : Nat) (event : Event) (f : Feed) : Feed :=
  if producer ∈ f.pending then f
  else ⟨f.queue.send (.event event), producer :: f.pending, f.sent ++ [event]⟩

-- The second step of a push.
def signal (producer : Nat) (f : Feed) : Feed :=
  if producer ∈ f.pending then
    { f with queue := f.queue.signal, pending := f.pending.erase producer }
  else f

end Feed

-- What the holder of the read end does next.
inductive Phase where
  | waiting
  -- Reads the pipe until it is empty.
  | reading
  -- Pops the queue until it is empty.
  | popping
  deriving DecidableEq

-- A queue that is pushed to, and the holder of its read end.
structure Listener where
  feed : Feed
  phase : Phase
  -- The events popped so far, in order.
  popped : List Event

namespace Listener

inductive Move
  | send (producer : Nat) (event : Event)
  | signal (producer : Nat)
  -- The holder takes its next step.
  | hold

abbrev queue (l : Listener) : Queue :=
  l.feed.queue

def handed (clearReads : Bool) : Listener where
  feed   := ⟨(Queue.new clearReads).handOut.2, [], []⟩
  phase  := .waiting
  popped := []

-- Waiting ends when there is a byte to read.
def hold (l : Listener) : Listener :=
  match l.phase with
  | .waiting => if l.queue.pipe.isReadable then { l with phase := .reading } else l
  | .reading =>
    let (read, pipe) := l.queue.pipe.consume
    { l with feed.queue.pipe := pipe, phase := if read then .reading else .popping }
  | .popping =>
    match l.queue.popEvent with
    | (none, q) => { l with feed.queue := q, phase := .waiting }
    | (some event, q) => { l with feed.queue := q, popped := l.popped ++ [event] }

def step (l : Listener) : Move → Listener
  | .send producer event => { l with feed := l.feed.send producer event }
  | .signal producer => { l with feed := l.feed.signal producer }
  | .hold => l.hold

def run (l : Listener) (moves : List Move) : Listener :=
  moves.foldl step l

end Listener

namespace Queue

variable {q : Queue}

-- A signal leaves a byte in the pipe, be it the one of an earlier push.
theorem isReadable_signal (h : q.isOpen) : q.signal.pipe.isReadable := by
  rw [signal, if_pos h, Pipe.isReadable, Pipe.signal]
  split
  case isTrue       => simp
  case isFalse full =>
    have hb : 0 < Pipe.capacity := by decide
    simp only [decide_eq_true_eq]
    omega

theorem isOpen_signal : q.signal.isOpen = q.isOpen := by
  unfold signal
  split <;> rfl

theorem isOpen_pop : q.pop.2.isOpen = q.isOpen := by
  unfold pop clearRead
  split
  case h_1 => rfl
  case h_2 => split <;> rfl

-- In a queue of events, a pop without an event has found the queue empty.
theorem toList_of_popEvent {es : List Event} (h : q.toList = es.map .event) :
    q.toList = q.popEvent.1.toList.map .event ++ q.popEvent.2.toList ∧
      (q.popEvent.1 = none → q.popEvent.2.toList = []) := by
  have hp : q.toList = q.pop.1.toList ++ q.pop.2.toList := q.toList_pop
  have hn : q.pop.1 = none ↔ q.toList = [] := q.pop_eq_none_iff
  change q.toList = (q.pop.1.bind Item.event?).toList.map .event ++ q.pop.2.toList ∧
    (q.pop.1.bind Item.event? = none → q.pop.2.toList = [])
  cases hi : q.pop.1
  case none =>
    rw [hi, Option.toList_none, List.nil_append] at hp
    exact ⟨hp, fun _ => hp ▸ hn.mp hi⟩
  case some item =>
    rw [hi, Option.toList_some] at hp
    cases item
    case event    => exact ⟨hp, nofun⟩
    case shutdown =>
      have hm : Item.shutdown ∈ es.map Item.event := by rw [← h, hp]; simp
      simp at hm

end Queue

namespace Listener

variable {l : Listener}

-- All that was sent has been popped or is in the queue, and while the holder waits with events in
-- the queue, something is there that ends the waiting, or is to come.
structure Alert (l : Listener) : Prop where
  isOpen  : l.queue.isOpen
  ordered : l.feed.sent.map .event = l.popped.map .event ++ l.queue.toList
  roused  : l.phase = .waiting → l.queue.toList ≠ [] →
    l.queue.pipe.isReadable ∨ l.feed.pending ≠ []

namespace Alert

theorem handed (clearReads : Bool) : (handed clearReads).Alert where
  isOpen     := rfl
  ordered    := rfl
  roused _ h := absurd rfl h

theorem send (h : l.Alert) (producer : Nat) (event : Event) :
    (l.step (.send producer event)).Alert := by
  simp only [step, Feed.send]
  split
  case isTrue => exact h
  case isFalse =>
    constructor
    case isOpen  => exact h.isOpen
    case ordered => simp [queue, h.ordered]
    case roused  => exact fun _ _ => .inr (List.cons_ne_nil _ _)

theorem signal (h : l.Alert) (producer : Nat) : (l.step (.signal producer)).Alert := by
  simp only [step, Feed.signal]
  split
  case isFalse => exact h
  case isTrue =>
    constructor
    case isOpen  => exact Queue.isOpen_signal.trans h.isOpen
    case ordered => simp [queue, h.ordered]
    case roused  => exact fun _ _ => .inl (Queue.isReadable_signal h.isOpen)

-- The events in the queue are those sent last.
theorem exists_queued (h : l.Alert) : ∃ es : List Event, l.queue.toList = es.map .event := by
  have ⟨_, es, _, _, he⟩ := List.map_eq_append_iff.mp h.ordered
  exact ⟨es, he.symm⟩

theorem hold (h : l.Alert) : l.hold.Alert := by
  unfold Listener.hold
  split
  case h_1 =>
    split
    case isTrue  => exact ⟨h.isOpen, h.ordered, nofun⟩
    case isFalse => exact h
  case h_2 =>
    refine ⟨h.isOpen, h.ordered, fun hw => ?_⟩
    cases hr : l.queue.pipe.consume.1 <;> simp [hr] at hw
  case h_3 =>
    have ⟨es, he⟩ := h.exists_queued
    have ⟨hl, hn⟩ := Queue.toList_of_popEvent he
    have ho : l.queue.popEvent.2.isOpen := Queue.isOpen_pop.trans h.isOpen
    have hs := h.ordered
    rw [hl] at hs
    split
    case h_1 hp =>
      rw [hp] at hn ho hs
      exact ⟨ho, hs, fun _ hq => absurd (hn rfl) hq⟩
    case h_2 hp =>
      rw [hp] at ho hs
      exact ⟨ho, by simpa [queue] using hs, fun hw => by simp_all⟩

theorem step (h : l.Alert) (m : Move) : (l.step m).Alert := by
  cases m
  case send producer event => exact h.send producer event
  case signal producer     => exact h.signal producer
  case hold                => exact h.hold

theorem run (h : l.Alert) (moves : List Move) : (l.run moves).Alert := by
  induction moves generalizing l
  case nil             => exact h
  case cons m moves ih => exact ih (h.step m)

end Alert

-- However the steps of producers and holder mix, and however many signals are lost, the holder does
-- not wait while there are events, unless there is a byte to read or a producer about to signal,
-- and what it has popped is what was sent first.
theorem no_wait_in_vain (clearReads : Bool) (moves : List Move) :
    let l := (handed clearReads).run moves
    (l.phase = .waiting → l.queue.isEmpty = false →
      l.queue.pipe.isReadable ∨ l.feed.pending ≠ []) ∧
    l.feed.sent.map Item.event = l.popped.map Item.event ++ l.queue.toList := by
  intro l
  have h : l.Alert := Alert.handed clearReads |>.run moves
  refine ⟨fun hw hq => h.roused hw fun he => ?_, h.ordered⟩
  have hq' : l.queue.isEmpty := (Fifo.isEmpty_iff _).mpr he
  exact nomatch hq.symm.trans hq'

end Listener
end Coordination
