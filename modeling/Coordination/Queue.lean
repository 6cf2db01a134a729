import Coordination.Event
import Coordination.Fifo
import Coordination.Log

/-!
The event queue with its readiness pipe. A push first sends the item and then writes a byte into the
pipe, so that whoever reads the byte finds the item; a pop reads a byte back while the queue clears
the pipe itself. Handing out the read end ends that: from then on its holder reads the bytes.
-/
namespace Coordination

-- A pipe of bounded length of which only the number of bytes matters.
structure Pipe where
  bytes : Nat
  -- Signals have been lost since a byte was last read.
  saturated : Bool
  deriving DecidableEq, Repr, Inhabited

namespace Pipe

-- The number of bytes a pipe holds.
def capacity : Nat := 65536

def empty : Pipe := ⟨0, false⟩

def signal (p : Pipe) : Pipe :=
  if p.bytes < capacity then { p with bytes := p.bytes + 1 } else { p with saturated := true }

-- Whether the next signal is the first one lost since a byte was last read.
def warns (p : Pipe) : Bool :=
  !(p.bytes < capacity) && !p.saturated

-- Reads a byte, if there is one.
def consume (p : Pipe) : Bool × Pipe :=
  if p.bytes = 0 then (false, p) else (true, ⟨p.bytes - 1, false⟩)

def consumeUpTo (n : Nat) (p : Pipe) : Nat × Pipe :=
  if p.bytes = 0 || n = 0 then (0, p) else (min n p.bytes, ⟨p.bytes - min n p.bytes, false⟩)

def isReadable (p : Pipe) : Bool :=
  0 < p.bytes

end Pipe

structure Queue where
  items : Fifo Item
  pipe : Pipe
  -- Whether the pipe still belongs to the queue.
  isOpen : Bool
  -- Whether a pop reads a byte.
  clearReads : Bool
  deriving Inhabited

namespace Queue

def new (clearReads : Bool) : Queue := ⟨.empty, .empty, true, clearReads⟩

def toList (q : Queue) : List Item :=
  q.items.toList

-- The first half of a push.
def send (item : Item) (q : Queue) : Queue :=
  { q with items := q.items.push item }

-- The second half of a push; without a pipe it does nothing.
def signal (q : Queue) : Queue :=
  if q.isOpen then { q with pipe := q.pipe.signal } else q

def warns (q : Queue) : Bool :=
  q.isOpen && q.pipe.warns

def push (item : Item) (q : Queue) : Queue :=
  (q.send item).signal

-- What a successful pop does to the pipe.
def clearRead (q : Queue) : Queue :=
  if q.isOpen && q.clearReads then { q with pipe := q.pipe.consume.2 } else q

-- Takes the oldest item, without waiting for one.
def pop (q : Queue) : Option Item × Queue :=
  match q.items.pop? with
  | none => (none, q)
  | some (item, items) => (some item, { q with items := items }.clearRead)

-- Takes the oldest item; the marker counts as no event.
def popEvent (q : Queue) : Option Event × Queue :=
  let (item, q) := q.pop
  (item.bind Item.event?, q)

def size (q : Queue) : Nat :=
  q.items.size

def isEmpty (q : Queue) : Bool :=
  q.items.isEmpty

-- Hands out the read end, if the pipe is still there.
def handOut (q : Queue) : Bool × Queue :=
  if q.isOpen then (true, { q with clearReads := false }) else (false, q)

def setClearReads (on : Bool) (q : Queue) : Queue :=
  { q with clearReads := on }

-- Gives up the pipe; handles keep it.
def close (q : Queue) : Queue :=
  { q with isOpen := false }

@[simp] theorem toList_new (on : Bool) : (new on).toList = [] := rfl

@[simp] theorem toList_send (item : Item) (q : Queue) :
    (q.send item).toList = q.toList ++ [item] := by
  simp [send, toList]

@[simp] theorem toList_signal (q : Queue) : q.signal.toList = q.toList := by
  simp only [signal, toList]
  split <;> rfl

@[simp] theorem toList_push (item : Item) (q : Queue) :
    (q.push item).toList = q.toList ++ [item] := by
  simp [push]

@[simp] theorem toList_clearRead (q : Queue) : q.clearRead.toList = q.toList := by
  simp only [clearRead, toList]
  split <;> rfl

theorem toList_pop (q : Queue) : q.toList = q.pop.1.toList ++ q.pop.2.toList := by
  simp only [pop]
  split
  next h => simp
  next item items h => simp [toList, Fifo.toList_of_pop? h, clearRead]; split <;> rfl

theorem pop_eq_none_iff (q : Queue) : q.pop.1 = none ↔ q.toList = [] := by
  simp only [pop, toList, ← Fifo.pop?_eq_none_iff]
  split <;> simp_all

theorem isEmpty_toList (q : Queue) : q.toList.isEmpty = q.isEmpty := by
  rw [Bool.eq_iff_iff, List.isEmpty_iff]
  exact (Fifo.isEmpty_iff _).symm

theorem pop_nil {q : Queue} (h : q.toList = []) : q.pop.1 = none ∧ q.pop.2.toList = [] := by
  have hn := q.pop_eq_none_iff.mpr h
  have hp := q.toList_pop
  rw [h, hn] at hp
  exact ⟨hn, hp.symm⟩

theorem pop_cons {q : Queue} {item : Item} {rest : List Item} (h : q.toList = item :: rest) :
    q.pop.1 = some item ∧ q.pop.2.toList = rest := by
  have hp := q.toList_pop
  cases hi : q.pop.1
  case none =>
    rw [q.pop_eq_none_iff.mp hi] at h
    cases h
  case some =>
    rw [h, hi] at hp
    cases hp
    exact ⟨rfl, rfl⟩

theorem popEvent_nil {q : Queue} (h : q.toList = []) :
    q.popEvent.1 = none ∧ q.popEvent.2.toList = [] := by
  obtain ⟨hn, hl⟩ := pop_nil h
  exact ⟨by simp [popEvent, hn], hl⟩

theorem popEvent_cons {q : Queue} {item : Item} {rest : List Item} (h : q.toList = item :: rest) :
    q.popEvent.1 = item.event? ∧ q.popEvent.2.toList = rest := by
  obtain ⟨hi, hl⟩ := pop_cons h
  exact ⟨by simp [popEvent, hi], hl⟩

-- The counts and flags of a queue, as a text.
def describe (q : Queue) : String :=
  "EventQueue \x7b len: " ++ toString q.size ++ ", closed: " ++ toString (!q.isOpen) ++
    ", clear_reads_on_pop: " ++ toString q.clearReads ++ " \x7d"

end Queue

-- The record of the first signal that a full pipe loses.
def Pipe.fullRecord : Record :=
  ⟨.warn, "readiness pipe full, dropping signals; drain the queue until it is empty", []⟩

end Coordination
