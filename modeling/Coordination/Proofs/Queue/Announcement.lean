import Coordination.Proofs.Queue.Handover

namespace Coordination

-- A queue that is pushed to, and a holder of its read end who pops once for every byte it reads.
structure Follower where
  queue : Queue
  -- The producers that have sent their item and not signalled yet.
  pending : List Nat
  -- A byte has been read, and its pop is still to come.
  owing : Bool
  -- The items sent so far, in order.
  sent : List Item
  -- What the pops have answered so far, in order.
  answers : List (Option Item)

namespace Follower

inductive Move
  -- The two steps of a push.
  | send (producer : Nat) (item : Item)
  | signal (producer : Nat)
  -- The holder takes its next step.
  | hold

def handed (clearReads : Bool) : Follower where
  queue   := (Queue.new clearReads).handOut.2
  pending := []
  owing   := false
  sent    := []
  answers := []

def send (producer : Nat) (item : Item) (f : Follower) : Follower :=
  if producer ∈ f.pending then f
  else { f with
    queue   := f.queue.send item
    pending := producer :: f.pending
    sent    := f.sent ++ [item] }

def signal (producer : Nat) (f : Follower) : Follower :=
  if producer ∈ f.pending then
    { f with queue := f.queue.signal, pending := f.pending.erase producer }
  else f

def hold (f : Follower) : Follower :=
  if f.owing then
    { f with queue := f.queue.pop.2, owing := false, answers := f.answers ++ [f.queue.pop.1] }
  else
    { f with queue.pipe := f.queue.pipe.consume.2, owing := f.queue.pipe.consume.1 }

def step (f : Follower) : Move → Follower
  | .send producer item => f.send producer item
  | .signal producer => f.signal producer
  | .hold => f.hold

def run (f : Follower) (moves : List Move) : Follower :=
  moves.foldl step f

end Follower

theorem Pipe.bytes_consume (p : Pipe) : p.consume.2.bytes + p.consume.1.toNat = p.bytes := by
  unfold consume
  split
  case isTrue  => rfl
  case isFalse => exact Nat.sub_add_cancel (by omega)

namespace Queue

variable {q : Queue}

theorem bytes_signal_le : q.signal.pipe.bytes ≤ q.pipe.bytes + 1 := by
  unfold signal Pipe.signal
  split
  case isFalse => exact Nat.le_succ _
  case isTrue =>
    split
    case isTrue  => exact Nat.le_refl _
    case isFalse => exact Nat.le_succ _

-- The bytes are left to the holder of the read end.
theorem pipe_pop (h : q.clearReads = false) : q.pop.2.pipe = q.pipe := by
  unfold pop clearRead
  split
  case h_1 => rfl
  case h_2 => simp [h]

end Queue

namespace Follower

variable {f : Follower}

-- The items popped were sent first and the queue has the others, and for every byte that is in the
-- pipe, was read or is to come there is an item of its own in the queue.
structure Backed (f : Follower) : Prop where
  clearReads : f.queue.clearReads = false
  backed     : f.queue.pipe.bytes + f.owing.toNat + f.pending.length ≤ f.queue.size
  ordered    : ∃ popped, f.answers = popped.map some ∧ f.sent = popped ++ f.queue.toList

namespace Backed

theorem handed (clearReads : Bool) : (handed clearReads).Backed where
  clearReads := rfl
  backed     := Nat.le_refl 0
  ordered    := ⟨[], rfl, rfl⟩

theorem send (h : f.Backed) (producer : Nat) (item : Item) : (f.send producer item).Backed := by
  unfold Follower.send
  split
  case isTrue => exact h
  case isFalse =>
    have hb := h.backed
    have ⟨popped, ha, hs⟩ := h.ordered
    constructor
    case clearReads => exact h.clearReads
    case ordered    => exact ⟨popped, ha, by simp [hs]⟩
    case backed =>
      rw [Queue.size_send, List.length_cons]
      exact Nat.succ_le_succ hb

theorem signal (h : f.Backed) (producer : Nat) : (f.signal producer).Backed := by
  unfold Follower.signal
  split
  case isFalse => exact h
  case isTrue hp =>
    have hb := h.backed
    constructor
    case clearReads => exact Queue.clearReads_signal.trans h.clearReads
    case ordered    => simpa using h.ordered
    case backed =>
      have hs : f.queue.signal.pipe.bytes ≤ f.queue.pipe.bytes + 1 := Queue.bytes_signal_le
      have hl := List.length_pos_of_mem hp
      rw [Queue.size_signal, List.length_erase_of_mem hp]
      simp only
      omega

-- Whoever has read a byte finds an item.
theorem exists_pop (h : f.Backed) (ho : f.owing) : ∃ item, f.queue.pop.1 = some item := by
  have hb := h.backed
  rw [ho, Bool.toNat_true] at hb
  refine Option.ne_none_iff_exists'.mp fun hn => ?_
  have hz := Queue.size_eq_zero_iff.mpr <| f.queue.pop_eq_none_iff.mp hn
  omega

theorem hold (h : f.Backed) : f.hold.Backed := by
  have hb := h.backed
  unfold Follower.hold
  split
  case isFalse ho =>
    refine ⟨h.clearReads, ?_, h.ordered⟩
    have hc := f.queue.pipe.bytes_consume
    simp only [Queue.size] at hb ⊢
    omega
  case isTrue ho =>
    obtain ⟨item, hi⟩ := h.exists_pop ho
    obtain ⟨popped, ha, hs⟩ := h.ordered
    have hq := f.queue.toList_pop
    constructor
    case clearReads => exact Queue.clearReads_pop.trans h.clearReads
    case ordered    => exact ⟨popped ++ [item], by simp [ha, hi], by simp [hs, hq, hi]⟩
    case backed =>
      change f.queue.pop.2.pipe.bytes + 0 + f.pending.length ≤ f.queue.pop.2.size
      rw [ho, Bool.toNat_true] at hb
      rw [Queue.pipe_pop h.clearReads, Queue.size_pop]
      omega

theorem step (h : f.Backed) (m : Move) : (f.step m).Backed := by
  cases m
  case send producer item => exact h.send producer item
  case signal producer    => exact h.signal producer
  case hold               => exact h.hold

theorem run (h : f.Backed) (moves : List Move) : (f.run moves).Backed := by
  induction moves generalizing f
  case nil             => exact h
  case cons m moves ih => exact ih (h.step m)

end Backed

-- However the steps of producers and holder mix, and however many signals are lost, each byte in
-- the pipe, and the one that was read, announces an item of its own that is in the queue. So no pop
-- has been in vain, and what has been popped is what was sent first.
theorem byte_announces_item (clearReads : Bool) (moves : List Move) :
    let f := (handed clearReads).run moves
    f.queue.pipe.bytes + f.owing.toNat ≤ f.queue.size ∧
    ∃ popped, f.answers = popped.map some ∧ popped <+: f.sent := by
  intro f
  have h : f.Backed := Backed.handed clearReads |>.run moves
  have ⟨popped, ha, hs⟩ := h.ordered
  exact ⟨Nat.le_of_add_right_le h.backed, popped, ha, f.queue.toList, hs.symm⟩

-- The byte of the second producer announces the item of the first one, which has not signalled yet.
example :
    ((handed true).run
      [.send 1 .shutdown, .send 2 (.event default), .signal 2, .hold, .hold]).answers =
      [some .shutdown] := by
  decide

end Follower
end Coordination
