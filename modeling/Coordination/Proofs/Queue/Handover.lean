import Coordination.Proofs.Queue.Readiness

namespace Coordination

namespace Queue

-- What is done to a queue whose read end nobody holds yet.
inductive Use
  | push (item : Item)
  -- Takes the oldest item, without waiting for one.
  | pop

def use (q : Queue) : Use → Queue
  | .push item => q.push item
  | .pop => q.pop.2

def run (q : Queue) (uses : List Use) : Queue :=
  uses.foldl use q

def sizes : List Use → Queue → List Nat
  | [], _ => []
  | u :: uses, q => (q.use u).size :: sizes uses (q.use u)

-- There were once so many items that signals of `n` or more did not fit, and there have never been
-- fewer than `n` since.
def Lacking (n : Nat) (past : List Nat) : Prop :=
  ∃ before peak after, past = before ++ peak :: after ∧ n + Pipe.capacity ≤ peak ∧
    ∀ size ∈ after, n ≤ size

variable {q : Queue} {past : List Nat} {item : Item} {n : Nat}

theorem lacking_concat {size : Nat} :
    Lacking n (past ++ [size]) ↔ n + Pipe.capacity ≤ size ∨ Lacking n past ∧ n ≤ size := by
  constructor
  case mp =>
    intro ⟨before, peak, after, hp, hn, ha⟩
    rcases after.eq_nil_or_concat with rfl | ⟨after, last, rfl⟩
    case inl =>
      have ⟨_, he⟩ := List.append_inj' hp rfl
      cases he
      exact .inl hn
    case inr =>
      rw [List.concat_eq_append] at hp ha
      rw [← List.cons_append, ← List.append_assoc] at hp
      have ⟨hpast, he⟩ := List.append_inj' hp rfl
      cases he
      refine .inr ⟨⟨before, peak, after, hpast, hn, fun s hs => ?_⟩, ha size (by simp)⟩
      exact ha s (List.mem_append_left _ hs)
  case mpr =>
    rintro (h | ⟨⟨before, peak, after, rfl, hn, ha⟩, h⟩)
    case inl => exact ⟨past, size, [], rfl, h, nofun⟩
    case inr =>
      refine ⟨before, peak, after ++ [size], by simp, hn, fun s hs => ?_⟩
      rcases List.mem_append.mp hs with hs | hs
      case inl => exact ha s hs
      case inr => exact List.mem_singleton.mp hs ▸ h

theorem size_send : (q.send item).size = q.size + 1 := by
  have h := congrArg List.length (q.toList_send item)
  rw [List.length_append] at h
  simpa [size, toList] using h

theorem size_signal : q.signal.size = q.size := by
  unfold signal
  split <;> rfl

theorem size_push : (q.push item).size = q.size + 1 :=
  size_signal.trans size_send

theorem size_eq_zero_iff : q.size = 0 ↔ q.toList = [] := by
  rw [← List.length_eq_zero_iff, toList, Fifo.length_toList, size]

theorem isEmpty_eq_false_iff : q.isEmpty = false ↔ 0 < q.size := by
  rw [Nat.pos_iff_ne_zero, ne_eq, size_eq_zero_iff, ← Bool.not_eq_true]
  exact not_congr (Fifo.isEmpty_iff q.items)

theorem size_pop : q.pop.2.size = q.size - 1 := by
  have h := congrArg List.length q.toList_pop
  simp only [toList, Fifo.length_toList, List.length_append] at h
  cases hi : q.pop.1
  case none =>
    have hz : q.items.size = 0 := size_eq_zero_iff.mpr <| q.pop_eq_none_iff.mp hi
    simp only [hi, Option.toList_none, List.length_nil] at h
    simp only [size]
    omega
  case some item =>
    simp only [hi, Option.toList_some, List.length_singleton] at h
    simp only [size]
    omega

theorem clearReads_signal : q.signal.clearReads = q.clearReads := by
  unfold signal
  split <;> rfl

theorem clearReads_pop : q.pop.2.clearReads = q.clearReads := by
  unfold pop clearRead
  split
  case h_1 => rfl
  case h_2 => split <;> rfl

-- A queue that reads a byte with every pop, and has no byte but for an item.
structure Clears (q : Queue) : Prop where
  isOpen     : q.isOpen
  clearReads : q.clearReads
  fits       : q.pipe.bytes ≤ Pipe.capacity
  announces  : q.pipe.bytes ≤ q.size

namespace Clears

theorem bytes_push (h : q.Clears) :
    (q.push item).pipe.bytes = min (q.pipe.bytes + 1) Pipe.capacity := by
  have := h.fits
  simp only [Queue.push, send, signal, h.isOpen, if_true, Pipe.signal]
  split
  all_goals
    simp only
    omega

theorem bytes_pop (h : q.Clears) : q.pop.2.pipe.bytes = q.pipe.bytes - 1 := by
  have := h.announces
  unfold pop
  split
  case h_1 he =>
    have hz : q.size = 0 := size_eq_zero_iff.mpr <| (Fifo.pop?_eq_none_iff _).mp he
    simp only
    omega
  case h_2 =>
    simp only [clearRead, h.isOpen, h.clearReads, Bool.and_self, if_true, Pipe.consume]
    split
    case isTrue  => simp only; omega
    case isFalse => rfl

theorem push (h : q.Clears) : (q.push item).Clears where
  isOpen     := isOpen_signal.trans h.isOpen
  clearReads := clearReads_signal.trans h.clearReads
  fits       := h.bytes_push ▸ Nat.min_le_right ..
  announces  := by
    have := h.announces
    rw [h.bytes_push, size_push]
    omega

theorem pop (h : q.Clears) : q.pop.2.Clears where
  isOpen     := isOpen_pop.trans h.isOpen
  clearReads := clearReads_pop.trans h.clearReads
  fits       := by
    have := h.fits
    rw [h.bytes_pop]
    omega
  announces  := by
    have := h.announces
    rw [h.bytes_pop, size_pop]
    omega

end Clears

-- What the bytes in the pipe tell of the past.
structure Tally (past : List Nat) (q : Queue) : Prop where
  clears : q.Clears
  lost   : ∀ n, 0 < n → (q.pipe.bytes + n ≤ q.size ↔ Lacking n past)

namespace Tally

theorem push (t : Tally past q) : Tally (past ++ [(q.push item).size]) (q.push item) where
  clears := t.clears.push
  lost n hn := by
    have := t.clears.fits
    rw [lacking_concat, ← t.lost n hn, t.clears.bytes_push, size_push]
    omega

theorem pop (t : Tally past q) : Tally (past ++ [q.pop.2.size]) q.pop.2 where
  clears := t.clears.pop
  lost n hn := by
    have := t.clears.fits
    have := t.clears.announces
    rw [lacking_concat, ← t.lost n hn, t.clears.bytes_pop, size_pop]
    omega

theorem use (t : Tally past q) (u : Use) : Tally (past ++ [(q.use u).size]) (q.use u) := by
  cases u
  case push item => exact t.push
  case pop       => exact t.pop

theorem run (t : Tally past q) (uses : List Use) :
    Tally (past ++ q.sizes uses) (q.run uses) := by
  induction uses generalizing past q
  case nil => exact (List.append_nil past).symm ▸ t
  case cons u uses ih =>
    have h := ih (t.use u)
    rwa [List.append_assoc] at h

theorem new : Tally [] (new true) where
  clears := ⟨rfl, rfl, Nat.zero_le _, Nat.le_refl 0⟩
  lost n hn := by
    refine iff_of_false (Nat.not_le.mpr ?_) fun ⟨_, _, _, hp, _⟩ => by simp at hp
    change 0 < 0 + n
    omega

end Tally

theorem run_append {a b : List Use} : q.run (a ++ b) = (q.run a).run b :=
  List.foldl_append

namespace Clears

theorem pushes (h : q.Clears) (item : Item) (n : Nat) :
    let q' := q.run (List.replicate n (.push item))
    q'.Clears ∧ q'.size = q.size + n ∧ q'.pipe.bytes = min (q.pipe.bytes + n) Pipe.capacity := by
  induction n generalizing q
  case zero => exact ⟨h, rfl, (Nat.min_eq_left h.fits).symm⟩
  case succ n ih =>
    have pushed : (q.push item).Clears := h.push
    have ⟨clears, hs, hb⟩ := ih pushed
    refine ⟨clears, hs.trans ?_, hb.trans ?_⟩
    case refine_1 => rw [size_push]; omega
    case refine_2 => rw [h.bytes_push]; omega

theorem pops (h : q.Clears) (n : Nat) :
    let q' := q.run (List.replicate n .pop)
    q'.Clears ∧ q'.size = q.size - n ∧ q'.pipe.bytes = q.pipe.bytes - n := by
  induction n generalizing q
  case zero => exact ⟨h, rfl, rfl⟩
  case succ n ih =>
    have ⟨clears, hs, hb⟩ := ih h.pop
    refine ⟨clears, hs.trans ?_, hb.trans ?_⟩
    case refine_1 => rw [size_pop]; omega
    case refine_2 => rw [h.bytes_pop]; omega

-- One item more than the pipe has room for, and then as many are taken as it has told of.
theorem overflow (h : q.Clears) (empty : q.size = 0) (item : Item) (room : Nat)
    (hr : room = Pipe.capacity) :
    let q' := q.run (List.replicate (room + 1) (.push item) ++ List.replicate room .pop)
    q'.Clears ∧ q'.isEmpty = false ∧ q'.pipe.bytes = 0 := by
  have ⟨pushed, hs, hb⟩ := h.pushes item (room + 1)
  have ⟨popped, hs', hb'⟩ := pushed.pops room
  rw [run_append]
  exact ⟨popped, isEmpty_eq_false_iff.mpr (by omega), by omega⟩

end Clears

def someEvent : Item :=
  .event (.watch ⟨⟨1⟩, .changed, .connected, none⟩)

-- As many are taken as the pipe has told of.
def overflowing : List Use :=
  List.replicate (Pipe.capacity + 1) (.push someEvent) ++ List.replicate Pipe.capacity .pop

theorem overflowing_spent :
    let q := (new true).run overflowing
    q.Clears ∧ q.isEmpty = false ∧ q.pipe.bytes = 0 := by
  rw [overflowing]
  exact Tally.new.clears.overflow rfl someEvent Pipe.capacity rfl

theorem handOut_readable (h : q.Clears) :
    q.handOut.1 = true ∧ (q.handOut.2.pipe.isReadable ↔ 0 < q.pipe.bytes) := by
  rw [handOut, if_pos h.isOpen]
  exact ⟨rfl, decide_eq_true_iff⟩

-- A handle is handed out, and it tells that there are items, unless the queue has once been so full
-- that signals of all that is in it now were lost, and has not had less in it since.
theorem handOut_readable_iff (uses : List Use) :
    let q := (new true).run uses
    q.handOut.1 = true ∧ (q.handOut.2.pipe.isReadable ↔
      q.isEmpty = false ∧ ¬Lacking q.size ((new true).sizes uses)) := by
  intro q
  have t : Tally ((new true).sizes uses) q := Tally.new.run uses
  have ⟨handed, readable⟩ := handOut_readable t.clears
  have ha := t.clears.announces
  refine ⟨handed, readable.trans ?_⟩
  rw [isEmpty_eq_false_iff]
  constructor
  case mp =>
    intro hb
    have hs : 0 < q.size := Nat.lt_of_lt_of_le hb ha
    refine ⟨hs, fun hl => ?_⟩
    have := (t.lost q.size hs).mpr hl
    omega
  case mpr =>
    intro ⟨hs, hl⟩
    have := mt (t.lost q.size hs).mp hl
    omega

-- There is an event, and the handle does not tell.
theorem handOut_silent :
    ((new true).run overflowing).isEmpty = false ∧
      ((new true).run overflowing).handOut.1 = true ∧
      ¬((new true).run overflowing).handOut.2.pipe.isReadable := by
  have ⟨clears, filled, bytes⟩ := overflowing_spent
  have ⟨handed, readable⟩ := handOut_readable clears
  exact ⟨filled, handed, fun h => Nat.ne_of_gt (readable.mp h) bytes⟩

end Queue
end Coordination
