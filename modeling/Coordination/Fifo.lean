namespace Coordination

structure Fifo (α : Type) where
  front : List α := []
  back : List α := []
  deriving Inhabited

namespace Fifo

variable {α : Type}

def toList (q : Fifo α) : List α :=
  q.front ++ q.back.reverse

def empty : Fifo α := {}

def push (a : α) (q : Fifo α) : Fifo α :=
  { q with back := a :: q.back }

def pop? (q : Fifo α) : Option (α × Fifo α) :=
  match q.front, q.back.reverse with
  | a :: front, _ => some (a, { q with front := front })
  | [], a :: front => some (a, ⟨front, []⟩)
  | [], [] => none

def size (q : Fifo α) : Nat :=
  q.front.length + q.back.length

def isEmpty (q : Fifo α) : Bool :=
  q.front.isEmpty && q.back.isEmpty

@[simp] theorem toList_empty : (empty : Fifo α).toList = [] := rfl

@[simp] theorem toList_push (a : α) (q : Fifo α) : (q.push a).toList = q.toList ++ [a] := by
  simp [toList, push]

@[simp] theorem length_toList (q : Fifo α) : q.toList.length = q.size := by
  simp [toList, size]

theorem isEmpty_iff (q : Fifo α) : q.isEmpty = true ↔ q.toList = [] := by
  simp [isEmpty, toList]

theorem pop?_eq_none_iff (q : Fifo α) : q.pop? = none ↔ q.toList = [] := by
  obtain ⟨front, back⟩ := q
  cases front <;> cases h : back.reverse <;> simp [pop?, toList, h]

theorem toList_of_pop? {q q' : Fifo α} {a : α} (h : q.pop? = some (a, q')) :
    q.toList = a :: q'.toList := by
  unfold pop? at h
  split at h
  next hf => cases h; simp [toList, hf]
  next hf hb => cases h; simp [toList, hf, hb]
  next => cases h

end Fifo
end Coordination
