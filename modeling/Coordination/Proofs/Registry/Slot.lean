import Coordination.Dispatch

namespace Coordination

-- Where an entry is registered.
inductive Slot where
  | completion (id : RequestId)
  | watcher (id : RequestId)
  deriving DecidableEq, Repr

namespace Slot

def id : Slot → RequestId
  | completion id | watcher id => id

-- Every slot but that of the global watcher is used up by a call.
def isSingleUse : Slot → Bool
  | completion _ => true
  | watcher id => !id.isGlobal

theorem isSingleUse_of_ne {s : Slot} (h : s ≠ watcher .global) : s.isSingleUse := by
  cases s
  case completion => rfl
  case watcher id => simpa [isSingleUse, RequestId.isGlobal] using h

end Slot

namespace Entries

variable {η : Type} {t : Entries η} {id j : RequestId}

theorem getElem?_put (e : Entry η) : (t.insert id e)[j]? = if j = id then some e else t[j]? := by
  simp [Std.ExtTreeMap.getElem?_insert, eq_comm (a := id)]

theorem getElem?_drop : (t.erase id)[j]? = if j = id then none else t[j]? := by
  simp [Std.ExtTreeMap.getElem?_erase, eq_comm (a := id)]

theorem getElem?_restore (e : Entry η) :
    (t.insertIfNew id e)[j]? = if j = id then t[j]?.or (some e) else t[j]? := by
  simp only [Std.ExtTreeMap.getElem?_insertIfNew, Std.LawfulEqCmp.compare_eq_iff_eq]
  by_cases h : id = j
  case neg => simp [h, eq_comm (a := j)]
  case pos =>
    subst h
    cases hm : t[id]? <;> simp [Std.ExtTreeMap.mem_iff_isSome_getElem?, hm]

end Entries

namespace Registry

variable {η : Type} {r : Registry η} {s : Slot} {id : RequestId}

def get? (r : Registry η) : Slot → Option (Entry η)
  | .completion id => r.completions[id]?
  | .watcher id => r.watchers[id]?

theorem hasCompletion_eq : r.hasCompletion id = (r.get? (.completion id)).isSome :=
  Std.ExtTreeMap.contains_eq_isSome_getElem?

theorem hasWatcher_eq : r.hasWatcher id = (r.get? (.watcher id)).isSome :=
  Std.ExtTreeMap.contains_eq_isSome_getElem?

theorem get?_empty : (empty : Registry η).get? s = none := by
  cases s <;> simp [get?, empty]

theorem allocate_id (c w : Option (Entry η)) : (r.allocate c w).1 = r.nextId :=
  rfl

theorem allocate_nextId (c w : Option (Entry η)) :
    (r.allocate c w).2.nextId.number = r.nextId.number + 1 :=
  rfl

theorem get?_allocate_completion (c w : Option (Entry η)) :
    (r.allocate c w).2.get? (.completion id) =
      if id = r.nextId then c.or (r.get? (.completion id)) else r.get? (.completion id) := by
  cases c <;> simp [get?, allocate, Entries.getElem?_put]

theorem get?_allocate_watcher (c w : Option (Entry η)) :
    (r.allocate c w).2.get? (.watcher id) =
      if id = r.nextId then w.or (r.get? (.watcher id)) else r.get? (.watcher id) := by
  cases w <;> simp [get?, allocate, Entries.getElem?_put]

theorem get?_allocate_of_ne (c w : Option (Entry η)) (h : s.id ≠ r.nextId) :
    (r.allocate c w).2.get? s = r.get? s := by
  cases s
  case completion => exact get?_allocate_completion c w |>.trans <| if_neg h
  case watcher    => exact get?_allocate_watcher c w |>.trans <| if_neg h

theorem get?_resolveCompletion :
    (r.resolveCompletion id).2.get? s = if s = .completion id then none else r.get? s := by
  cases s <;> simp [get?, resolveCompletion, Entries.getElem?_drop]

theorem resolveWatcher_nextId (type : EventType) :
    (r.resolveWatcher id type).2.nextId = r.nextId := by
  simp only [resolveWatcher]
  split <;> rfl

theorem get?_resolveWatcher (type : EventType) :
    (r.resolveWatcher id type).2.get? s =
      if s = .watcher id ∧ keepsWatcher id type = false then none else r.get? s := by
  cases h : keepsWatcher id type <;> cases s <;>
    simp [get?, resolveWatcher, h, Entries.getElem?_drop]

theorem discardWatcher_nextId : (r.discardWatcher id).nextId = r.nextId := by
  unfold discardWatcher
  split <;> rfl

theorem discard_nextId : (r.discard id).nextId = r.nextId :=
  discardWatcher_nextId

theorem get?_discardWatcher :
    (r.discardWatcher id).get? s =
      if s = .watcher id ∧ s.isSingleUse then none else r.get? s := by
  unfold discardWatcher
  cases s
  case completion => split <;> simp [get?]
  case watcher j =>
    by_cases h : j = id
    case pos => subst h; split <;> simp_all [get?, Slot.isSingleUse]
    case neg => split <;> simp [get?, h, Entries.getElem?_drop]

theorem get?_discard :
    (r.discard id).get? s = if s.id = id ∧ s.isSingleUse then none else r.get? s := by
  unfold discard
  rw [get?_discardWatcher]
  cases s <;> simp [get?, Slot.id, Slot.isSingleUse, Entries.getElem?_drop]

theorem get?_installGlobal (global : Entry η) :
    (r.installGlobal global).get? s = if s = .watcher .global then some global else r.get? s := by
  cases s <;> simp [get?, installGlobal, Entries.getElem?_put]

theorem clear_nextId (global : Entry η) : (r.clear global).2.nextId = r.nextId :=
  rfl

theorem get?_clear (global : Entry η) :
    (r.clear global).2.get? s = if s = .watcher .global then some global else none := by
  cases s <;> simp [get?, clear, Entries.getElem?_put]

theorem get?_restoreCompletion (e : Entry η) :
    (r.restoreCompletion id e).get? s =
      if s = .completion id then (r.get? s).or (some e) else r.get? s := by
  cases s <;> simp [get?, restoreCompletion, Entries.getElem?_restore]

theorem get?_restoreWatcher (e : Entry η) :
    (r.restoreWatcher id e).get? s =
      if s = .watcher id then (r.get? s).or (some e) else r.get? s := by
  cases s <;> simp [get?, restoreWatcher, Entries.getElem?_restore]

end Registry
end Coordination
