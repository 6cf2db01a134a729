import Coordination.Proofs.Registry.Slot

namespace Coordination

namespace Invocation

variable {η : Type}

-- The slot of the entry that is called.
def slot (i : Invocation η) : Slot :=
  match i.kind with
  | .watch => .watcher i.event.id
  | .completion | .session => .completion i.event.id

theorem slot_id {i : Invocation η} : i.slot.id = i.event.id := by
  unfold slot
  split <;> rfl

-- Whether the call uses up the entry of a slot.
def consumes (s : Slot) (i : Invocation η) : Bool :=
  i.slot = s && match i.kind with
    | .completion => true
    | .watch => !i.event.isSession && !i.event.id.isGlobal
    | .session => false

-- Whether the entry of a slot is put back when the handler has ended.
def rearms (s : Slot) (i : Invocation η) : Bool :=
  i.slot = s && match i.kind with
    | .completion => false
    | .watch => i.event.isSession && !i.event.id.isGlobal
    | .session => true

@[simp] theorem consumes_completion {s : Slot} {c : CompletionEvent} {e : Entry η} :
    (⟨.completion, .completion c, e⟩ : Invocation η).consumes s = decide (.completion c.id = s) :=
  Bool.and_true _

@[simp] theorem consumes_watch {s : Slot} {w : WatchEvent} {e : Entry η} :
    (⟨.watch, .watch w, e⟩ : Invocation η).consumes s =
      (.watcher w.id = s && !Registry.keepsWatcher w.id w.type) := by
  rw [Registry.keepsWatcher, Bool.not_or, Bool.and_comm (!w.id.isGlobal)]
  rfl

@[simp] theorem consumes_session {s : Slot} {event : Event} {e : Entry η} :
    (⟨.session, event, e⟩ : Invocation η).consumes s = false := by
  simp [consumes]

theorem slot_of_consumes {s : Slot} {i : Invocation η} (h : i.consumes s) : i.slot = s := by
  simp_all [consumes]

theorem slot_of_rearms {s : Slot} {i : Invocation η} (h : i.rearms s) : i.slot = s := by
  simp_all [rearms]

theorem isSingleUse_of_consumes {s : Slot} {i : Invocation η} (h : i.consumes s) :
    s.isSingleUse := by
  have hs := slot_of_consumes h
  subst hs
  cases hk : i.kind <;> simp_all [consumes, slot, Slot.isSingleUse]

theorem isSingleUse_of_rearms {s : Slot} {i : Invocation η} (h : i.rearms s) : s.isSingleUse := by
  have hs := slot_of_rearms h
  subst hs
  cases hk : i.kind <;> simp_all [rearms, slot, Slot.isSingleUse]

theorem consumes_eq_false_of_rearms {s : Slot} {i : Invocation η} (h : i.rearms s) :
    i.consumes s = false := by
  cases hk : i.kind <;> simp_all [consumes, rearms]

end Invocation

namespace Dispatcher

variable {η : Type} {d : Dispatcher η} {s : Slot}

theorem start_completion (c : CompletionEvent) :
    (d.start (.completion c)).1 =
      (d.registry.get? (.completion c.id)).map (⟨.completion, .completion c, ·⟩) := by
  cases h : d.registry.completions[c.id]? <;>
    simp [start, route, Registry.resolveCompletion, Registry.get?, h]

theorem start_watch (w : WatchEvent) :
    (d.start (.watch w)).1 =
      match d.registry.get? (.watcher w.id) with
      | some e => some ⟨.watch, .watch w, e⟩
      | none =>
        if w.type.isSession then
          (d.registry.get? (.completion w.id)).map (⟨.session, .watch w, ·⟩)
        else none := by
  cases h : d.registry.watchers[w.id]?
  case some => simp [start, route, Registry.resolveWatcher, Registry.get?, h]
  case none =>
    cases hs : w.type.isSession <;> cases hc : d.registry.completions[w.id]? <;>
      simp [start, route, Registry.resolveWatcher, Registry.peekCompletion, Registry.keepsWatcher,
        Registry.get?, h, hs, hc]

theorem start_completion_registry (c : CompletionEvent) :
    (d.start (.completion c)).2.registry = (d.registry.resolveCompletion c.id).2 := by
  simp only [start, route]
  cases (d.registry.resolveCompletion c.id).1 <;> rfl

theorem start_watch_registry (w : WatchEvent) :
    (d.start (.watch w)).2.registry = (d.registry.resolveWatcher w.id w.type).2 := by
  simp only [start, route]
  generalize d.registry.resolveWatcher w.id w.type = resolved
  obtain ⟨_ | _, r⟩ := resolved
  case some => rfl
  case none =>
    cases w.type.isSession
    case false => rfl
    case true  => cases h : r.peekCompletion w.id <;> simp [h]

theorem start_event {event : Event} {i : Invocation η} (h : (d.start event).1 = some i) :
    i.event = event := by
  simp only [start] at h
  split at h <;> cases h
  rfl

theorem start_nextId (event : Event) :
    (d.start event).2.registry.nextId = d.registry.nextId := by
  cases event
  case completion => rw [start_completion_registry]; rfl
  case watch      => rw [start_watch_registry, Registry.resolveWatcher_nextId]

-- Only entries that are registered are called.
theorem get?_of_start {event : Event} {i : Invocation η} (h : (d.start event).1 = some i) :
    d.registry.get? i.slot = some i.entry := by
  cases event
  case completion c =>
    rw [start_completion, Option.map_eq_some_iff] at h
    obtain ⟨e, he, rfl⟩ := h
    exact he
  case watch w =>
    rw [start_watch] at h
    split at h
    case h_1 he => cases h; exact he
    case h_2 =>
      split at h
      case isFalse => cases h
      case isTrue =>
        obtain ⟨e, he, rfl⟩ := Option.map_eq_some_iff.mp h
        exact he

theorem get?_start (event : Event) :
    (d.start event).2.registry.get? s =
      if (d.start event).1.any (·.consumes s) then none else d.registry.get? s := by
  cases event
  case completion c =>
    rw [start_completion_registry, start_completion, Registry.get?_resolveCompletion]
    cases h : d.registry.get? (.completion c.id) <;> by_cases hs : s = .completion c.id <;>
      simp_all [eq_comm (b := s)]
  case watch w =>
    rw [start_watch_registry, start_watch, Registry.get?_resolveWatcher]
    cases h : d.registry.get? (.watcher w.id)
    case some => by_cases hs : s = .watcher w.id <;> simp_all [eq_comm (b := s)]
    case none =>
      cases w.type.isSession <;> cases d.registry.get? (.completion w.id) <;>
        by_cases hs : s = .watcher w.id <;> simp_all

theorem finish_nextId (i : Invocation η) (outcome : Outcome) :
    (d.finish i outcome).registry.nextId = d.registry.nextId := by
  simp only [finish, rearm]
  split <;> try split
  all_goals rfl

theorem get?_finish (i : Invocation η) (outcome : Outcome) :
    (d.finish i outcome).registry.get? s =
      if i.rearms s then (d.registry.get? s).or (some i.entry) else d.registry.get? s := by
  cases hk : i.kind
  case completion => simp [finish, rearm, Invocation.rearms, hk]
  case session =>
    simp [finish, rearm, Invocation.rearms, Invocation.slot, hk, Registry.get?_restoreCompletion,
      eq_comm]
  case watch =>
    cases hs : i.event.isSession && !i.event.id.isGlobal <;>
      simp [finish, rearm, Invocation.rearms, Invocation.slot, hk, hs,
        Registry.get?_restoreWatcher, eq_comm]

theorem finish_registry {i : Invocation η} (h : ∀ s, i.rearms s = false) (outcome : Outcome) :
    (d.finish i outcome).registry = d.registry := by
  have h := h i.slot
  simp only [Invocation.rearms, decide_true, Bool.true_and] at h
  simp only [finish, rearm]
  cases hk : i.kind <;> simp only [hk] at h ⊢
  case watch   => rw [h]; rfl
  case session => cases h

-- How many completions and how many watch events nobody waited for.
def orphans (d : Dispatcher η) : Nat × Nat :=
  (d.counters.orphanCompletion, d.counters.orphanWatch)

theorem start_orphans {event : Event} {i : Invocation η} (h : (d.start event).1 = some i) :
    (d.start event).2.orphans = d.orphans := by
  simp only [start] at h ⊢
  split at h
  case h_1 => rfl
  case h_2 => cases h

theorem finish_orphans (i : Invocation η) (outcome : Outcome) :
    (d.finish i outcome).orphans = d.orphans := by
  have h : (d.counters.ended i.kind outcome).orphanCompletion = d.counters.orphanCompletion ∧
      (d.counters.ended i.kind outcome).orphanWatch = d.counters.orphanWatch := by
    cases outcome <;> cases i.kind <;> exact ⟨rfl, rfl⟩
  simp only [finish, rearm]
  split <;> try split
  all_goals exact Prod.ext h.left h.right

end Dispatcher
end Coordination
